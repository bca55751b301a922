/-
**Units split behind declarations.**

A unit is read from one item to the next, and nothing is carried over the closing brace of a
declaration: the markers are used up, and neither the token before nor the tokens behind matter.  So
a text whose reading ends with such a brace can be followed by any other on a new line.  What the two
yield together is what they yield alone, except that the lines of the second have moved along.

Main definitions:

* `Scaffold.Source.endsClosed` — reading a unit ends with the closing brace of a declaration.

Main results:

* `Scaffold.Cursor.itemsFrom_congr_fuel` — the number of items need not be known beforehand;
* `Scaffold.Cursor.exists_itemsFrom_extend` — what follows a closing brace is read on its own;
* `Scaffold.Cursor.items_followed` — what stands before it is read as if nothing followed;
* `Scaffold.Source.exists_read?_append` — **units split behind declarations**.
-/

import Scaffold.Proofs.UnitLocality

set_option relaxedAutoImplicit false
set_option autoImplicit false

namespace Scaffold

namespace Cursor

/-! ### The token before a place -/

theorem skipStatement_prev (p q : Option Token) (t : Token) (ts : List Token) :
    (⟨p, t :: ts⟩ : Cursor).skipStatement = (⟨q, t :: ts⟩ : Cursor).skipStatement := by
  have hpast : ∀ taken left : List Token, ¬ taken.isEmpty = true →
      (⟨p, t :: ts⟩ : Cursor).past taken left = (⟨q, t :: ts⟩ : Cursor).past taken left := by
    intro taken left htaken
    cases htaken : taken.getLast? with
    | none => simp_all
    | some last => simp only [past, htaken, Option.some_or]
  simp only [skipStatement]
  congr 1
  show (if ((⟨q, t :: ts⟩ : Cursor).statement false).1.isEmpty then _ else _) = _
  split
  · rfl
  · next hempty => exact hpast _ _ hempty

theorem declaration_prev (unit : String) (source : List Char) (markerPrefix : String) (room : Nat)
    (parent : Option String) (form : Form) (markers : List String) (p q : Option Token) (t : Token)
    (ts : List Token) :
    declaration unit source markerPrefix room parent form markers ⟨p, t :: ts⟩ =
      declaration unit source markerPrefix room parent form markers ⟨q, t :: ts⟩ := by
  rw [declaration.eq_def, declaration.eq_def]
  rfl

/-- A reader of declarations that reads each by itself. -/
structure Local (source : List Char) (nested : NestedReader) : Prop where
  /-- The token before a declaration does not matter. -/
  prev : ∀ form markers p q t ts, nested form markers ⟨p, t :: ts⟩ = nested form markers ⟨q, t :: ts⟩
  /-- The tokens behind a declaration matter only as far as it has to look. -/
  ends : ∀ {form markers c o c'}, nested form markers c = some (o, c') → c.rest ≠ [] →
    Ends source nested form markers c o c'

theorem local_declaration (unit : String) (source : List Char) (markerPrefix : String) (room : Nat)
    (parent : Option String) : Local source (declaration unit source markerPrefix room parent) :=
  ⟨declaration_prev unit source markerPrefix room parent, ends_declaration⟩

/-! ### Items -/

theorem rest_ne_nil_of_next? {c : Cursor} {t : Token} (h : c.next? = some t) : c.rest ≠ [] := by
  intro hnil
  simp [next?, hnil] at h

theorem length_advance_lt {c : Cursor} (h : c.rest ≠ []) :
    c.advance.rest.length < c.rest.length := by
  obtain ⟨prev, rest⟩ := c
  cases rest with
  | nil => exact absurd rfl h
  | cons t ts => exact Nat.lt_succ_self _

/-- A statement takes a token. -/
theorem advance_leads_skipStatement (c : Cursor) : c.advance.Leads c.skipStatement := by
  refine Leads.trans ?_ (leads_skipMark _ ';')
  obtain ⟨prev, rest⟩ := c
  have hparts : ((⟨prev, rest⟩ : Cursor).statement false).1 ++
      ((⟨prev, rest⟩ : Cursor).statement false).2 = rest := scan_append _ _ _ _ _ _
  split
  · exact Leads.refl _
  next hempty =>
  cases htaken : ((⟨prev, rest⟩ : Cursor).statement false).1 with
  | nil => simp [htaken] at hempty
  | cons t taken =>
      rw [htaken] at hparts
      cases rest with
      | nil => cases hparts
      | cons t' ts =>
          obtain ⟨rfl, hparts⟩ := List.cons.inj hparts
          exact ⟨fun _ => by simp [past, List.getLast?_cons], taken, hparts⟩

/-- Whether the token at the place opens a declaration whose braces end the region. -/
def closesLast (source : List Char) (t : Token) (c : Cursor) : Bool :=
  match t.kind with
  | .word w =>
    !modifiers.contains w && (Form.ofKeyword? w).isSome &&
      (c.braces? source).any fun (_, _, after) => after.isEmpty
  | _ => false

section Items

variable {source : List Char} {nested : NestedReader} {markerPrefix : String} {markers : List String}
  {t : Token} {c : Cursor}

theorem item_prev (hnested : Local source nested) (p q : Option Token) (ts : List Token) :
    item nested markerPrefix markers t ⟨p, t :: ts⟩ =
      item nested markerPrefix markers t ⟨q, t :: ts⟩ := by
  simp only [item, skipStatement_prev p q, hnested.prev _ _ p q]
  rfl

theorem leads_item (hnested : Local source nested) (hnext : c.next? = some t) {m : List String}
    {o : Outcome} {c' : Cursor} (h : item nested markerPrefix markers t c = some (m, o, c')) :
    c.advance.Leads c' := by
  simp only [item] at h
  split at h
  · cases h
    exact Leads.refl _
  · cases h
    simp only [skipAttribute]
    split
    · exact (leads_advance _).trans (leads_skipGluedParens _)
    · exact Leads.refl _
  · split at h
    · cases h
      exact leads_skipGluedParens _
    split at h
    · obtain ⟨⟨o', c₁⟩, hread, heq⟩ := Option.map_eq_some_iff.1 h
      cases heq
      exact (hnested.ends hread (rest_ne_nil_of_next? hnext)).leads
    · cases h
      exact advance_leads_skipStatement c
  · cases h
    exact advance_leads_skipStatement c

theorem length_lt_of_item (hnested : Local source nested) (hnext : c.next? = some t)
    {m : List String} {o : Outcome} {c' : Cursor}
    (h : item nested markerPrefix markers t c = some (m, o, c')) :
    c'.rest.length < c.rest.length :=
  Nat.lt_of_le_of_lt (leads_item hnested hnext h).rest.length_le
    (length_advance_lt (rest_ne_nil_of_next? hnext))

/-- An item does not depend on what follows, if it leaves something else than comments. -/
theorem item_extend (hnested : Local source nested) (hnext : c.next? = some t) {m : List String}
    {o : Outcome} {c' : Cursor} (h : item nested markerPrefix markers t c = some (m, o, c'))
    (hleft : c'.skipComments.rest ≠ []) (more : List Token) :
    item nested markerPrefix markers t (c.extend more) = some (m, o, c'.extend more) := by
  have hc := rest_ne_nil_of_next? hnext
  have hc' := (leads_skipComments c').rest_ne_nil hleft
  unfold item at h ⊢
  split at h
  · next hkind =>
      cases h
      rw [advance_extend hc]
  · next hkind =>
      cases h
      rw [skipAttribute_extend hc']
  · next w hkind =>
      split at h
      · next hmodifier =>
          cases h
          rw [if_pos hmodifier, skipModifier_extend hc']
      next hmodifier =>
      rw [if_neg hmodifier]
      split at h
      · next form hform =>
          obtain ⟨⟨o', c₁⟩, hread, heq⟩ := Option.map_eq_some_iff.1 h
          cases heq
          rw [(hnested.ends hread hc).extend (.inl hleft) more]
          rfl
      · cases h
        rw [skipStatement_extend hc']
  · cases h
    rw [skipStatement_extend hc']

/-- An item that ends the region as a declaration leaves no markers, and ends there whatever
follows. -/
theorem item_of_closesLast (hnested : Local source nested) (hnext : c.next? = some t)
    {m : List String} {o : Outcome} {c' : Cursor}
    (h : item nested markerPrefix markers t c = some (m, o, c'))
    (hlast : c.closesLast source t = true) :
    m = [] ∧ ∃ close, c' = ⟨some close, []⟩ ∧ ∀ more,
      item nested markerPrefix markers t (c.extend more) = some ([], o, ⟨some close, more⟩) := by
  have hc := rest_ne_nil_of_next? hnext
  simp only [closesLast] at hlast
  split at hlast
  · next w hkind =>
      simp only [Bool.and_eq_true, Bool.not_eq_true', Option.any_eq_true, List.isEmpty_iff] at hlast
      obtain ⟨⟨hmodifier, hform⟩, ⟨inside, close, after⟩, hbraces, rfl⟩ := hlast
      obtain ⟨form, hform⟩ := Option.isSome_iff_exists.1 hform
      simp only [item, hkind, hmodifier, hform, Bool.false_eq_true, if_false] at h ⊢
      obtain ⟨⟨o', c₁⟩, hread, heq⟩ := Option.map_eq_some_iff.1 h
      cases heq
      have hends := hnested.ends hread hc
      have hclose := hends.close inside close [] hbraces
      refine ⟨rfl, close, hclose, fun more => ?_⟩
      rw [hends.extend (.inr (by simp [hbraces])) more, hclose]
      rfl
  · cases hlast

/-! ### Runs -/

theorem itemsFrom_prev (hnested : Local source nested) (fuel : Nat) (p q : Option Token)
    (ts : List Token) :
    itemsFrom nested markerPrefix fuel markers ⟨p, ts⟩ =
      itemsFrom nested markerPrefix fuel markers ⟨q, ts⟩ := by
  cases fuel with
  | zero => rfl
  | succ fuel =>
      cases ts with
      | nil => rfl
      | cons t ts =>
          simp only [itemsFrom, next?, List.head?_cons, item_prev hnested p q ts]

theorem itemsFrom_nil (fuel : Nat) (prev : Option Token) :
    itemsFrom nested markerPrefix fuel markers ⟨prev, []⟩ = some {} := by
  cases fuel <;> rfl

theorem itemsFrom_step {fuel : Nat} (hnext : c.next? = some t) {m : List String} {o : Outcome}
    {c' : Cursor} (hitem : item nested markerPrefix markers t c = some (m, o, c')) :
    itemsFrom nested markerPrefix (fuel + 1) markers c =
      (itemsFrom nested markerPrefix fuel m c').map (o ++ ·) := by
  simp only [itemsFrom, hnext, hitem]
  cases itemsFrom nested markerPrefix fuel m c' <;> rfl

/-- Every item takes a token, so that more fuel changes nothing. -/
theorem itemsFrom_congr_fuel (hnested : Local source nested) {fuel fuel' : Nat}
    (h : c.rest.length < fuel) (h' : c.rest.length < fuel') :
    itemsFrom nested markerPrefix fuel markers c = itemsFrom nested markerPrefix fuel' markers c := by
  induction fuel generalizing fuel' markers c with
  | zero => exact absurd h (Nat.not_lt_zero _)
  | succ fuel ih =>
      cases fuel' with
      | zero => exact absurd h' (Nat.not_lt_zero _)
      | succ fuel' =>
          cases hnext : c.next? with
          | none => simp only [itemsFrom, hnext]
          | some t =>
              cases hitem : item nested markerPrefix markers t c with
              | none => simp only [itemsFrom, hnext, hitem]
              | some step =>
                  obtain ⟨m, o, c'⟩ := step
                  have hlt := length_lt_of_item hnested hnext hitem
                  rw [itemsFrom_step hnext hitem, itemsFrom_step hnext hitem,
                    ih (c := c') (by omega) (by omega : c'.rest.length < fuel')]

/-- Whether the items from the place on end with the closing brace of a declaration. -/
def endsClosedFrom (source : List Char) (nested : NestedReader) (markerPrefix : String) :
    (fuel : Nat) → List String → Cursor → Bool
  | 0, _, _ => false
  | fuel + 1, markers, c =>
    match c.next? with
    | none => false
    | some t =>
      match c.item nested markerPrefix markers t with
      | none => false
      | some (markers, _, behind) =>
        if behind.rest.isEmpty then c.closesLast source t
        else endsClosedFrom source nested markerPrefix fuel markers behind

theorem endsClosedFrom_nil (fuel : Nat) (prev : Option Token) :
    endsClosedFrom source nested markerPrefix fuel markers ⟨prev, []⟩ = false := by
  cases fuel <;> rfl

theorem endsClosedFrom_prev (hnested : Local source nested) (fuel : Nat) (p q : Option Token)
    (ts : List Token) :
    endsClosedFrom source nested markerPrefix fuel markers ⟨p, ts⟩ =
      endsClosedFrom source nested markerPrefix fuel markers ⟨q, ts⟩ := by
  cases fuel with
  | zero => rfl
  | succ fuel =>
      cases ts with
      | nil => rfl
      | cons t ts =>
          simp only [endsClosedFrom, next?, List.head?_cons, item_prev hnested p q ts]
          rfl

theorem skipComments_ne_nil (ht : t ∈ c.rest) (hcomment : t.isComment = false) :
    c.skipComments.rest ≠ [] := by
  intro hnil
  have hparts := List.takeWhile_append_dropWhile (p := Token.isComment) (l := c.rest)
  have hall : (c.rest.takeWhile Token.isComment).all Token.isComment = true := List.all_takeWhile
  rw [show c.rest.dropWhile Token.isComment = [] from hnil, List.append_nil] at hparts
  rw [hparts, List.all_eq_true] at hall
  exact absurd (hall t ht) (by simp [hcomment])

theorem isComment_of_closesLast (h : c.closesLast source t = true) : t.isComment = false := by
  simp only [closesLast] at h
  split at h
  · next w hkind => simp [Token.isComment, hkind]
  · cases h

/-- Items that end with a closing brace are more than comments. -/
theorem exists_mem_of_endsClosedFrom (hnested : Local source nested) {fuel : Nat}
    (h : endsClosedFrom source nested markerPrefix fuel markers c = true) :
    ∃ t ∈ c.rest, t.isComment = false := by
  induction fuel generalizing markers c with
  | zero => cases h
  | succ fuel ih =>
      simp only [endsClosedFrom] at h
      split at h
      · cases h
      next t hnext =>
      split at h
      · cases h
      next m o c' hitem =>
      split at h
      · exact ⟨t, List.mem_of_mem_head? hnext, isComment_of_closesLast h⟩
      · obtain ⟨t', ht', hcomment⟩ := ih h
        have hleads := (leads_advance c).trans (leads_item hnested hnext hitem)
        exact ⟨t', hleads.rest.subset ht', hcomment⟩

/-- **What follows a closing brace is read on its own.**  If the items from a place on end with the
closing brace of a declaration, then with more tokens behind them they yield the same, and then what
these tokens yield. -/
theorem exists_itemsFrom_extend (hnested : Local source nested) {fuel : Nat}
    (h : endsClosedFrom source nested markerPrefix fuel markers c = true) :
    ∃ o, itemsFrom nested markerPrefix fuel markers c = some o ∧
      ∀ more {fuel'}, (c.extend more).rest.length < fuel' →
        itemsFrom nested markerPrefix fuel' markers (c.extend more) =
          (itemsFrom nested markerPrefix (more.length + 1) [] (start more)).map (o ++ ·) := by
  induction fuel generalizing markers c with
  | zero => cases h
  | succ fuel ih =>
      simp only [endsClosedFrom] at h
      split at h
      · cases h
      next t hnext =>
      split at h
      · cases h
      next m o c' hitem =>
      have hc := rest_ne_nil_of_next? hnext
      split at h
      · obtain ⟨rfl, close, rfl, hmore⟩ := item_of_closesLast hnested hnext hitem h
        refine ⟨o, ?_, fun more fuel' hfuel => ?_⟩
        · rw [itemsFrom_step hnext hitem, itemsFrom_nil, Option.map_some, Outcome.append_empty]
        cases fuel' with
        | zero => exact absurd hfuel (Nat.not_lt_zero _)
        | succ fuel' =>
            have hnext' : (c.extend more).next? = some t := by rw [next?_extend hc, hnext]
            have hfuel' : more.length < fuel' := by
              have := List.length_pos_iff.2 hc
              simp only [extend, List.length_append] at hfuel
              omega
            have hrest : itemsFrom nested markerPrefix fuel' [] ⟨some close, more⟩ =
                itemsFrom nested markerPrefix (more.length + 1) [] (start more) :=
              (itemsFrom_prev hnested fuel' _ none more).trans
                (itemsFrom_congr_fuel hnested hfuel' (Nat.lt_succ_self _))
            rw [itemsFrom_step hnext' (hmore more), hrest]
      · obtain ⟨o', hrun, hmore⟩ := ih h
        obtain ⟨t', ht', hcomment⟩ := exists_mem_of_endsClosedFrom hnested h
        have hleft := skipComments_ne_nil ht' hcomment
        have hlt := length_lt_of_item hnested hnext hitem
        refine ⟨o ++ o', ?_, fun more fuel' hfuel => ?_⟩
        · rw [itemsFrom_step hnext hitem, hrun, Option.map_some]
        cases fuel' with
        | zero => exact absurd hfuel (Nat.not_lt_zero _)
        | succ fuel' =>
            have hnext' : (c.extend more).next? = some t := by rw [next?_extend hc, hnext]
            have hitem' := item_extend hnested hnext hitem hleft more
            have hfuel' : (c'.extend more).rest.length < fuel' := by
              simp only [extend, List.length_append] at hfuel ⊢
              omega
            rw [itemsFrom_step hnext' hitem', hmore more hfuel', Option.map_map]
            simp only [Function.comp_def, Outcome.append_assoc]

end Items

end Cursor

/-! ### Runs further down -/

namespace Displacement

open Cursor

variable (σ : Displacement) {cs : List Char} {c : Cursor}

theorem block?_cursor (c : Cursor) :
    (σ.cursor c).block? =
      c.block?.map fun parts => (σ.tokens parts.1, σ.token parts.2.1, σ.tokens parts.2.2) := by
  simp only [block?, rest_cursor]
  cases c.rest with
  | nil => rfl
  | cons t ts =>
      simp only [tokens_cons, isMark_token, split_tokens]
      split <;> rfl

theorem braces?_cursor (hc : c.Settled cs) :
    (σ.cursor c).braces? (σ.source cs) =
      (c.braces? cs).map fun parts => (σ.tokens parts.1, σ.token parts.2.1, σ.tokens parts.2.2) := by
  obtain ⟨x, x', c₁, hheader, hheader', hx, -⟩ :=
    σ.headers_header ((hc.of_leads (leads_advance c)).of_leads (leads_advance _))
  have hresume : resume (x', σ.cursor c₁) = σ.cursor (resume (x, c₁)) := by
    rcases hx with ⟨texts, _, rfl, rfl, rfl⟩ | ⟨f, _, rfl, rfl, rfl⟩
    · rfl
    · exact σ.skipHeaderRest_cursor c₁
  simp only [braces?, advance_cursor, word?_cursor, hheader, hheader', Option.bind_some, hresume,
    skipComments_cursor, block?_cursor]
  cases c.advance.word? <;> rfl

theorem closesLast_cursor (hc : c.Settled cs) (t : Token) :
    (σ.cursor c).closesLast (σ.source cs) (σ.token t) = c.closesLast cs t := by
  simp only [closesLast, kind_token, σ.braces?_cursor hc]
  cases c.braces? cs with
  | none => rfl
  | some parts => simp only [Option.map_some, Option.any_some, isEmpty_tokens]

/-- Whether a run ends with a closing brace is the same further down. -/
theorem endsClosedFrom_cursor {nested nested' : NestedReader}
    (hnested : σ.CarriesNested cs nested nested') (markerPrefix : String) (fuel : Nat)
    (markers : List String) (hc : c.Settled cs) :
    endsClosedFrom (σ.source cs) nested' markerPrefix fuel markers (σ.cursor c) =
      endsClosedFrom cs nested markerPrefix fuel markers c := by
  induction fuel generalizing markers c with
  | zero => rfl
  | succ fuel ih =>
      simp only [endsClosedFrom, next?_cursor]
      cases c.next? with
      | none => rfl
      | some t =>
          obtain ⟨m, o, c', hitem, hitem', hc'⟩ := σ.exists_item hnested markerPrefix markers t hc
          simp only [Option.map_some, hitem, hitem', rest_cursor, isEmpty_tokens,
            σ.closesLast_cursor hc, ih m hc']

section Start

variable (unit markerPrefix : String) {ts : List Token} (hts : Anchored cs ts)

include hts

/-- The items of a text are read alike further down. -/
theorem exists_items_start :
    ∃ o, items unit cs markerPrefix (start ts) = some o ∧
      items unit (σ.source cs) markerPrefix (start (σ.tokens ts)) = some (o.move σ.lines) := by
  cases ts with
  | nil => exact ⟨{}, itemsFrom_nil _ _, itemsFrom_nil _ _⟩
  | cons t ts =>
      -- the token before the first does not matter, so any will do
      obtain ⟨o, ho, ho'⟩ := σ.exists_itemsFrom (c := ⟨some t, t :: ts⟩)
        (σ.carriesNested_declaration unit markerPrefix maxNesting none) markerPrefix
        ((t :: ts).length + 1) [] ⟨rfl, hts⟩
      refine ⟨o, ?_, ?_⟩
      · rw [← ho]
        exact itemsFrom_prev (local_declaration _ _ _ _ _) _ none (some t) (t :: ts)
      · rw [← ho', items, start, length_tokens]
        exact itemsFrom_prev (local_declaration _ _ _ _ _) _ none (some (σ.token t)) _

theorem endsClosedFrom_start (fuel : Nat) :
    endsClosedFrom (σ.source cs) (declaration unit (σ.source cs) markerPrefix maxNesting none)
        markerPrefix fuel [] (start (σ.tokens ts)) =
      endsClosedFrom cs (declaration unit cs markerPrefix maxNesting none) markerPrefix fuel []
        (start ts) := by
  cases ts with
  | nil => exact (endsClosedFrom_nil _ _).trans (endsClosedFrom_nil _ _).symm
  | cons t ts =>
      have hrun := σ.endsClosedFrom_cursor (c := ⟨some t, t :: ts⟩)
        (σ.carriesNested_declaration unit markerPrefix maxNesting none) markerPrefix fuel []
        ⟨rfl, hts⟩
      calc
        _ = endsClosedFrom (σ.source cs) _ markerPrefix fuel [] (σ.cursor ⟨some t, t :: ts⟩) :=
          endsClosedFrom_prev (local_declaration _ _ _ _ _) fuel none (some (σ.token t)) _
        _ = endsClosedFrom cs _ markerPrefix fuel [] ⟨some t, t :: ts⟩ := hrun
        _ = _ := endsClosedFrom_prev (local_declaration _ _ _ _ _) fuel (some t) none _

end Start

end Displacement

/-! ### Units -/

theorem Outcome.move_zero (o : Outcome) : o.move 0 = o := by
  have hproblem : ∀ p, Problem.move 0 p = p := by
    rintro (_ | _) <;> simp [Problem.move]
  have hentry : ∀ e, Entry.move 0 e = e := by
    intro e
    simp [Entry.move]
  simp [Outcome.move, funext hproblem, funext hentry]

/-- Whether reading a unit ends with the closing brace of a declaration. -/
def Source.endsClosed (markerPrefix : String) (s : Source) : Bool :=
  match tokenize s.text with
  | .error _ => false
  | .ok tokens =>
    Cursor.endsClosedFrom s.text.toList
      (Cursor.declaration s.name s.text.toList markerPrefix maxNesting none) markerPrefix
      (tokens.length + 1) [] (Cursor.start tokens)

/-- The text before a boundary is read as if nothing followed. -/
theorem Cursor.items_followed {unit markerPrefix : String} {cs : List Char} {ts : List Token}
    (hts : Anchored cs ts)
    (hclosed : endsClosedFrom cs (declaration unit cs markerPrefix maxNesting none) markerPrefix
      (ts.length + 1) [] (start ts) = true) {first : Outcome}
    (hfirst : items unit cs markerPrefix (start ts) = some first) (behind : List Char)
    (more : List Token) :
    items unit (cs ++ behind) markerPrefix (start (ts ++ more)) =
      (items unit (cs ++ behind) markerPrefix (start more)).map (first ++ ·) := by
  let σ : Displacement := ⟨[], behind, 0⟩
  have hσ : σ.tokens ts = ts := Displacement.tokens_of_behind behind ts
  obtain ⟨first', hrun, hrun'⟩ := σ.exists_items_start unit markerPrefix hts
  obtain rfl : first = first' := Option.some.inj (hfirst.symm.trans hrun)
  have hclosed' := (σ.endsClosedFrom_start unit markerPrefix hts (ts.length + 1)).trans hclosed
  rw [hσ] at hrun' hclosed'
  obtain ⟨o, ho, hmore⟩ :=
    exists_itemsFrom_extend (local_declaration unit _ markerPrefix maxNesting none) hclosed'
  obtain rfl : o = first := by
    rw [Outcome.move_zero] at hrun'
    exact Option.some.inj (ho.symm.trans hrun')
  exact hmore more (Nat.lt_succ_self _)

/-- **Units split behind declarations.**  If reading a text ends with the closing brace of a
declaration, then any other text on a new line behind it is read as if it stood alone, on later
lines, and the text before it is read as if nothing followed. -/
theorem Source.exists_read?_append {unit markerPrefix a : String}
    (h : Source.endsClosed markerPrefix ⟨unit, a⟩ = true) :
    ∃ first lines, Source.read? markerPrefix ⟨unit, a⟩ = some first ∧
      ∀ b tokens, tokenize b = .ok tokens → ∃ second,
        Source.read? markerPrefix ⟨unit, b⟩ = some second ∧
        Source.read? markerPrefix ⟨unit, a ++ "\n" ++ b⟩ = some (first ++ second.move lines) := by
  simp only [Source.endsClosed] at h
  split at h
  · cases h
  next ts hts =>
  have hanchored := anchored_tokenize hts
  obtain ⟨lines, hlines⟩ := tokenize_append hts
  obtain ⟨first, hfirst, -⟩ :=
    (⟨[], [], 0⟩ : Displacement).exists_items_start unit markerPrefix hanchored
  refine ⟨first, lines, by simpa only [Source.read?, hts] using hfirst, fun b us hb => ?_⟩
  let τ : Displacement := ⟨a.toList ++ ['\n'], [], lines⟩
  have hτ : τ.source b.toList = a.toList ++ '\n' :: b.toList := by simp [τ, Displacement.source]
  have htext : (a ++ "\n" ++ b).toList = a.toList ++ '\n' :: b.toList := by simp
  obtain ⟨second, hsecond, hsecond'⟩ := τ.exists_items_start unit markerPrefix (anchored_tokenize hb)
  refine ⟨second, by simpa only [Source.read?, hb] using hsecond, ?_⟩
  rw [hτ] at hsecond'
  calc Source.read? markerPrefix ⟨unit, a ++ "\n" ++ b⟩
    _ = Cursor.items unit (a.toList ++ '\n' :: b.toList) markerPrefix
          (Cursor.start (ts ++ τ.tokens us)) := by
        simp only [Source.read?, hlines hb, htext]
        rfl
    _ = some (first ++ second.move lines) := by
        rw [Cursor.items_followed hanchored h hfirst, hsecond', Option.map_some]

/-- A nameless struct and a generic protocol are given up; the enumeration behind them is read. -/
theorem Source.exists_read?_append_shop :
    let a := "struct \x7b let x = 1 \x7d\n// sourcery: autoStub\nprotocol Shop<T> \x7b\n\x7d"
    let b := "// sourcery: autoStub\nenum Size \x7b case small \x7d"
    Source.endsClosed "sourcery:" ⟨"Shop.swift", a⟩ = true ∧
      ∃ first second lines, Source.read? "sourcery:" ⟨"Shop.swift", a⟩ = some first ∧
        first.rejected = [⟨"Shop", none, ["autoStub"]⟩] ∧
        Source.read? "sourcery:" ⟨"Shop.swift", b⟩ = some second ∧ second.entries.length = 1 ∧
        Source.read? "sourcery:" ⟨"Shop.swift", a ++ "\n" ++ b⟩ =
          some (first ++ second.move lines) := by
  intro a b
  have hclosed : Source.endsClosed "sourcery:" ⟨"Shop.swift", a⟩ = true := by decide +kernel
  obtain ⟨first, lines, hfirst, hmore⟩ := Source.exists_read?_append hclosed
  have htokenized : (tokenize b).toBool = true := by decide +kernel
  obtain ⟨tokens, htokens⟩ : ∃ tokens, tokenize b = .ok tokens := by
    cases htokens : tokenize b with
    | ok tokens => exact ⟨tokens, rfl⟩
    | error e => simp [htokens, Except.toBool] at htokenized
  obtain ⟨second, hsecond, hboth⟩ := hmore b tokens htokens
  have hrejected : (Source.read? "sourcery:" ⟨"Shop.swift", a⟩).map Outcome.rejected =
      some [⟨"Shop", none, ["autoStub"]⟩] := by decide +kernel
  have hentries : (Source.read? "sourcery:" ⟨"Shop.swift", b⟩).map (·.entries.length) = some 1 := by
    decide +kernel
  rw [hfirst] at hrejected
  rw [hsecond] at hentries
  exact ⟨hclosed, first, second, lines, hfirst, Option.some.inj hrejected, hsecond,
    Option.some.inj hentries, hboth⟩

end Scaffold
