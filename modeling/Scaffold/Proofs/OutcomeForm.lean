/-
**The form of what reading yields.**

A declaration is put before those nested inside it, and dropped together with them; what could not be
read stays reported.  So whatever a unit holds, its declarations come out in the pre-order of their
nesting, on lines that never go back, and the rejected declarations are those that the problems are
about, one for one.

Main definitions:

* `Scaffold.Forest` — declarations that are nested in pre-order, by recursion;
* `Scaffold.Held`, `Scaffold.IsPreordered` — the same, told from each declaration;
* `Scaffold.Outcome.Grows` — what is known of the outcome while a body or a unit is read;
* `Scaffold.Outcome.IsWellFormed` — the form of the outcome of a unit.

Main results:

* `Scaffold.Forest.isPreordered` — forests are preordered;
* `Scaffold.Outcome.delivers_declaration` — **what a declaration yields can be put behind what was
  read before**;
* `Scaffold.Lexer.lines_tokens` — tokens stand on lines that never go back;
* `Scaffold.Source.isWellFormed_read` — **every outcome of a unit is well formed**.
-/

import Scaffold.Proofs.Rejections

set_option relaxedAutoImplicit false
set_option autoImplicit false

namespace Scaffold

/-! ### Pre-order -/

/-- Declarations inside a given one, if any, each of which comes before those nested inside it. -/
inductive Forest : Option String → List Declaration → Prop
  /-- There are none. -/
  | nil {parent : Option String} : Forest parent []
  /-- The first, those nested inside it, and the others. -/
  | cons {parent : Option String} {d : Declaration} {inner rest : List Declaration} {name : String} :
      d.parent = parent → d.name = Cursor.qualified parent name → Forest (some d.name) inner →
      Forest parent rest → Forest parent (d :: (inner ++ rest))

/-- A declaration is named after one before it, and so are all that stand between the two. -/
def Held (before : List Declaration) (d : Declaration) (p : String) : Prop :=
  (∃ n, d.name = p ++ "." ++ n) ∧
    ∃ earlier holder between, before = earlier ++ holder :: between ∧ holder.name = p ∧
      ∀ e ∈ between, ∃ n, e.name = p ++ "." ++ n

/-- Every declaration inside another one is named after that one, which comes before it, and so are
all that stand between the two. -/
def IsPreordered (ds : List Declaration) : Prop :=
  ∀ (before : List Declaration) (d : Declaration) (after : List Declaration) (p : String),
    ds = before ++ d :: after → d.parent = some p → Held before d p

theorem Held.after {before : List Declaration} {d : Declaration} {p : String}
    (h : Held before d p) (first : List Declaration) : Held (first ++ before) d p := by
  obtain ⟨hname, earlier, holder, between, rfl, hholder⟩ := h
  exact ⟨hname, first ++ earlier, holder, between, by rw [List.append_assoc], hholder⟩

namespace Forest

variable {parent : Option String} {p : String} {ds es : List Declaration}

theorem append (h : Forest parent ds) (h' : Forest parent es) : Forest parent (ds ++ es) := by
  induction h with
  | nil => exact h'
  | cons hparent hname hinner _ _ ih =>
      rw [List.cons_append, List.append_assoc]
      exact .cons hparent hname hinner (ih h')

/-- The names inside a declaration begin with its name. -/
theorem exists_name_eq (h : Forest (some p) ds) :
    ∀ d ∈ ds, ∃ n, d.name = p ++ "." ++ n := by
  generalize hp : some p = parent at h
  induction h generalizing p with
  | nil => simp
  | @cons parent d inner rest name _ hname _ _ ihinner ihrest =>
      subst hp
      have hd : d.name = p ++ "." ++ name := hname
      intro e he
      rcases List.mem_cons.1 he with rfl | he
      · exact ⟨name, hd⟩
      rcases List.mem_append.1 he with he | he
      · obtain ⟨n, hn⟩ := ihinner rfl e he
        exact ⟨name ++ "." ++ n, by rw [hn, hd]; simp only [String.append_assoc]⟩
      · exact ihrest rfl e he

/-- A declaration stands either at the top, or behind the one it is inside of. -/
theorem top_or_held (h : Forest parent ds) {before after : List Declaration} {d : Declaration}
    (hsplit : ds = before ++ d :: after) :
    d.parent = parent ∨ ∃ q, d.parent = some q ∧ Held before d q := by
  induction h generalizing before after with
  | nil => simp at hsplit
  | @cons parent root inner rest name hparent _ hinner _ ihinner ihrest =>
      rcases List.cons_eq_append_iff.1 hsplit with ⟨rfl, heq⟩ | ⟨before, rfl, heq⟩
      · cases heq
        exact .inl hparent
      have hbehind : ∀ more, before = inner ++ more → rest = more ++ d :: after →
          d.parent = parent ∨ ∃ q, d.parent = some q ∧ Held (root :: before) d q := by
        rintro more rfl hrest
        rcases ihrest hrest with htop | ⟨q, hq, hheld⟩
        · exact .inl htop
        · exact .inr ⟨q, hq, hheld.after (root :: inner)⟩
      rcases List.append_eq_append_iff.1 heq with ⟨more, hbefore, hrest⟩ | ⟨more, hinner', hrest⟩
      · exact hbehind more hbefore hrest
      cases more with
      | nil => exact hbehind [] (by simpa using hinner'.symm) hrest.symm
      | cons e more =>
          obtain ⟨rfl, -⟩ := List.cons.inj hrest
          refine .inr ?_
          rcases ihinner hinner' with htop | ⟨q, hq, hheld⟩
          · -- it is at the top of what is nested in the first, all of which has its name
            have hnames := hinner.exists_name_eq
            refine ⟨root.name, htop, hnames d (by simp [hinner']), [], root, before, rfl, rfl, ?_⟩
            intro e he
            exact hnames e (by simp [hinner', he])
          · exact ⟨q, hq, hheld.after [root]⟩

/-- Declarations that are nested in nothing are preordered. -/
theorem isPreordered (h : Forest none ds) : IsPreordered ds := by
  intro before d after q hsplit hq
  rcases h.top_or_held hsplit with htop | ⟨q', hq', hheld⟩
  · cases htop.symm.trans hq
  · cases hq'.symm.trans hq
    exact hheld

end Forest

/-! ### Outcomes in the making -/

/-- Whether a problem is that of a rejected declaration: one with a name, in a text that can be
divided into tokens. -/
def Problem.isRejection : Problem → Bool
  | .malformed _ _ reason _ => reason.isInner
  | _ => true

/-- The lines of the declarations. -/
def Outcome.lines (o : Outcome) : List Nat := o.entries.map fun e => e.declaration.line

theorem Outcome.lines_append (a b : Outcome) : (a ++ b).lines = a.lines ++ b.lines :=
  List.map_append

/-- Tokens on lines between two others that never go back. -/
structure Region (first last : Nat) (ts : List Token) : Prop where
  /-- The lines never go back. -/
  ordered : ts.Pairwise fun t u => t.line ≤ u.line
  /-- They lie in the region. -/
  within : ∀ t ∈ ts, first ≤ t.line ∧ t.line ≤ last

theorem Region.of_suffix {first last : Nat} {ts us : List Token} (h : Region first last ts)
    (hsuffix : us <:+ ts) : Region first last us :=
  ⟨h.ordered.sublist hsuffix.sublist, fun t ht => h.within t (hsuffix.subset ht)⟩

namespace Outcome

/-- What is known of the outcome while a body or a unit is read, between two lines. -/
structure Grows (unit : String) (parent : Option String) (first last : Nat) (o : Outcome)
    (c : Cursor) : Prop where
  /-- The declarations are nested in pre-order. -/
  forest : Forest parent (o.entries.map Entry.declaration)
  /-- They are of the unit, and have no position yet. -/
  placed : ∀ e ∈ o.entries, e.declaration.unit = unit ∧ e.declaration.position = 0
  /-- Their lines never go back. -/
  ordered : o.lines.Pairwise (· ≤ ·)
  /-- Their lines lie in the region. -/
  within : ∀ n ∈ o.lines, first ≤ n ∧ n ≤ last
  /-- They do not lie behind what is still to be read. -/
  before : ∀ n ∈ o.lines, ∀ t ∈ c.rest, n ≤ t.line
  /-- The problems are about the rejected declarations, one for one. -/
  accounts : (o.problems.filter Problem.isRejection).map Problem.about =
    o.rejected.map Rejected.declaration
  /-- What is still to be read lies in the region. -/
  region : Region first last c.rest

variable {unit : String} {parent : Option String} {first last : Nat} {o o' : Outcome}
  {c c' : Cursor}

theorem isInvariant_grows : IsInvariant (Grows unit parent first last) := by
  intro o c c' h hc
  exact { h with
    before := fun n hn t ht => h.before n hn t (hc.rest.subset ht)
    region := h.region.of_suffix hc.rest }

/-- Problems alone say nothing of declarations. -/
theorem grows_of_problems {ps : List Problem} {rs : List Rejected}
    (haccounts : (ps.filter Problem.isRejection).map Problem.about = rs.map Rejected.declaration)
    (h : Region first last c.rest) : Grows unit parent first last ⟨[], ps, rs⟩ c where
  forest := .nil
  placed := by simp
  ordered := .nil
  within := by simp [lines]
  before := by simp [lines]
  accounts := haccounts
  region := h

theorem grows_empty (h : Region first last c.rest) : Grows unit parent first last {} c :=
  grows_of_problems rfl h

/-- What stands on later lines can be put behind. -/
theorem Grows.append (h : Grows unit parent first last o c) (h' : Grows unit parent first last o' c')
    (hlater : ∀ m ∈ o.lines, ∀ n ∈ o'.lines, m ≤ n) (hc : c.Leads c') :
    Grows unit parent first last (o ++ o') c' where
  forest := by
    rw [entries_append, List.map_append]
    exact h.forest.append h'.forest
  placed := by
    intro e he
    exact (List.mem_append.1 he).elim (h.placed e) (h'.placed e)
  ordered := by
    rw [lines_append]
    exact List.pairwise_append.2 ⟨h.ordered, h'.ordered, hlater⟩
  within := by
    intro n hn
    rw [lines_append] at hn
    exact (List.mem_append.1 hn).elim (h.within n) (h'.within n)
  before := by
    intro n hn
    rw [lines_append] at hn
    exact (List.mem_append.1 hn).elim (fun hn t ht => h.before n hn t (hc.rest.subset ht))
      (h'.before n)
  accounts := by
    rw [problems_append, rejected_append, List.filter_append, List.map_append, List.map_append,
      h.accounts, h'.accounts]
  region := h'.region

/-! ### Declarations -/

/-- A declaration without a name yields a problem that is about no rejected declaration. -/
theorem grows_nameless (h : Region first last c.rest) (owner : String) {f : Failure}
    (hf : f.reason.isNameless = true) :
    Grows unit parent first last (nameless owner f) c := by
  refine grows_of_problems ?_ h
  have hproblem : (problem owner f).isRejection = false := by
    simp [problem, Problem.isRejection, Reason.isInner, hf]
  rw [List.filter_cons_of_neg (by simp [hproblem])]
  rfl

/-- A rejected declaration yields the problem that is about it, behind what is nested in it. -/
theorem accounts_reject {name : String} {markers : List String} {f : Failure} (hf : f.IsInner)
    (haccounts : (o.problems.filter Problem.isRejection).map Problem.about =
      o.rejected.map Rejected.declaration) :
    ((o.problems ++ [problem name f]).filter Problem.isRejection).map Problem.about =
      (o.rejected ++ [Rejected.mk name parent markers]).map Rejected.declaration := by
  have hproblem : (problem name f).isRejection = true := hf
  rw [List.filter_append, List.filter_cons_of_pos hproblem, List.map_append, List.map_append,
    haccounts]
  rfl

theorem grows_reject (h : Region first last c.rest) {name : String} {markers : List String}
    {f : Failure} (hf : f.IsInner) :
    Grows unit parent first last (reject name parent markers f) c :=
  grows_of_problems (accounts_reject (o := {}) hf rfl) h

/-- A declaration stands before what is nested in it, and what follows it stands behind. -/
theorem grows_declared {d : Declaration} {name : String} {markers : List String} {stop : Nat}
    (hinner : Grows unit (some d.name) d.line stop o c) (hregion : Region first last c'.rest)
    (hfirst : first ≤ d.line) (hopen : d.line ≤ stop) (hlast : stop ≤ last)
    (hbefore : ∀ t ∈ c'.rest, stop ≤ t.line) (hparent : d.parent = parent)
    (hname : d.name = Cursor.qualified parent name) (hplaced : d.unit = unit ∧ d.position = 0) :
    Grows unit parent first last { o with entries := Entry.mk d markers :: o.entries } c' where
  forest := by
    have hforest := Forest.cons hparent hname hinner.forest Forest.nil
    rwa [List.append_nil] at hforest
  placed := by
    intro e he
    rcases List.mem_cons.1 he with rfl | he
    · exact hplaced
    · exact hinner.placed e he
  ordered := List.pairwise_cons.2 ⟨fun n hn => (hinner.within n hn).1, hinner.ordered⟩
  within := by
    intro n hn
    rcases List.mem_cons.1 hn with rfl | hn
    · exact ⟨hfirst, Nat.le_trans hopen hlast⟩
    · obtain ⟨hopen, hstop⟩ := hinner.within n hn
      exact ⟨Nat.le_trans hfirst hopen, Nat.le_trans hstop hlast⟩
  before := by
    intro n hn t ht
    rcases List.mem_cons.1 hn with rfl | hn
    · exact Nat.le_trans hopen (hbefore t ht)
    · exact Nat.le_trans (hinner.within n hn).2 (hbefore t ht)
  accounts := hinner.accounts
  region := hregion

/-- The inside of braces behind a token, and what follows them. -/
theorem region_braces {k close : Token} {ks inside after : List Token}
    (h : Region first last (k :: ks)) (hsuffix : inside ++ close :: after <:+ ks) :
    Region k.line close.line inside ∧ k.line ≤ close.line ∧ close.line ≤ last ∧
      Region first last after ∧ ∀ t ∈ after, close.line ≤ t.line := by
  obtain ⟨hk, -⟩ := List.pairwise_cons.1 h.ordered
  have hregion := h.of_suffix (hsuffix.trans (List.suffix_cons k ks))
  obtain ⟨hinside, hclose, hacross⟩ := List.pairwise_append.1 hregion.ordered
  obtain ⟨hafter, -⟩ := List.pairwise_cons.1 hclose
  have hmem : ∀ t ∈ inside ++ close :: after, k.line ≤ t.line :=
    fun t ht => hk t (hsuffix.subset ht)
  refine ⟨⟨hinside, fun t ht => ⟨hmem t (by simp [ht]), hacross t ht close (by simp)⟩⟩,
    hmem close (by simp), (hregion.within close (by simp)).2, hregion.of_suffix ?_, hafter⟩
  exact (List.suffix_cons close after).trans (List.suffix_append inside _)

theorem isNameless_of_expectName {form : Form} {c : Cursor} {f : Failure}
    (h : c.expectName form.keyword = .error f) : f.reason.isNameless = true := by
  simp only [Cursor.expectName] at h
  split at h
  · cases h
  · cases h
    cases form with
    | value form => cases form <;> rfl
    | _ => rfl

/-- A reader of declarations yields what can be put behind what was read before. -/
def Delivers (unit : String) (parent : Option String) (nested : NestedReader) : Prop :=
  ∀ ⦃first last : Nat⦄ ⦃form : Form⦄ ⦃markers : List String⦄ ⦃c c' : Cursor⦄ ⦃o : Outcome⦄,
    Region first last c.rest → nested form markers c = some (o, c') →
      c.Leads c' ∧ Grows unit parent first last o c' ∧ ∀ n ∈ o.lines, ∃ k ∈ c.rest, k.line ≤ n

theorem Delivers.keeps {nested : NestedReader} (h : Delivers unit parent nested) :
    nested.Keeps (Grows unit parent first last) := by
  intro form markers o o' c c' ho hread
  obtain ⟨hleads, ho', hlines⟩ := h ho.region hread
  refine ho.append ho' ?_ hleads
  intro m hm n hn
  obtain ⟨k, hk, hle⟩ := hlines n hn
  exact Nat.le_trans (ho.before m hm k hk) hle

/-- A declaration with braces: it stands before what is nested inside, which is dropped with it if the
body cannot be read. -/
theorem grows_declared_body {source : List Char} {markerPrefix : String} {room : Nat}
    {nested : NestedReader} {name : String} {markers : List String} {form : Form}
    {conformances : List String} {opener k close : Token} {ks inside after : List Token}
    {inner : Outcome} {r : Except Failure Shape}
    (hnested : Delivers unit (some (Cursor.qualified parent name)) nested)
    (h : Region first last (k :: ks)) (hsuffix : inside ++ close :: after <:+ ks)
    (hbody : Cursor.body source markerPrefix room nested form conformances ⟨some opener, inside⟩ =
      some (inner, r)) :
    let entry := fun (shape : Shape) =>
      Entry.mk { name := Cursor.qualified parent name, parent, unit, line := k.line, shape } markers
    let o := Cursor.declared entry (reject (Cursor.qualified parent name) parent markers) inner r
    Grows unit parent first last o ⟨some close, after⟩ ∧ ∀ n ∈ o.lines, k.line ≤ n := by
  obtain ⟨hinside, hopen, hlast, hafter, hbehind⟩ := region_braces h hsuffix
  obtain ⟨⟨c', hinner⟩, hfails⟩ :=
    isInvariant_grows.exists_of_body hnested.keeps (grows_empty hinside) hbody
  cases r with
  | ok shape =>
      refine ⟨grows_declared hinner hafter (h.within k List.mem_cons_self).1 hopen hlast hbehind rfl
        rfl ⟨rfl, rfl⟩, ?_⟩
      intro n hn
      rcases List.mem_cons.1 hn with rfl | hn
      · exact Nat.le_refl _
      · exact (hinner.within n hn).1
  | error f =>
      refine ⟨grows_of_problems ?_ hafter, ?_⟩
      · exact accounts_reject (hfails.2 f rfl) hinner.accounts
      · intro n hn
        cases hn

/-- **A declaration yields what can be put behind what was read before.** -/
theorem delivers_declaration (unit : String) (source : List Char) (markerPrefix : String)
    (room : Nat) (parent : Option String) :
    Delivers unit parent (Cursor.declaration unit source markerPrefix room parent) := by
  induction room using Nat.strongRecOn generalizing parent with
  | _ room ih =>
      intro first last form markers c c' o h hread
      cases Cursor.declaration_cases hread with
      | nameless hname =>
          have hleads := (Cursor.leads_advance c).trans (Cursor.leads_skipStatement _)
          exact ⟨hleads, grows_nameless (h.of_suffix hleads.rest) _ (isNameless_of_expectName hname),
            by simp [lines, nameless]⟩
      | rejected hf hleads =>
          exact ⟨hleads, grows_reject (h.of_suffix hleads.rest) hf, by simp [lines, reject]⟩
      | braced name inner outcome r hroom hsuffix hbody =>
          obtain ⟨prev, rest⟩ := c
          cases rest with
          | nil => simp [Cursor.advance] at hsuffix
          | cons k ks =>
              obtain ⟨hgrows, hlines⟩ :=
                grows_declared_body (ih inner (hroom ▸ Nat.lt_succ_self inner) _) h hsuffix hbody
              have hafter := (List.suffix_cons _ _).trans
                ((List.suffix_append _ _).trans (hsuffix.trans (List.suffix_cons k ks)))
              exact ⟨⟨fun _ => rfl, hafter⟩, hgrows,
                fun n hn => ⟨k, List.mem_cons_self, hlines n hn⟩⟩

end Outcome

/-! ### Units -/

/-- The form of the outcome of a unit. -/
structure Outcome.IsWellFormed (unit : String) (o : Outcome) : Prop where
  /-- Every declaration inside another one stands behind that one, and is named after it. -/
  preordered : IsPreordered (o.entries.map Entry.declaration)
  /-- The declarations stand on lines that never go back. -/
  ordered : o.lines.Pairwise (· ≤ ·)
  /-- They are of the unit, and have a line, but no position yet. -/
  placed : ∀ e ∈ o.entries, e.declaration.unit = unit ∧ e.declaration.position = 0 ∧
    1 ≤ e.declaration.line
  /-- The problems are about the rejected declarations, one for one, except those of declarations
  without a name and of a text that cannot be divided into tokens. -/
  accounts : (o.problems.filter Problem.isRejection).map Problem.about =
    o.rejected.map Rejected.declaration
  /-- Every problem is that of a declaration or of the unit, and has a line. -/
  problems : ∀ p ∈ o.problems, ∃ declaration member reason line,
    p = .malformed declaration member reason line ∧ 1 ≤ line

namespace Lexer

/-- Tokens stand on lines that never go back. -/
theorem lines_tokens {offset line : Nat} {cs : List Char} {ts : List Token}
    (h : tokens offset line cs = .ok ts) :
    ts.Pairwise (fun t u => t.line ≤ u.line) ∧ ∀ t ∈ ts, line ≤ t.line := by
  induction hn : cs.length using Nat.strongRecOn generalizing cs offset line ts with
  | _ n ih =>
      cases cs with
      | nil =>
          cases h
          exact ⟨.nil, by simp⟩
      | cons c cs =>
          obtain ⟨m, us, hm, hus, rfl⟩ := exists_munch_of_tokens h
          obtain ⟨hordered, hfrom⟩ := ih _ (hn ▸ length_rest_lt hm) hus rfl
          have hline : ∀ u ∈ us, line ≤ u.line :=
            fun u hu => Nat.le_trans (Nat.le_add_right _ _) (hfrom u hu)
          simp only [Munch.token]
          cases m.kind? with
          | none => exact ⟨hordered, hline⟩
          | some k =>
              refine ⟨.cons hline hordered, ?_⟩
              intro t ht
              rcases List.mem_cons.1 ht with rfl | ht
              · exact Nat.le_refl _
              · exact hline t ht

/-- A text that cannot be divided into tokens is left open on a line of its own. -/
theorem le_line_of_tokens {offset line : Nat} {cs : List Char} {e : LexError}
    (h : tokens offset line cs = .error e) : line ≤ e.line := by
  induction hn : cs.length using Nat.strongRecOn generalizing cs offset line with
  | _ n ih =>
      cases cs with
      | nil => cases h
      | cons c cs =>
          cases hm : munch c cs with
          | error u =>
              rw [tokens_of_munch_error hm] at h
              cases h
              exact Nat.le_refl _
          | ok m =>
              rw [tokens_of_munch hm] at h
              cases hrest : tokens (offset + Text.byteSize m.extent.taken)
                  (line + m.extent.newlines) m.extent.rest with
              | ok ts =>
                  rw [hrest] at h
                  cases h
              | error e' =>
                  rw [hrest] at h
                  cases h
                  exact Nat.le_trans (Nat.le_add_right _ _) (ih _ (hn ▸ length_rest_lt hm) hrest rfl)

end Lexer

/-- The tokens of a text lie in a region that begins with the first line. -/
theorem exists_region_tokenize {text : String} {ts : List Token} (h : tokenize text = .ok ts) :
    ∃ last, Region 1 last ts := by
  obtain ⟨hordered, hfrom⟩ := Lexer.lines_tokens h
  have hbound : ∃ last, ∀ t ∈ ts, t.line ≤ last := by
    clear h hordered hfrom
    induction ts with
    | nil => exact ⟨0, by simp⟩
    | cons t ts ih =>
        obtain ⟨last, hlast⟩ := ih
        refine ⟨max t.line last, fun u hu => ?_⟩
        rcases List.mem_cons.1 hu with rfl | hu
        · exact Nat.le_max_left _ _
        · exact Nat.le_trans (hlast u hu) (Nat.le_max_right _ _)
  obtain ⟨last, hlast⟩ := hbound
  exact ⟨last, hordered, fun t ht => ⟨hfrom t ht, hlast t ht⟩⟩

/-- Whatever is read, a problem is that of a declaration or of the unit. -/
theorem Outcome.isStable_malformed : IsStable fun o => ∀ p ∈ o.problems,
    ∃ declaration member reason line, p = .malformed declaration member reason line where
  empty := by simp
  append := by
    intro a b ha hb p hp
    exact (List.mem_append.1 hp).elim (ha p) (hb p)
  nameless owner f := by simp [nameless, problem]
  reject name parent markers f := by simp [reject, problem]
  entries _ h := h

/-- Every line of an outcome counts from the first: had the text stood one line further up, the
same problems would have been found there. -/
theorem exists_eq_move_of_items {unit markerPrefix : String} {cs : List Char} {ts : List Token}
    {o : Outcome} (hts : Anchored cs ts) (hlines : ∀ t ∈ ts, 1 ≤ t.line)
    (hread : Cursor.items unit cs markerPrefix (Cursor.start ts) = some o) :
    ∃ o', o = Outcome.move 1 o' := by
  let σ : Displacement := ⟨[], [], 1⟩
  let up := fun t : Token => { t with line := t.line - 1 }
  have hup : Anchored cs (ts.map up) := by
    refine ⟨?_, ?_, List.pairwise_map.2 hts.ordered⟩
    · simpa [up] using hts.cuts
    · simpa [up] using hts.ends
  have htokens : σ.tokens (ts.map up) = ts := by
    rw [Displacement.tokens, List.map_map]
    refine (List.map_congr_left fun t ht => ?_).trans (List.map_id ts)
    have hline : 1 + (t.line - 1) = t.line := by
      have := hlines t ht
      omega
    simp [Displacement.token, Token.move, σ, up, Text.byteSize, hline]
  obtain ⟨o', -, ho'⟩ := σ.exists_items_start unit markerPrefix hup
  have hsource : σ.source cs = cs := by simp [σ, Displacement.source]
  rw [hsource, htokens, hread] at ho'
  exact ⟨o', Option.some.inj ho'⟩

/-- **Every outcome of a unit is well formed**, and there always is one. -/
theorem Source.isWellFormed_read (markerPrefix : String) (s : Source) :
    s.read? markerPrefix = some (s.read markerPrefix) ∧
      (s.read markerPrefix).IsWellFormed s.name := by
  have hstable := Outcome.isStable_malformed.read markerPrefix s
  cases htokens : tokenize s.text with
  | error e =>
      have hread : s.read? markerPrefix =
          some (Outcome.nameless s.name { reason := .unclosed e, line := e.line }) := by
        simp only [Source.read?, htokens]
      have hline := Lexer.le_line_of_tokens htokens
      rw [Source.read, hread]
      refine ⟨rfl, Forest.nil.isPreordered, .nil, by simp [Outcome.nameless], rfl, ?_⟩
      intro p hp
      obtain rfl := List.mem_singleton.1 hp
      exact ⟨_, _, _, _, rfl, hline⟩
  | ok ts =>
      obtain ⟨last, hregion⟩ := exists_region_tokenize htokens
      have hanchored := anchored_tokenize htokens
      have hread : s.read? markerPrefix = Cursor.items s.name s.text.toList markerPrefix
          (Cursor.start ts) := by
        simp only [Source.read?, htokens]
      obtain ⟨o, ho, -⟩ :=
        (⟨[], [], 0⟩ : Displacement).exists_items_start s.name markerPrefix hanchored
      rw [Source.read, hread, ho, Option.getD_some] at hstable ⊢
      have hstart : Outcome.Grows s.name none 1 last {} (Cursor.start ts) :=
        Outcome.grows_empty hregion
      obtain ⟨c, hgrows⟩ := Outcome.isInvariant_grows.exists_of_itemsFrom
        (Outcome.delivers_declaration _ _ _ _ none).keeps hstart ho
      obtain ⟨o', rfl⟩ := exists_eq_move_of_items hanchored
        (fun t ht => (hregion.within t ht).1) ho
      refine ⟨rfl, hgrows.forest.isPreordered, hgrows.ordered, ?_, hgrows.accounts, ?_⟩
      · intro e he
        obtain ⟨hunit, hposition⟩ := hgrows.placed e he
        exact ⟨hunit, hposition, (hgrows.within _ (List.mem_map_of_mem he)).1⟩
      · intro p hp
        obtain ⟨declaration, member, reason, line, rfl⟩ := hstable p hp
        refine ⟨declaration, member, reason, line, rfl, ?_⟩
        obtain ⟨q, -, hq⟩ := List.mem_map.1 hp
        cases q with
        | malformed d m r l =>
            cases hq
            exact Nat.le_add_right 1 l
        | _ => cases hq

end Scaffold
