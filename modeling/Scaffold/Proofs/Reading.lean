/-
**Readers that take a row.**

Readers look at what tokens are and hardly ever at where they stand.  A reader takes a row if, on
all tokens that spell the row and whatever may follow them, it yields one value and stops behind
the row.

Main definitions:

* `Scaffold.Spells` — tokens that spell a row, wherever they stand;
* `Scaffold.Takes` — a reader takes a row, before what may follow;
* `Scaffold.EndsWith` — what follows starts with a token that passes a test, or is empty.

Main results:

* `Scaffold.takes_separated` — a list in brackets is taken item by item;
* `Scaffold.takes_effects` — effects are taken.
-/

import Scaffold.Proofs.TypeSpelling
import Scaffold.Source.Types

set_option relaxedAutoImplicit false
set_option autoImplicit false

namespace Scaffold

/-! ### Results of readers -/

theorem lift_ok {α : Type} (a : α) :
    (liftM (Except.ok a : Except Failure α) : Except Halt α) = .ok a := rfl

theorem inMember_ok {α : Type} (member : String) (a : α) :
    inMember member (.ok a) = .ok a := rfl

/-! ### Tokens of a known kind -/

namespace Token

variable {t : Token}

theorem isMark_of_mark {c : Char} (h : t.kind = .mark c) (d : Char) : t.isMark d = (c == d) := by
  simp [isMark, h]

theorem isMark_eq_false {c : Char} (h : t.kind ≠ .mark c) : t.isMark c = false := by
  simp only [isMark]
  split
  · next d hd => simpa [hd] using h
  · rfl

theorem isWord_of_word {w : String} (h : t.kind = .word w) (v : String) :
    t.isWord v = (w == v) := by
  simp [isWord, h]

theorem isWord_eq_false {w : String} (h : t.kind ≠ .word w) : t.isWord w = false := by
  simp only [isWord]
  split
  · next v hv => simpa [hv] using h
  · rfl

theorem isArrow_of_arrow (h : t.kind = .arrow) : t.isArrow = true := by
  simp [isArrow, h]

theorem isArrow_eq_false (h : t.kind ≠ .arrow) : t.isArrow = false := by
  cases hk : t.kind with
  | arrow => exact absurd hk h
  | _ => simp [isArrow, hk]

theorem word?_of_word {w : String} (h : t.kind = .word w) : t.word? = some w := by
  simp [word?, h]

theorem word?_of_mark {c : Char} (h : t.kind = .mark c) : t.word? = none := by
  simp [word?, h]

end Token

/-! ### Tokens that spell a row -/

/-- Tokens that spell a row, wherever they stand. -/
def Spells (ts : List Token) (ps : List Piece) : Prop :=
  ts.map Token.kind = ps.filterMap Piece.kind?

theorem spells_nil {ts : List Token} : Spells ts [] ↔ ts = [] := by
  simp [Spells]

theorem spells_append {ts : List Token} {ps qs : List Piece} :
    Spells ts (ps ++ qs) ↔ ∃ us vs, ts = us ++ vs ∧ Spells us ps ∧ Spells vs qs := by
  simp only [Spells, List.filterMap_append, List.map_eq_append_iff]

theorem spells_blanks {ts : List Token} {cs : List Char} {ps : List Piece} :
    Spells ts (.blanks cs :: ps) ↔ Spells ts ps := by
  rw [Spells, List.filterMap_cons_none rfl, Spells]

theorem spells_space {ts : List Token} {ps : List Piece} :
    Spells ts (.space :: ps) ↔ Spells ts ps := spells_blanks

/-- The first of the tokens that spell a row whose first piece is a token. -/
theorem spells_cons {ts : List Token} {p : Piece} {k : TokenKind} {ps : List Piece}
    (hp : p.kind? = some k) :
    Spells ts (p :: ps) ↔ ∃ u us, ts = u :: us ∧ u.kind = k ∧ Spells us ps := by
  simp [Spells, hp, List.map_eq_cons_iff]

theorem spells_mark {ts : List Token} {c : Char} {ps : List Piece} :
    Spells ts (.mark c :: ps) ↔ ∃ u us, ts = u :: us ∧ u.kind = .mark c ∧ Spells us ps :=
  spells_cons rfl

theorem spells_word {ts : List Token} {w : String} {ps : List Piece} :
    Spells ts (.word w :: ps) ↔ ∃ u us, ts = u :: us ∧ u.kind = .word w ∧ Spells us ps :=
  spells_cons rfl

theorem spells_arrow {ts : List Token} {ps : List Piece} :
    Spells ts (.arrow :: ps) ↔ ∃ u us, ts = u :: us ∧ u.kind = .arrow ∧ Spells us ps :=
  spells_cons rfl

/-- The tokens that a row is laid out as spell it. -/
theorem spells_lay (offset line : Nat) (ps : List Piece) : Spells (lay offset line ps) ps := by
  induction ps generalizing offset line with
  | nil => rfl
  | cons p ps ih =>
      have hrest := ih (offset + Text.byteSize p.text) (line + p.newlines)
      simp only [Spells] at hrest ⊢
      cases hk : p.kind? <;> simp [lay, hk, hrest]

/-! ### What follows a row -/

/-- What follows is empty, or starts with a token that passes a test. -/
def EndsWith (test : TokenKind → Prop) (rest : List Token) : Prop :=
  ∀ u ∈ rest.head?, test u.kind

theorem endsWith_nil (test : TokenKind → Prop) : EndsWith test [] := by simp [EndsWith]

theorem endsWith_cons {test : TokenKind → Prop} {u : Token} {us : List Token} :
    EndsWith test (u :: us) ↔ test u.kind := by simp [EndsWith]

theorem EndsWith.mono {test test' : TokenKind → Prop} {rest : List Token}
    (h : EndsWith test rest) (himp : ∀ k, test k → test' k) : EndsWith test' rest :=
  fun u hu => himp u.kind (h u hu)

/-- A reader takes a row: before what may follow, it yields a value and stops behind the row. -/
def Takes {ε α : Type} (read : Cursor → Except ε (α × Cursor)) (ps : List Piece)
    (follows : TokenKind → Prop) (x : α) : Prop :=
  ∀ ts prev rest, Spells ts ps → EndsWith follows rest →
    ∃ last, read ⟨prev, ts ++ rest⟩ = .ok (x, ⟨last, rest⟩)

theorem Takes.mono {ε α : Type} {read : Cursor → Except ε (α × Cursor)} {ps : List Piece}
    {follows follows' : TokenKind → Prop} {x : α} (h : Takes read ps follows x)
    (himp : ∀ k, follows' k → follows k) : Takes read ps follows' x :=
  fun ts prev rest hts hrest => h ts prev rest hts (hrest.mono himp)

/-! ### Marks and words at a place -/

namespace Cursor

variable {prev : Option Token} {u : Token} {us : List Token}

theorem mark?_of_mark {c : Char} (h : u.kind = .mark c) :
    (⟨prev, u :: us⟩ : Cursor).mark? c = some ⟨some u, us⟩ := by
  simp [mark?, atMark, next?, advance, Token.isMark_of_mark h]

/-- A mark is not taken where another token is next. -/
theorem mark?_eq_none {rest : List Token} {c : Char}
    (h : EndsWith (· ≠ .mark c) rest) : (⟨prev, rest⟩ : Cursor).mark? c = none := by
  cases rest with
  | nil => simp [mark?, atMark, next?]
  | cons u us => simp [mark?, atMark, next?, Token.isMark_eq_false (endsWith_cons.1 h)]

theorem expectMark_of_mark {c : Char} (h : u.kind = .mark c) :
    (⟨prev, u :: us⟩ : Cursor).expectMark c = .ok ⟨some u, us⟩ := by
  simp [expectMark, mark?_of_mark h]

theorem expectName_of_word {w role : String} (h : u.kind = .word w) :
    (⟨prev, u :: us⟩ : Cursor).expectName role = .ok (w, ⟨some u, us⟩) := by
  simp [expectName, word?, next?, advance, Token.word?_of_word h]

theorem keyword?_of_word {w : String} (h : u.kind = .word w) :
    (⟨prev, u :: us⟩ : Cursor).keyword? w = some ⟨some u, us⟩ := by
  simp [keyword?, atWord, next?, advance, Token.isWord_of_word h]

/-- A keyword is not there where another token is next. -/
theorem atWord_eq_false {rest : List Token} {w : String}
    (h : EndsWith (· ≠ .word w) rest) : (⟨prev, rest⟩ : Cursor).atWord w = false := by
  cases rest with
  | nil => simp [atWord, next?]
  | cons u us => simp [atWord, next?, Token.isWord_eq_false (endsWith_cons.1 h)]

theorem keyword?_eq_none {rest : List Token} {w : String}
    (h : EndsWith (· ≠ .word w) rest) : (⟨prev, rest⟩ : Cursor).keyword? w = none := by
  simp [keyword?, atWord_eq_false h]

/-- The arrow is not there where another token is next. -/
theorem atArrow_eq_false {rest : List Token} (h : EndsWith (· ≠ .arrow) rest) :
    (⟨prev, rest⟩ : Cursor).atArrow = false := by
  cases rest with
  | nil => simp [atArrow, next?]
  | cons u us => simp [atArrow, next?, Token.isArrow_eq_false (endsWith_cons.1 h)]

theorem atArrow_of_arrow (h : u.kind = .arrow) : (⟨prev, u :: us⟩ : Cursor).atArrow = true := by
  simp [atArrow, next?, Token.isArrow_of_arrow h]

end Cursor

/-! ### Lists in brackets -/

/-- A list in brackets has at least as many tokens as items. -/
theorem length_le_of_spells_commaRow {α : Type} {row : α → List Piece} {close : Char}
    {xs : List α} {ts : List Token} (h : Spells ts (commaRow (xs.map row) ++ [.mark close])) :
    xs.length ≤ ts.length := by
  induction xs generalizing ts with
  | nil => simp
  | cons x xs ih =>
      cases xs with
      | nil =>
          obtain ⟨us, vs, rfl, -, hvs⟩ := spells_append.1 h
          obtain ⟨u, vs, rfl, -, -⟩ := spells_mark.1 hvs
          simp
          omega
      | cons y xs =>
          simp only [commaRow, List.map_cons, List.intercalate_cons_cons, List.append_assoc] at h ih
          obtain ⟨us, vs, rfl, -, hvs⟩ := spells_append.1 h
          obtain ⟨u, vs, rfl, -, hvs⟩ := spells_mark.1 hvs
          have := ih (spells_space.1 hvs)
          simp only [List.length_cons, List.length_append] at this ⊢
          omega

/-- What follows an item of a list in brackets. -/
def FollowsItem (close : Char) (k : TokenKind) : Prop := k = .mark ',' ∨ k = .mark close

/-- The first item of a list in brackets is followed by a comma or the closing bracket. -/
theorem spells_commaRow_cons {row : List Piece} {rows : List (List Piece)} {close : Char}
    {ts : List Token} (h : Spells ts (commaRow (row :: rows) ++ [.mark close])) :
    ∃ us v vs, ts = us ++ v :: vs ∧ Spells us row ∧ FollowsItem close v.kind := by
  cases rows with
  | nil =>
      simp only [commaRow, List.intercalate_singleton] at h
      obtain ⟨us, vs, rfl, hus, hvs⟩ := spells_append.1 h
      obtain ⟨v, vs, rfl, hv, -⟩ := spells_mark.1 hvs
      exact ⟨us, v, vs, rfl, hus, Or.inr hv⟩
  | cons row' rows =>
      simp only [commaRow, List.intercalate_cons_cons, List.append_assoc] at h
      obtain ⟨us, vs, rfl, hus, hvs⟩ := spells_append.1 h
      obtain ⟨v, vs, rfl, hv, -⟩ := spells_mark.1 hvs
      exact ⟨us, v, vs, rfl, hus, Or.inl hv⟩

/-- **A list in brackets is taken item by item.** -/
theorem takes_separated {ε α : Type} {lift : Failure → ε}
    {item : Nat → Cursor → Except ε (α × Cursor)} {close : Char} (hclose : close ≠ ',')
    {row : α → List Piece} {xs : List α} (hne : xs ≠ [])
    (hitem : ∀ x ∈ xs, ∀ index, Takes (item index) (row x) (FollowsItem close) x)
    {fuel : Nat} (hfuel : xs.length ≤ fuel) (index : Nat) :
    Takes (Cursor.separated lift item close fuel index)
      (commaRow (xs.map row) ++ [.mark close]) (fun _ => True) xs := by
  induction xs generalizing fuel index with
  | nil => exact absurd rfl hne
  | cons x xs ih =>
      intro ts prev rest hts _
      obtain ⟨fuel, rfl⟩ : ∃ n, fuel = n + 1 := ⟨fuel - 1, by simp at hfuel; omega⟩
      have hx := hitem x (by simp) index
      -- the last item stands before the closing bracket, each other one before a comma
      cases xs with
      | nil =>
          simp only [commaRow, List.map_cons, List.map_nil, List.intercalate_singleton] at hts
          obtain ⟨us, vs, rfl, hus, hvs⟩ := spells_append.1 hts
          obtain ⟨u, vs, rfl, hu, hvs⟩ := spells_mark.1 hvs
          obtain rfl := spells_nil.1 hvs
          have hends : EndsWith (FollowsItem close) (u :: rest) := endsWith_cons.2 (Or.inr hu)
          obtain ⟨last, hread⟩ := hx us prev (u :: rest) hus hends
          have hcomma : (⟨last, u :: rest⟩ : Cursor).mark? ',' = none := by
            apply Cursor.mark?_eq_none
            rw [endsWith_cons, hu]
            simpa using hclose
          refine ⟨some u, ?_⟩
          rw [List.append_assoc, List.singleton_append, Cursor.separated, hread]
          simp only [hcomma, Cursor.expectMark_of_mark hu]
      | cons y xs =>
          simp only [commaRow, List.map_cons, List.intercalate_cons_cons, List.append_assoc] at hts
          obtain ⟨us, vs, rfl, hus, hvs⟩ := spells_append.1 hts
          obtain ⟨u, vs, rfl, hu, hvs⟩ := spells_mark.1 hvs
          have hends : EndsWith (FollowsItem close) (u :: (vs ++ rest)) :=
            endsWith_cons.2 (Or.inl hu)
          obtain ⟨last, hread⟩ := hx us prev (u :: (vs ++ rest)) hus hends
          have hothers := ih (by simp) (fun z hz => hitem z (List.mem_cons_of_mem _ hz))
            (by simp at hfuel ⊢; omega) (index + 1)
          obtain ⟨last', hread'⟩ := hothers vs (some u) rest (spells_space.1 hvs)
            (fun _ _ => trivial)
          refine ⟨last', ?_⟩
          rw [List.append_assoc, List.cons_append, Cursor.separated, hread]
          simp only [Cursor.mark?_of_mark hu, hread']

/-! ### Effects -/

/-- What follows effects: no further effect, and no parentheses. -/
def FollowsEffects (k : TokenKind) : Prop :=
  k ≠ .word "async" ∧ k ≠ .word "throws" ∧ k ≠ .word "rethrows" ∧ k ≠ .mark '('

/-- No parentheses are passed over where there are none. -/
theorem Cursor.skipGluedParens_eq {prev : Option Token} {rest : List Token}
    (h : EndsWith (· ≠ .mark '(') rest) :
    (⟨prev, rest⟩ : Cursor).skipGluedParens = ⟨prev, rest⟩ := by
  cases rest with
  | nil => cases prev <;> rfl
  | cons u us =>
      have hmark := Token.isMark_eq_false (endsWith_cons.1 h)
      cases prev <;> simp [Cursor.skipGluedParens, Cursor.next?, hmark]

/-- No effect is read where there is none. -/
theorem Cursor.effectsFrom_of_ends {prev : Option Token} {rest : List Token} (fuel : Nat)
    (e : Effects) (h : EndsWith FollowsEffects rest) :
    Cursor.effectsFrom fuel e ⟨prev, rest⟩ = .ok (e, ⟨prev, rest⟩) := by
  cases fuel with
  | zero => rfl
  | succ fuel =>
      have hasync : (⟨prev, rest⟩ : Cursor).keyword? "async" = none :=
        Cursor.keyword?_eq_none (h.mono fun k hk => hk.1)
      have hthrows : (⟨prev, rest⟩ : Cursor).keyword? "throws" = none :=
        Cursor.keyword?_eq_none (h.mono fun k hk => hk.2.1)
      have hrethrows : (⟨prev, rest⟩ : Cursor).atWord "rethrows" = false :=
        Cursor.atWord_eq_false (h.mono fun k hk => hk.2.2.1)
      simp [Cursor.effectsFrom, hasync, hthrows, hrethrows]

theorem Cursor.effectsFrom_async {prev : Option Token} {u : Token} {us : List Token} (fuel : Nat)
    (e : Effects) (h : u.kind = .word "async") :
    Cursor.effectsFrom (fuel + 1) e ⟨prev, u :: us⟩ =
      Cursor.effectsFrom fuel { e with isAsync := true } ⟨some u, us⟩ := by
  simp [Cursor.effectsFrom, Cursor.keyword?_of_word h]

theorem Cursor.effectsFrom_throws {prev : Option Token} {u : Token} {us : List Token} (fuel : Nat)
    (e : Effects) (h : u.kind = .word "throws") (hus : EndsWith (· ≠ .mark '(') us) :
    Cursor.effectsFrom (fuel + 1) e ⟨prev, u :: us⟩ =
      Cursor.effectsFrom fuel { e with isThrowing := true } ⟨some u, us⟩ := by
  have hasync : (⟨prev, u :: us⟩ : Cursor).keyword? "async" = none :=
    Cursor.keyword?_eq_none (endsWith_cons.2 (by simp [h]))
  simp [Cursor.effectsFrom, hasync, Cursor.keyword?_of_word h, Cursor.skipGluedParens_eq hus]

/-- **Effects are taken.** -/
theorem takes_effects (e : Effects) : Takes Cursor.effects e.pieces FollowsEffects e := by
  intro ts prev rest hts hrest
  have hparens : EndsWith (· ≠ .mark '(') rest := hrest.mono fun k hk => hk.2.2.2
  obtain ⟨isAsync, isThrowing⟩ := e
  cases isAsync <;> cases isThrowing
  · obtain rfl := spells_nil.1 hts
    exact ⟨prev, Cursor.effectsFrom_of_ends _ _ hrest⟩
  · obtain ⟨u, us, rfl, hu, hts⟩ := spells_word.1 (spells_space.1 hts)
    obtain rfl := spells_nil.1 hts
    refine ⟨some u, ?_⟩
    simp only [Cursor.effects, List.cons_append, List.nil_append]
    rw [Cursor.effectsFrom_throws _ _ hu hparens, Cursor.effectsFrom_of_ends _ _ hrest]
  · obtain ⟨u, us, rfl, hu, hts⟩ := spells_word.1 (spells_space.1 hts)
    obtain rfl := spells_nil.1 hts
    refine ⟨some u, ?_⟩
    simp only [Cursor.effects, List.cons_append, List.nil_append]
    rw [Cursor.effectsFrom_async _ _ hu, Cursor.effectsFrom_of_ends _ _ hrest]
  · obtain ⟨u, us, rfl, hu, hts⟩ := spells_word.1 (spells_space.1 hts)
    obtain ⟨v, vs, rfl, hv, hts⟩ := spells_word.1 (spells_space.1 hts)
    obtain rfl := spells_nil.1 hts
    refine ⟨some v, ?_⟩
    simp only [Cursor.effects, List.cons_append, List.nil_append, List.length_cons]
    rw [Cursor.effectsFrom_async _ _ hu, Cursor.effectsFrom_throws _ _ hv hparens,
      Cursor.effectsFrom_of_ends _ _ hrest]

end Scaffold
