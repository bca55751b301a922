/-
**Reading back the spelling of a type.**

The reader of types takes the row of every well-formed type, as long as it may open as many cores
inside each other as the row needs.  It stops where the row ends unless a mark follows that goes on
with a type: a dot or an angle bracket behind a name, a question or exclamation mark.

Main definitions:

* `Scaffold.FollowsType` — the tokens that do not go on with a type;
* `Scaffold.TypeRef.ReadBack` — the two ways in which a type is read back, as a core and as a type.

Main results:

* `Scaffold.TypeRef.opensType_of_spells` — how a well-formed type starts;
* `Scaffold.TypeRef.readBack` — **every well-formed type is read back**.
-/

import Scaffold.Proofs.Reading

set_option relaxedAutoImplicit false
set_option autoImplicit false

namespace Scaffold

/-! ### What follows a type -/

/-- The tokens that do not go on with a name. -/
def FollowsName (k : TokenKind) : Prop := k ≠ .mark '.' ∧ k ≠ .mark '<'

/-- The tokens that do not make a type optional. -/
def FollowsOptional (k : TokenKind) : Prop := k ≠ .mark '?' ∧ k ≠ .mark '!'

/-- The tokens that do not go on with a type. -/
def FollowsType (k : TokenKind) : Prop := FollowsName k ∧ FollowsOptional k

/-- The tokens that may follow the row of a type: only a type that takes no parentheses for it may
be followed by a question mark. -/
def TypeRef.Follows (t : TypeRef) (k : TokenKind) : Prop :=
  FollowsName k ∧ (t.needsParens = true → FollowsOptional k)

theorem TypeRef.follows_of_followsType (t : TypeRef) {k : TokenKind} (h : FollowsType k) :
    t.Follows k := ⟨h.1, fun _ => h.2⟩

theorem followsType_mark {c : Char} (h : c ∈ [')', ']', '>', ':', ',', '{', '}', '=']) :
    FollowsType (.mark c) := by
  have hall : ∀ d ∈ [')', ']', '>', ':', ',', '{', '}', '='],
      d ≠ '.' ∧ d ≠ '<' ∧ d ≠ '?' ∧ d ≠ '!' := by simp
  obtain ⟨h₁, h₂, h₃, h₄⟩ := hall c h
  simp [FollowsType, FollowsName, FollowsOptional, h₁, h₂, h₃, h₄]

theorem followsType_of_followsItem {close : Char} {k : TokenKind} (hc : close ∈ [')', '>'])
    (h : FollowsItem close k) : FollowsType k := by
  rcases h with rfl | rfl
  · exact followsType_mark (by decide)
  · apply followsType_mark
    simp only [List.mem_cons, List.not_mem_nil, or_false] at hc
    rcases hc with rfl | rfl <;> decide

namespace Cursor

/-! ### The parts around a core -/

theorem optionalsFrom_of_ends {prev : Option Token} {rest : List Token} (t : TypeRef)
    (h : EndsWith FollowsOptional rest) : optionalsFrom t prev rest = (t, ⟨prev, rest⟩) := by
  cases rest with
  | nil => rfl
  | cons u us =>
      obtain ⟨h₁, h₂⟩ := endsWith_cons.1 h
      simp [optionalsFrom, Token.isMark_eq_false h₁, Token.isMark_eq_false h₂]

theorem optionalsFrom_question {prev : Option Token} {u : Token} {us : List Token} (t : TypeRef)
    (h : u.kind = .mark '?') :
    optionalsFrom t prev (u :: us) = optionalsFrom (.optional t) (some u) us := by
  simp [optionalsFrom, Token.isMark_of_mark h]

theorem attributesFrom_of_ends {prev : Option Token} {ts : List Token}
    (h : EndsWith (· ≠ .mark '@') ts) : attributesFrom prev ts = .ok ([], ⟨prev, ts⟩) := by
  match ts with
  | [] => rfl
  | [u] => simp [attributesFrom, Token.isMark_eq_false (endsWith_cons.1 h)]
  | u :: v :: us => simp [attributesFrom, Token.isMark_eq_false (endsWith_cons.1 h)]

theorem attributesFrom_of_spells {attributes : List String} {ts : List Token}
    (hts : Spells ts (TypeRef.attributePieces attributes)) :
    ∀ prev rest, EndsWith (· ≠ .mark '@') rest →
      ∃ last, attributesFrom prev (ts ++ rest) = .ok (attributes, ⟨last, rest⟩) := by
  induction attributes generalizing ts with
  | nil =>
      intro prev rest hrest
      obtain rfl := spells_nil.1 hts
      exact ⟨prev, attributesFrom_of_ends hrest⟩
  | cons a attributes ih =>
      intro prev rest hrest
      obtain ⟨u, us, rfl, hu, hts⟩ := spells_mark.1 hts
      obtain ⟨v, vs, rfl, hv, hts⟩ := spells_word.1 hts
      obtain ⟨last, hread⟩ := ih (spells_space.1 hts) (some v) rest hrest
      refine ⟨last, ?_⟩
      simp [attributesFrom, Token.isMark_of_mark hu, Token.word?_of_word hv, hread]

/-- Without attributes, a type is a core and the question marks behind it. -/
theorem typeWith_of_core {core : Cursor → Except Failure (TypeRef × Cursor)}
    {prev last : Option Token} {ts rest : List Token} {t : TypeRef}
    (hts : EndsWith (· ≠ .mark '@') ts) (hcore : core ⟨prev, ts⟩ = .ok (t, ⟨last, rest⟩)) :
    typeWith core ⟨prev, ts⟩ = .ok (optionalsFrom t last rest) := by
  simp only [typeWith, attributesFrom_of_ends hts, bind, Except.bind, hcore, attributed, pure,
    Except.pure]

/-! ### Dotted names -/

theorem pathFrom_of_ends {name : String} {prev : Option Token} {rest : List Token}
    (h : EndsWith (· ≠ .mark '.') rest) : pathFrom name prev rest = (name, ⟨prev, rest⟩) := by
  match rest with
  | [] => rfl
  | [u] => rfl
  | u :: v :: us => simp [pathFrom, Token.isMark_eq_false (endsWith_cons.1 h)]

theorem pathFrom_of_spells {parts : List String} {ts : List Token}
    (hts : Spells ts (parts.flatMap fun part => [.mark '.', .word part])) :
    ∀ name prev rest, EndsWith (· ≠ .mark '.') rest →
      ∃ last, pathFrom name prev (ts ++ rest) = (dotted name parts, ⟨last, rest⟩) := by
  induction parts generalizing ts with
  | nil =>
      intro name prev rest hrest
      obtain rfl := spells_nil.1 hts
      exact ⟨prev, pathFrom_of_ends hrest⟩
  | cons part parts ih =>
      intro name prev rest hrest
      obtain ⟨u, us, rfl, hu, hts⟩ := spells_mark.1 hts
      obtain ⟨v, vs, rfl, hv, hts⟩ := spells_word.1 hts
      obtain ⟨last, hread⟩ := ih hts (name ++ "." ++ part) (some v) rest hrest
      refine ⟨last, ?_⟩
      simp only [List.cons_append, pathFrom, Token.isMark_of_mark hu, Token.word?_of_word hv]
      exact hread

end Cursor

/-! ### How a type starts

A list in parentheses is read with a look at its first tokens: a label ends with a colon as its
second or third token, and `inout` is passed over. -/

/-- What follows an element of a list in parentheses: neither a colon nor a word. -/
def FollowsElement (k : TokenKind) : Prop := k ≠ .mark ':' ∧ ∀ w, k ≠ .word w

/-- No label stands at the front. -/
def NoLabel : List Token → Prop
  | a :: b :: rest =>
    a.word?.isSome = true → b.isMark ':' = false ∧
      (b.word?.isSome = true → EndsWith (· ≠ .mark ':') rest)
  | _ => True

theorem word?_isSome_iff {t : Token} : t.word?.isSome = true ↔ ∃ w, t.kind = .word w := by
  simp only [Token.word?]
  split <;> simp_all

theorem noLabel_of_mark {u : Token} {us : List Token} {c : Char} (h : u.kind = .mark c) :
    NoLabel (u :: us) := by
  cases us with
  | nil => trivial
  | cons v us =>
      intro hw
      rw [Token.word?_of_mark h] at hw
      exact absurd hw (by simp)

theorem noLabel_of_follows {u : Token} {us : List Token} (h : EndsWith FollowsElement us) :
    NoLabel (u :: us) := by
  cases us with
  | nil => trivial
  | cons v us =>
      obtain ⟨hcolon, hword⟩ := endsWith_cons.1 h
      intro _
      refine ⟨Token.isMark_eq_false hcolon, fun hv => ?_⟩
      obtain ⟨w, hw⟩ := word?_isSome_iff.1 hv
      exact absurd hw (hword w)

/-- A word before what starts with no label, and with no colon, is no label. -/
theorem noLabel_cons {u : Token} {us : List Token} (hus : NoLabel us)
    (hcolon : EndsWith (· ≠ .mark ':') us) : NoLabel (u :: us) := by
  match us with
  | [] => trivial
  | [v] =>
      intro _
      exact ⟨Token.isMark_eq_false (endsWith_cons.1 hcolon), fun _ => endsWith_nil _⟩
  | v :: w :: us =>
      intro _
      refine ⟨Token.isMark_eq_false (endsWith_cons.1 hcolon), fun hv => endsWith_cons.2 ?_⟩
      intro hw
      have := (hus hv).1
      rw [Token.isMark_of_mark hw] at this
      exact absurd this (by decide)

theorem Cursor.skipLabel_of_noLabel {prev : Option Token} {ts : List Token} (h : NoLabel ts) :
    (⟨prev, ts⟩ : Cursor).skipLabel = ⟨prev, ts⟩ := by
  match ts with
  | [] => rfl
  | [u] => rfl
  | u :: v :: us =>
      simp only [Cursor.skipLabel]
      split
      · next hu hv =>
          have := (h (by simp [hu])).1
          rw [hv] at this
          exact absurd this (by decide)
      · next hu hv hw =>
          have hcolon := (h (by simp [hu])).2 (by simp [hw])
          rw [Token.isMark_eq_false (endsWith_cons.1 hcolon)]
          rfl
      · rfl

/-- How a type starts: with no label, and none of the tokens that mean something else. -/
structure OpensType (ts : List Token) : Prop where
  /-- The first token is none of those that mean something else. -/
  front : EndsWith (fun k => k ≠ .mark ')' ∧ k ≠ .mark ':' ∧ k ≠ .word "inout") ts
  /-- There is no label. -/
  noLabel : NoLabel ts

theorem opensType_of_mark {u : Token} {us : List Token} {c : Char} (h : u.kind = .mark c)
    (hc : c ∈ ['[', '(', '@']) : OpensType (u :: us) := by
  have hall : ∀ d ∈ ['[', '(', '@'], d ≠ ')' ∧ d ≠ ':' := by simp
  obtain ⟨h₁, h₂⟩ := hall c hc
  refine ⟨endsWith_cons.2 ?_, noLabel_of_mark h⟩
  simp [h, h₁, h₂]

theorem opensType_of_word {u : Token} {us : List Token} {w : String} (h : u.kind = .word w)
    (hw : w ≠ "inout") (hus : NoLabel (u :: us)) : OpensType (u :: us) := by
  refine ⟨endsWith_cons.2 ?_, hus⟩
  simp [h, hw]

/-- A dotted name that a type can have starts with a word, and goes on with dots if at all. -/
theorem spells_namePieces {name : String} {ts : List Token} (hname : isTypeName name = true)
    (hts : Spells ts (namePieces name)) :
    ∃ first parts u us, ts = u :: us ∧ u.kind = .word first ∧ first ∉ reservedHeads ∧
      Spells us (parts.flatMap fun part => [.mark '.', .word part]) ∧ dotted first parts = name := by
  simp only [isTypeName] at hname
  simp only [namePieces] at hts
  cases hp : Text.pieces '.' name with
  | nil => simp [hp] at hname
  | cons first parts =>
      simp only [hp, Bool.and_eq_true, Bool.not_eq_true', List.contains_eq_mem,
        decide_eq_false_iff_not] at hname
      rw [hp] at hts
      obtain ⟨u, us, rfl, hu, hus⟩ := spells_word.1 hts
      exact ⟨first, parts, u, us, rfl, hu, hname.1, hus, dotted_of_pieces hp⟩

/-- What stands behind the first word of a name. -/
theorem follows_of_spells_parts {parts : List String} {us rest : List Token}
    {follows : TokenKind → Prop} (hdot : follows (.mark '.'))
    (hus : Spells us (parts.flatMap fun part => [.mark '.', .word part]))
    (hrest : EndsWith follows rest) : EndsWith follows (us ++ rest) := by
  cases parts with
  | nil =>
      obtain rfl := spells_nil.1 hus
      exact hrest
  | cons part parts =>
      obtain ⟨v, vs, rfl, hv, -⟩ := spells_mark.1 hus
      exact endsWith_cons.2 (hv ▸ hdot)

namespace TypeRef

/-- **How a well-formed type starts**, before what may follow an element. -/
theorem opensType_of_spells {t : TypeRef} (h : t.isWellFormed = true) :
    ∀ ts rest, Spells ts t.pieces → EndsWith FollowsElement rest → OpensType (ts ++ rest) := by
  induction t using TypeRef.induction with
  | primitive name =>
      intro ts rest hts hrest
      have hall : ∀ n ∈ primitiveNames, n ≠ "inout" := by decide
      simp only [isWellFormed, List.contains_iff_mem] at h
      obtain ⟨u, us, rfl, hu, hus⟩ := spells_word.1 hts
      obtain rfl := spells_nil.1 hus
      exact opensType_of_word hu (hall name h) (noLabel_of_follows hrest)
  | named name args ih =>
      intro ts rest hts hrest
      simp only [isWellFormed, Bool.and_eq_true] at h
      -- behind the first part of the name comes a point, a list of arguments, or what follows
      have hreserved : ∀ w, w ∉ reservedHeads → w ≠ "inout" := by
        rintro w hw rfl
        exact hw (by decide)
      have hdot : FollowsElement (.mark '.') := by simp [FollowsElement]
      cases args with
      | nil =>
          obtain ⟨first, parts, u, us, rfl, hu, hfirst, hus, -⟩ :=
            spells_namePieces h.1.1 (by simpa [pieces] using hts)
          exact opensType_of_word hu (hreserved first hfirst)
            (noLabel_of_follows (follows_of_spells_parts hdot hus hrest))
      | cons a as =>
          rw [pieces] at hts
          obtain ⟨ns, vs, rfl, hns, hvs⟩ := spells_append.1 hts
          obtain ⟨v, vs, rfl, hv, -⟩ := spells_mark.1 hvs
          obtain ⟨first, parts, u, us, rfl, hu, hfirst, hus, -⟩ := spells_namePieces h.1.1 hns
          have hangle : EndsWith FollowsElement (v :: (vs ++ rest)) :=
            endsWith_cons.2 (by simp [hv, FollowsElement])
          rw [List.append_assoc]
          exact opensType_of_word hu (hreserved first hfirst)
            (noLabel_of_follows (follows_of_spells_parts hdot hus hangle))
  | sequence element ih =>
      intro ts rest hts _
      rw [pieces] at hts
      obtain ⟨u, us, rfl, hu, -⟩ := spells_mark.1 hts
      exact opensType_of_mark hu (by decide)
  | mapping key value ihk ihv =>
      intro ts rest hts _
      rw [pieces] at hts
      obtain ⟨u, us, rfl, hu, -⟩ := spells_mark.1 hts
      exact opensType_of_mark hu (by decide)
  | optional wrapped ih =>
      intro ts rest hts _
      rw [pieces] at hts
      split at hts
      · obtain ⟨u, us, rfl, hu, -⟩ := spells_mark.1 hts
        exact opensType_of_mark hu (by decide)
      · obtain ⟨us, vs, rfl, hus, hvs⟩ := spells_append.1 hts
        obtain ⟨v, vs, rfl, hv, hvs⟩ := spells_mark.1 hvs
        rw [List.append_assoc]
        refine ih (by simpa [isWellFormed] using h) us _ hus (endsWith_cons.2 ?_)
        simp [hv, FollowsElement]
  | function attributes params effects result ihp ihr =>
      intro ts rest hts _
      rw [pieces] at hts
      cases attributes with
      | nil =>
          obtain ⟨u, us, rfl, hu, -⟩ := spells_mark.1 hts
          exact opensType_of_mark hu (by decide)
      | cons a attributes =>
          obtain ⟨u, us, rfl, hu, -⟩ := spells_mark.1 hts
          exact opensType_of_mark hu (by decide)
  | existential constraint ih =>
      intro ts rest hts hrest
      simp only [isWellFormed, Bool.and_eq_true] at h
      rw [pieces] at hts
      obtain ⟨u, us, rfl, hu, hus⟩ := spells_word.1 hts
      -- the constraint starts behind the word `any`, so that its second token is the third one here
      have hopens := ih h.2 us rest (spells_space.1 hus) hrest
      exact opensType_of_word hu (by decide)
        (noLabel_cons hopens.noLabel (hopens.front.mono fun k hk => hk.2.1))

/-! ### Reading back -/

/-- A type is read back with room for a number of cores: as a core, unless it has attributes or
question marks, and as a type, which goes on with the question marks that follow. -/
structure ReadBack (room : Nat) (t : TypeRef) : Prop where
  /-- It is read as a core. -/
  core : t.followsAny = true → Takes (Cursor.typeCore room) t.pieces t.Follows t
  /-- It is read as a type. -/
  type : ∀ ts prev rest, Spells ts t.pieces → EndsWith t.Follows rest →
    ∃ last, Cursor.type room ⟨prev, ts ++ rest⟩ = .ok (Cursor.optionalsFrom t last rest)

theorem ReadBack.takes {room : Nat} {t : TypeRef} (h : ReadBack room t) :
    Takes (Cursor.type room) t.pieces FollowsType t := by
  intro ts prev rest hts hrest
  obtain ⟨last, hread⟩ := h.type ts prev rest hts
    (hrest.mono fun k hk => t.follows_of_followsType hk)
  refine ⟨last, ?_⟩
  rw [hread, Cursor.optionalsFrom_of_ends t (hrest.mono fun k hk => hk.2)]

/-- Only a function type starts with an attribute, or an optional one. -/
theorem endsWith_of_followsAny {t : TypeRef} (h : t.isWellFormed = true)
    (hany : t.followsAny = true) {ts : List Token} (rest : List Token)
    (hts : Spells ts t.pieces) : EndsWith (· ≠ .mark '@') (ts ++ rest) := by
  cases t with
  | primitive name =>
      rw [pieces] at hts
      obtain ⟨u, us, rfl, hu, -⟩ := spells_word.1 hts
      exact endsWith_cons.2 (by simp [hu])
  | named name args =>
      simp only [isWellFormed, Bool.and_eq_true] at h
      have hfirst : ∃ qs, pieces (.named name args) = namePieces name ++ qs := by
        cases args with
        | nil => exact ⟨[], by simp [pieces]⟩
        | cons a as => exact ⟨_, rfl⟩
      obtain ⟨qs, hqs⟩ := hfirst
      rw [hqs] at hts
      obtain ⟨ns, vs, rfl, hns, -⟩ := spells_append.1 hts
      obtain ⟨first, parts, u, us, rfl, hu, -⟩ := spells_namePieces h.1.1 hns
      exact endsWith_cons.2 (by simp [hu])
  | sequence element =>
      rw [pieces] at hts
      obtain ⟨u, us, rfl, hu, -⟩ := spells_mark.1 hts
      exact endsWith_cons.2 (by simp [hu])
  | mapping key value =>
      rw [pieces] at hts
      obtain ⟨u, us, rfl, hu, -⟩ := spells_mark.1 hts
      exact endsWith_cons.2 (by simp [hu])
  | optional wrapped => exact absurd hany (by simp [followsAny])
  | function attributes params effects result =>
      simp only [followsAny, List.isEmpty_iff] at hany
      subst hany
      rw [pieces] at hts
      obtain ⟨u, us, rfl, hu, -⟩ := spells_mark.1 hts
      exact endsWith_cons.2 (by simp [hu])
  | existential constraint =>
      rw [pieces] at hts
      obtain ⟨u, us, rfl, hu, -⟩ := spells_word.1 hts
      exact endsWith_cons.2 (by simp [hu])

/-- A type that is read as a core and does not start with an attribute is read back. -/
theorem readBack_of_core {room : Nat} {t : TypeRef} (h : t.isWellFormed = true)
    (hany : t.followsAny = true) (hcore : Takes (Cursor.typeCore room) t.pieces t.Follows t) :
    ReadBack room t := by
  refine ⟨fun _ => hcore, ?_⟩
  intro ts prev rest hts hrest
  obtain ⟨last, hread⟩ := hcore ts prev rest hts hrest
  exact ⟨last, Cursor.typeWith_of_core (endsWith_of_followsAny h hany rest hts) hread⟩

/-- The elements of a list in parentheses are read as types: none has a label. -/
theorem elementWith_of_spells {read : Cursor → Except Failure (TypeRef × Cursor)} {t : TypeRef}
    (h : t.isWellFormed = true) {ts rest : List Token} (prev : Option Token)
    (hts : Spells ts t.pieces) (hrest : EndsWith (FollowsItem ')') rest) :
    Cursor.elementWith read ⟨prev, ts ++ rest⟩ = read ⟨prev, ts ++ rest⟩ := by
  have hopens := opensType_of_spells h ts rest hts
    (hrest.mono fun k hk => by rcases hk with rfl | rfl <;> simp [FollowsElement])
  have hinout : (⟨prev, ts ++ rest⟩ : Cursor).keyword? "inout" = none :=
    Cursor.keyword?_eq_none (hopens.front.mono fun k hk => hk.2.2)
  simp only [Cursor.elementWith, Cursor.skipLabel_of_noLabel hopens.noLabel, hinout,
    Option.getD_none]

theorem ReadBack.takes_element {room : Nat} {t : TypeRef} (h : ReadBack room t)
    (hwf : t.isWellFormed = true) :
    Takes (Cursor.elementWith (Cursor.type room)) t.pieces (FollowsItem ')') t := by
  intro ts prev rest hts hrest
  rw [elementWith_of_spells hwf prev hts hrest]
  exact h.takes ts prev rest hts
    (hrest.mono fun k hk => followsType_of_followsItem (by decide) hk)

/-! ### Cores -/

theorem applied_of_not_isSugared {name : String} {args : List TypeRef}
    (h : isSugared name args.length = false) : Cursor.applied name args = .named name args := by
  match args with
  | [] =>
      have hprimitive : primitiveNames.contains name = false := by simpa [isSugared] using h
      simp only [Cursor.applied, ofName, hprimitive, Bool.false_eq_true, if_false]
  | [t] =>
      simp only [isSugared, List.length_singleton, Bool.or_eq_false_iff, beq_eq_false_iff_ne] at h
      simp [Cursor.applied, h.1, h.2]
  | [k, v] =>
      simp only [isSugared, List.length_cons, List.length_nil, beq_eq_false_iff_ne] at h
      simp [Cursor.applied, h]
  | a :: b :: c :: ts => rfl

/-- A word that opens neither an existential nor an opaque type opens a name. -/
theorem typeCore_of_word {room : Nat} {prev : Option Token} {u : Token} {us : List Token}
    {w : String} (hu : u.kind = .word w) (hany : w ≠ "any") (hsome : w ≠ "some") :
    Cursor.typeCore (room + 1) ⟨prev, u :: us⟩ =
      Cursor.namedWith (Cursor.type room) ⟨prev, u :: us⟩ := by
  simp [Cursor.typeCore, Cursor.coreWith, Cursor.found, Cursor.next?, hu, hany, hsome, Cursor.type]

/-- The names of primitive types are taken. -/
theorem takes_primitive {room : Nat} {name : String} (h : name ∈ primitiveNames) :
    Takes (Cursor.typeCore (room + 1)) [.word name] FollowsName (.primitive name) := by
  intro ts prev rest hts hrest
  have hall : ∀ n ∈ primitiveNames, n ≠ "any" ∧ n ≠ "some" := by decide
  obtain ⟨hany, hsome⟩ := hall name h
  obtain ⟨u, us, rfl, hu, hus⟩ := spells_word.1 hts
  obtain rfl := spells_nil.1 hus
  refine ⟨some u, ?_⟩
  rw [List.singleton_append, typeCore_of_word hu hany hsome]
  have hpath : Cursor.pathFrom name (some u) rest = (name, ⟨some u, rest⟩) :=
    Cursor.pathFrom_of_ends (hrest.mono fun k hk => hk.1)
  have hangle : (⟨some u, rest⟩ : Cursor).mark? '<' = none :=
    Cursor.mark?_eq_none (hrest.mono fun k hk => hk.2)
  simp [Cursor.namedWith, Cursor.expectName_of_word hu, hpath, hangle, bind, Except.bind, pure,
    Except.pure, Cursor.applied, ofName, h]

theorem ne_of_not_mem_reservedHeads {w : String} (h : w ∉ reservedHeads) :
    w ≠ "any" ∧ w ≠ "some" := by
  constructor <;> (rintro rfl; exact h (by decide))

/-- Names are taken, with the arguments behind them. -/
theorem takes_named {room : Nat} {name : String} {args : List TypeRef}
    (hname : isTypeName name = true) (hsugar : isSugared name args.length = false)
    (hargs : ∀ t ∈ args, ReadBack room t) :
    Takes (Cursor.typeCore (room + 1)) (pieces (.named name args)) FollowsName
      (.named name args) := by
  intro ts prev rest hts hrest
  cases args with
  | nil =>
      obtain ⟨first, parts, u, us, rfl, hu, hfirst, hus, hdotted⟩ :=
        spells_namePieces hname (by simpa [pieces] using hts)
      obtain ⟨hany, hsome⟩ := ne_of_not_mem_reservedHeads hfirst
      obtain ⟨last, hpath⟩ := Cursor.pathFrom_of_spells hus first (some u) rest
        (hrest.mono fun k hk => hk.1)
      have hangle : (⟨last, rest⟩ : Cursor).mark? '<' = none :=
        Cursor.mark?_eq_none (hrest.mono fun k hk => hk.2)
      refine ⟨last, ?_⟩
      rw [List.cons_append, typeCore_of_word hu hany hsome]
      simp [Cursor.namedWith, Cursor.expectName_of_word hu, hpath, hangle, bind, Except.bind, pure,
        Except.pure, hdotted, applied_of_not_isSugared hsugar]
  | cons a as =>
      rw [pieces, piecesAll_eq_map] at hts
      obtain ⟨ns, vs, rfl, hns, hvs⟩ := spells_append.1 hts
      obtain ⟨v, vs, rfl, hv, hvs⟩ := spells_mark.1 hvs
      obtain ⟨first, parts, u, us, rfl, hu, hfirst, hus, hdotted⟩ := spells_namePieces hname hns
      obtain ⟨hany, hsome⟩ := ne_of_not_mem_reservedHeads hfirst
      have hdot : EndsWith (· ≠ .mark '.') (v :: (vs ++ rest)) := endsWith_cons.2 (by simp [hv])
      obtain ⟨last, hpath⟩ := Cursor.pathFrom_of_spells hus first (some u) (v :: (vs ++ rest)) hdot
      have hitems : ∀ t ∈ a :: as, ∀ index : Nat,
          Takes ((fun _ => Cursor.type room) index) t.pieces (FollowsItem '>') t := by
        intro t ht _
        exact (hargs t ht).takes.mono fun k hk => followsType_of_followsItem (by decide) hk
      have hlength := length_le_of_spells_commaRow hvs
      have hlist : Takes
          (Cursor.separated id (fun _ => Cursor.type room) '>' ((vs ++ rest).length + 1) 0)
          (commaRow ((a :: as).map pieces) ++ [.mark '>']) (fun _ => True) (a :: as) :=
        takes_separated (by decide) (by simp) hitems (by simp at hlength ⊢; omega) 0
      obtain ⟨last', hread⟩ := hlist vs (some v) rest hvs (fun _ _ => trivial)
      refine ⟨last', ?_⟩
      rw [List.append_assoc, List.cons_append, List.cons_append, typeCore_of_word hu hany hsome]
      simp only [Cursor.namedWith, Cursor.expectName_of_word hu, hpath, Cursor.mark?_of_mark hv,
        bind, Except.bind, pure, Except.pure, hread, hdotted, applied_of_not_isSugared hsugar]

theorem typeCore_of_bracket {room : Nat} {prev : Option Token} {u : Token} {us : List Token}
    (hu : u.kind = .mark '[') :
    Cursor.typeCore (room + 1) ⟨prev, u :: us⟩ =
      Cursor.collectionWith (Cursor.type room) ⟨prev, u :: us⟩ := by
  simp [Cursor.typeCore, Cursor.coreWith, Cursor.found, Cursor.next?, hu, Cursor.type]

/-- Collections are taken. -/
theorem takes_sequence {room : Nat} {element : TypeRef} (h : ReadBack room element)
    (follows : TokenKind → Prop) :
    Takes (Cursor.typeCore (room + 1)) (pieces (.sequence element)) follows
      (.sequence element) := by
  intro ts prev rest hts _
  rw [pieces] at hts
  obtain ⟨u, us, rfl, hu, hus⟩ := spells_mark.1 hts
  obtain ⟨es, vs, rfl, hes, hvs⟩ := spells_append.1 hus
  obtain ⟨v, vs, rfl, hv, hvs⟩ := spells_mark.1 hvs
  obtain rfl := spells_nil.1 hvs
  obtain ⟨last, hread⟩ := h.takes es (some u) (v :: rest) hes
    (endsWith_cons.2 (hv ▸ followsType_mark (by decide)))
  have hcolon : (⟨last, v :: rest⟩ : Cursor).mark? ':' = none :=
    Cursor.mark?_eq_none (endsWith_cons.2 (by simp [hv]))
  refine ⟨some v, ?_⟩
  rw [List.cons_append, List.append_assoc, List.singleton_append, typeCore_of_bracket hu]
  simp only [Cursor.collectionWith, Cursor.advance, hread, hcolon, bind, Except.bind,
    Cursor.expectMark_of_mark hv, pure, Except.pure]

theorem takes_mapping {room : Nat} {key value : TypeRef} (hk : ReadBack room key)
    (hv : ReadBack room value) (follows : TokenKind → Prop) :
    Takes (Cursor.typeCore (room + 1)) (pieces (.mapping key value)) follows
      (.mapping key value) := by
  intro ts prev rest hts _
  rw [pieces] at hts
  obtain ⟨u, us, rfl, hu, hus⟩ := spells_mark.1 hts
  obtain ⟨ks, cs, rfl, hks, hcs⟩ := spells_append.1 hus
  obtain ⟨c, cs, rfl, hc, hcs⟩ := spells_mark.1 hcs
  obtain ⟨vs, bs, rfl, hvs, hbs⟩ := spells_append.1 (spells_space.1 hcs)
  obtain ⟨b, bs, rfl, hb, hbs⟩ := spells_mark.1 hbs
  obtain rfl := spells_nil.1 hbs
  obtain ⟨last, hkey⟩ := hk.takes ks (some u) (c :: (vs ++ b :: rest)) hks
    (endsWith_cons.2 (hc ▸ followsType_mark (by decide)))
  obtain ⟨last', hvalue⟩ := hv.takes vs (some c) (b :: rest) hvs
    (endsWith_cons.2 (hb ▸ followsType_mark (by decide)))
  refine ⟨some b, ?_⟩
  simp only [List.cons_append, List.append_assoc, List.nil_append]
  rw [typeCore_of_bracket hu]
  simp only [Cursor.collectionWith, Cursor.advance, hkey, Cursor.mark?_of_mark hc, hvalue, bind,
    Except.bind, Cursor.expectMark_of_mark hb, pure, Except.pure]

/-- A constraint behind the word `any` is taken as a core. -/
theorem takes_existential {room : Nat} {constraint : TypeRef} (h : ReadBack room constraint)
    (hany : constraint.followsAny = true) :
    Takes (Cursor.typeCore (room + 1)) (pieces (.existential constraint)) constraint.Follows
      (.existential constraint) := by
  intro ts prev rest hts hrest
  rw [pieces] at hts
  obtain ⟨u, us, rfl, hu, hus⟩ := spells_word.1 hts
  obtain ⟨last, hread⟩ := h.core hany us (some u) rest (spells_space.1 hus) hrest
  refine ⟨last, ?_⟩
  simp only [List.cons_append, Cursor.typeCore, Cursor.coreWith, Cursor.found, Cursor.next?,
    List.head?_cons, Option.map_some, hu, if_true, Cursor.advance, hread, bind, Except.bind, pure,
    Except.pure]

/-! ### Parentheses -/

/-- Elements do not start with the closing parenthesis. -/
theorem endsWith_elements {params : List TypeRef} (h : ∀ t ∈ params, t.isWellFormed = true)
    (hne : params ≠ []) {ts rest : List Token}
    (hts : Spells ts (commaRow (params.map pieces) ++ [.mark ')'])) :
    EndsWith (· ≠ .mark ')') (ts ++ rest) := by
  cases params with
  | nil => exact absurd rfl hne
  | cons t params =>
      obtain ⟨us, v, vs, rfl, hus, hv⟩ := spells_commaRow_cons hts
      have hopens := opensType_of_spells (h t (by simp)) us (v :: (vs ++ rest)) hus
        (endsWith_cons.2 (by rcases hv with hv | hv <;> simp [hv, FollowsElement]))
      rw [List.append_assoc]
      exact hopens.front.mono fun k hk => hk.1

/-- Elements are taken, with the closing parenthesis. -/
theorem takes_elements {room : Nat} {params : List TypeRef}
    (h : ∀ t ∈ params, ReadBack room t ∧ t.isWellFormed = true) :
    Takes (Cursor.elementsWith (Cursor.type room)) (commaRow (params.map pieces) ++ [.mark ')'])
      (fun _ => True) params := by
  intro ts prev rest hts _
  cases params with
  | nil =>
      obtain ⟨u, us, rfl, hu, hus⟩ := spells_mark.1 hts
      obtain rfl := spells_nil.1 hus
      refine ⟨some u, ?_⟩
      rw [List.singleton_append, Cursor.elementsWith, Cursor.mark?_of_mark hu]
  | cons t params =>
      have hfront : EndsWith (· ≠ .mark ')') (ts ++ rest) :=
        endsWith_elements (fun t' ht' => (h t' ht').2) (by simp) hts
      have hitems : ∀ t' ∈ t :: params, ∀ index : Nat,
          Takes ((fun _ => Cursor.elementWith (Cursor.type room)) index) t'.pieces
            (FollowsItem ')') t' := by
        intro t' ht' _
        exact (h t' ht').1.takes_element (h t' ht').2
      have hlength := length_le_of_spells_commaRow hts
      have hlist : Takes (Cursor.separated id (fun _ => Cursor.elementWith (Cursor.type room)) ')'
          ((ts ++ rest).length + 1) 0) (commaRow ((t :: params).map pieces) ++ [.mark ')'])
          (fun _ => True) (t :: params) :=
        takes_separated (by decide) (by simp) hitems (by simp at hlength ⊢; omega) 0
      obtain ⟨last, hread⟩ := hlist ts prev rest hts (fun _ _ => trivial)
      refine ⟨last, ?_⟩
      rw [Cursor.elementsWith, Cursor.mark?_eq_none hfront]
      exact hread

theorem typeCore_of_parens {room : Nat} {prev : Option Token} {u : Token} {us : List Token}
    (hu : u.kind = .mark '(') :
    Cursor.typeCore (room + 1) ⟨prev, u :: us⟩ =
      Cursor.parenthesizedWith (Cursor.type room) ⟨prev, u :: us⟩ := by
  simp [Cursor.typeCore, Cursor.coreWith, Cursor.found, Cursor.next?, hu, Cursor.type]

/-- A type in parentheses is taken as the type itself. -/
theorem takes_parens {room : Nat} {t : TypeRef} (h : ReadBack room t)
    (hwf : t.isWellFormed = true) :
    Takes (Cursor.typeCore (room + 1)) (.mark '(' :: (t.pieces ++ [.mark ')']))
      (· = .mark '?') t := by
  intro ts prev rest hts hrest
  obtain ⟨u, us, rfl, hu, hus⟩ := spells_mark.1 hts
  have helements : Takes (Cursor.elementsWith (Cursor.type room))
      (commaRow ([t].map pieces) ++ [.mark ')']) (fun _ => True) [t] :=
    takes_elements fun t' ht' => by
      obtain rfl := List.mem_singleton.1 ht'
      exact ⟨h, hwf⟩
  obtain ⟨last, hread⟩ := helements us (some u) rest (by simpa [commaRow] using hus)
    (fun _ _ => trivial)
  have hnone : Spells ([] : List Token) (Effects.pieces {}) := rfl
  obtain ⟨last', heffects⟩ := takes_effects {} [] last rest hnone
    (hrest.mono fun k hk => by simp [hk, FollowsEffects])
  have harrow : (⟨last', rest⟩ : Cursor).atArrow = false :=
    Cursor.atArrow_eq_false (hrest.mono fun k hk => by simp [hk])
  refine ⟨last', ?_⟩
  rw [List.cons_append, typeCore_of_parens hu]
  rw [List.nil_append] at heffects
  simp [Cursor.parenthesizedWith, Cursor.advance, hread, heffects, harrow, bind, Except.bind, pure,
    Except.pure]

/-- A function type without attributes is taken. -/
theorem takes_function {room : Nat} {params : List TypeRef} {effects : Effects} {result : TypeRef}
    (hparams : ∀ t ∈ params, ReadBack room t ∧ t.isWellFormed = true)
    (hresult : ReadBack room result) :
    Takes (Cursor.typeCore (room + 1)) (pieces (.function [] params effects result)) FollowsType
      (.function [] params effects result) := by
  intro ts prev rest hts hrest
  rw [pieces, piecesAll_eq_map] at hts
  obtain ⟨u, us, rfl, hu, hus⟩ := spells_mark.1 hts
  have hrow : Spells us ((commaRow (params.map pieces) ++ [.mark ')']) ++
      (effects.pieces ++ .space :: .arrow :: .space :: result.pieces)) := by simpa using hus
  obtain ⟨ps, qs, rfl, hps, hqs⟩ := spells_append.1 hrow
  obtain ⟨es, as, rfl, hes, has⟩ := spells_append.1 hqs
  obtain ⟨v, vs, rfl, hv, hvs⟩ := spells_arrow.1 (spells_space.1 has)
  obtain ⟨last, hread⟩ := takes_elements hparams ps (some u) (es ++ v :: (vs ++ rest)) hps
    (fun _ _ => trivial)
  obtain ⟨last', heffects⟩ := takes_effects effects es last (v :: (vs ++ rest)) hes
    (endsWith_cons.2 (by simp [hv, FollowsEffects]))
  obtain ⟨last'', htype⟩ := hresult.takes vs (some v) rest (spells_space.1 hvs) hrest
  refine ⟨last'', ?_⟩
  simp only [List.cons_append, List.append_assoc]
  rw [typeCore_of_parens hu]
  simp only [Cursor.parenthesizedWith, Cursor.advance, hread, heffects, htype, bind, Except.bind,
    Cursor.atArrow_of_arrow hv, if_true, pure, Except.pure]

/-! ### Every well-formed type -/

theorem followsOptional_of_needsParens {t : TypeRef} (h : t.needsParens = true) {k : TokenKind}
    (hk : t.Follows k) : FollowsType k := ⟨hk.1, hk.2 h⟩

/-- A function type is its attributes, and behind them the type without attributes. -/
theorem spells_function {attributes : List String} {params : List TypeRef} {effects : Effects}
    {result : TypeRef} {ts : List Token}
    (hts : Spells ts (pieces (.function attributes params effects result))) :
    ∃ as fs, ts = as ++ fs ∧ Spells as (attributePieces attributes) ∧
      Spells fs (pieces (.function [] params effects result)) ∧
      ∀ rest, EndsWith (· ≠ .mark '@') (fs ++ rest) := by
  have hrow : pieces (.function attributes params effects result) =
      attributePieces attributes ++ pieces (.function [] params effects result) := by
    simp [pieces, attributePieces]
  rw [hrow] at hts
  obtain ⟨as, fs, rfl, has, hfs⟩ := spells_append.1 hts
  refine ⟨as, fs, rfl, has, hfs, fun rest => ?_⟩
  rw [pieces] at hfs
  obtain ⟨u, us, rfl, hu, -⟩ := spells_mark.1 hfs
  exact endsWith_cons.2 (by simp [hu])

/-- A function type is read back, with its attributes. -/
theorem readBack_function {room : Nat} {attributes : List String} {params : List TypeRef}
    {effects : Effects} {result : TypeRef}
    (hcore : Takes (Cursor.typeCore room) (pieces (.function [] params effects result)) FollowsType
      (.function [] params effects result)) :
    ReadBack room (.function attributes params effects result) := by
  have hfollows : ∀ k, Follows (.function attributes params effects result) k → FollowsType k :=
    fun k hk => followsOptional_of_needsParens rfl hk
  constructor
  · intro hany
    simp only [followsAny, List.isEmpty_iff] at hany
    subst hany
    exact hcore.mono hfollows
  · intro ts prev rest hts hrest
    obtain ⟨as, fs, rfl, has, hfs, hfront⟩ := spells_function hts
    obtain ⟨last, hattributes⟩ :=
      Cursor.attributesFrom_of_spells has prev (fs ++ rest) (hfront rest)
    obtain ⟨last', hread⟩ := hcore fs last rest hfs (hrest.mono hfollows)
    refine ⟨last', ?_⟩
    have hkept : Cursor.attributed attributes (⟨prev, as ++ (fs ++ rest)⟩ : Cursor).line
        (.function [] params effects result) = .ok (.function attributes params effects result) := by
      cases attributes <;> rfl
    simp only [Cursor.type, Cursor.typeWith, List.append_assoc, hattributes, hread, hkept, bind,
      Except.bind, pure, Except.pure]

/-- An optional type is read back if the type inside is: with a question mark behind it, or in
parentheses. -/
theorem readBack_optional {room : Nat} {wrapped : TypeRef}
    (hplain : wrapped.needsParens = false → ReadBack room wrapped)
    (hparens : wrapped.needsParens = true →
      Takes (Cursor.typeCore room) (.mark '(' :: (wrapped.pieces ++ [.mark ')'])) (· = .mark '?')
        wrapped) :
    ReadBack room (.optional wrapped) := by
  refine ⟨fun hany => by simp [followsAny] at hany, ?_⟩
  intro ts prev rest hts hrest
  rw [pieces] at hts
  cases hneeds : wrapped.needsParens with
  | false =>
      rw [if_neg (by simp [hneeds])] at hts
      obtain ⟨ws, vs, rfl, hws, hvs⟩ := spells_append.1 hts
      obtain ⟨v, vs, rfl, hv, hvs⟩ := spells_mark.1 hvs
      obtain rfl := spells_nil.1 hvs
      obtain ⟨last, hread⟩ := (hplain hneeds).type ws prev (v :: rest) hws
        (endsWith_cons.2 (by simp [Follows, FollowsName, hv, hneeds]))
      refine ⟨some v, ?_⟩
      rw [List.append_assoc, List.singleton_append, hread, Cursor.optionalsFrom_question _ hv]
  | true =>
      rw [if_pos hneeds] at hts
      -- the parentheses are read as a core, so the question mark is behind all of it
      have hrow : Spells ts ((.mark '(' :: (wrapped.pieces ++ [.mark ')'])) ++ [.mark '?']) := by
        simpa using hts
      obtain ⟨ws, vs, rfl, hws, hvs⟩ := spells_append.1 hrow
      obtain ⟨v, vs, rfl, hv, hvs⟩ := spells_mark.1 hvs
      obtain rfl := spells_nil.1 hvs
      obtain ⟨last, hread⟩ := hparens hneeds ws prev (v :: rest) hws (endsWith_cons.2 hv)
      have hfront : EndsWith (· ≠ .mark '@') (ws ++ v :: rest) := by
        obtain ⟨u, us, rfl, hu, -⟩ := spells_mark.1 hws
        exact endsWith_cons.2 (by simp [hu])
      refine ⟨some v, ?_⟩
      rw [List.append_assoc, List.singleton_append, Cursor.type,
        Cursor.typeWith_of_core hfront hread, Cursor.optionalsFrom_question _ hv]

/-- **Every well-formed type is read back** with room for the cores that it needs. -/
theorem readBack {t : TypeRef} (h : t.isWellFormed = true) :
    ∀ room, t.nesting ≤ room → ReadBack room t := by
  induction t using TypeRef.induction with
  | primitive name =>
      intro room hroom
      obtain ⟨k, rfl⟩ : ∃ k, room = k + 1 := ⟨room - 1, by simp [nesting] at hroom; omega⟩
      refine readBack_of_core h rfl ?_
      simp only [isWellFormed, List.contains_iff_mem] at h
      exact (takes_primitive h).mono fun k hk => hk.1
  | named name args ih =>
      intro room hroom
      obtain ⟨k, rfl⟩ : ∃ k, room = k + 1 := ⟨room - 1, by simp [nesting] at hroom; omega⟩
      refine readBack_of_core h rfl ?_
      simp only [isWellFormed, Bool.and_eq_true, Bool.not_eq_true', areWellFormed_iff] at h
      obtain ⟨⟨hname, hsugar⟩, hargs⟩ := h
      have hnesting : ∀ t ∈ args, t.nesting ≤ k :=
        nestingAll_le_iff.1 (by simp [nesting] at hroom; exact hroom)
      have hread : ∀ t ∈ args, ReadBack k t := fun t ht => ih t ht (hargs t ht) k (hnesting t ht)
      exact (takes_named hname hsugar hread).mono fun k hk => hk.1
  | sequence element ih =>
      intro room hroom
      obtain ⟨k, rfl⟩ : ∃ k, room = k + 1 := ⟨room - 1, by simp [nesting] at hroom; omega⟩
      have helement := ih (by simpa [isWellFormed] using h) k (by simpa [nesting] using hroom)
      exact readBack_of_core h rfl (takes_sequence helement _)
  | mapping key value ihk ihv =>
      intro room hroom
      obtain ⟨k, rfl⟩ : ∃ k, room = k + 1 := ⟨room - 1, by simp [nesting] at hroom; omega⟩
      refine readBack_of_core h rfl ?_
      simp only [isWellFormed, Bool.and_eq_true] at h
      simp only [nesting, Nat.add_le_add_iff_right, Nat.max_le] at hroom
      exact takes_mapping (ihk h.1 k hroom.1) (ihv h.2 k hroom.2) _
  | optional wrapped ih =>
      intro room hroom
      have hwf : wrapped.isWellFormed = true := by simpa [isWellFormed] using h
      simp only [nesting] at hroom
      -- a question mark opens no core, but parentheses do
      refine readBack_optional (fun hneeds => ?_) (fun hneeds => ?_)
      · exact ih hwf room (by simpa [hneeds] using hroom)
      · rw [if_pos hneeds] at hroom
        obtain ⟨k, rfl⟩ : ∃ k, room = k + 1 := ⟨room - 1, by omega⟩
        exact takes_parens (ih hwf k (by omega)) hwf
  | function attributes params effects result ihp ihr =>
      intro room hroom
      obtain ⟨k, rfl⟩ : ∃ k, room = k + 1 := ⟨room - 1, by simp [nesting] at hroom; omega⟩
      simp only [isWellFormed, Bool.and_eq_true, areWellFormed_iff] at h
      obtain ⟨⟨-, hparams⟩, hresult⟩ := h
      simp only [nesting, Nat.add_le_add_iff_right, Nat.max_le, nestingAll_le_iff] at hroom
      have hread : ∀ t ∈ params, ReadBack k t ∧ t.isWellFormed = true := fun t ht =>
        ⟨ihp t ht (hparams t ht) k (hroom.1 t ht), hparams t ht⟩
      exact readBack_function (takes_function hread (ihr hresult k hroom.2))
  | existential constraint ih =>
      intro room hroom
      obtain ⟨k, rfl⟩ : ∃ k, room = k + 1 := ⟨room - 1, by simp [nesting] at hroom; omega⟩
      refine readBack_of_core h rfl ?_
      simp only [isWellFormed, Bool.and_eq_true] at h
      have hconstraint := ih h.2 k (by simpa [nesting] using hroom)
      have hfollows : ∀ j, Follows (.existential constraint) j → constraint.Follows j :=
        fun j hj => constraint.follows_of_followsType (followsOptional_of_needsParens rfl hj)
      exact (takes_existential hconstraint h.1).mono hfollows

end TypeRef

end Scaffold
