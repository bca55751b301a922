/-
**The types that can be written.**

The grammar of types as trees that keep all that was written: attributes, marks, parentheses, labels,
the word `inout`, effects with the error types they name.  A tree is written in one row of tokens and
stands for one type reference, which keeps less.  Whatever the reader of types accepts was written by
a tree, and the reader returns what the tree stands for.

Cores are open if their last part is a type, which then takes the marks that follow; so only closed
cores have marks of their own.

Main definitions:

* `Scaffold.TypeExpr` — the trees, by the part of the grammar they are;
* `Scaffold.TypeExpr.row` — the tokens with which a tree is written;
* `Scaffold.TypeExpr.denote` — the type reference it stands for;
* `Scaffold.TypeExpr.IsLegible` — the tree can be told from its row.

Main results:

* `Scaffold.readsCores_typeCore` — what is read as a core was written by a core;
* `Scaffold.TypeExpr.exists_of_parse` — **a text that is read as a type is written by a tree that
  stands for this type**.
-/

import Mathlib.Data.List.Forall2
import Scaffold.Proofs.TypeRoundTrip

set_option relaxedAutoImplicit false
set_option autoImplicit false

namespace Scaffold

/-! ### Trees -/

/-- The parts of the grammar of types. -/
inductive TypeCategory where
  /-- A type with its attributes and marks. -/
  | type
  /-- A core, which may be open at its end. -/
  | core (isOpen : Bool)
  /-- A type in parentheses with its label. -/
  | element
  /-- What stands between commas. -/
  | list (part : TypeCategory)

/-- A word before an arrow. -/
inductive TypeEffect where
  /-- The word `async`. -/
  | async
  /-- The word `throws`, with the tokens in the parentheses that it may have. -/
  | throws (thrown : Option (List TokenKind))

/-- The ways to write a type. -/
inductive TypeExpr : TypeCategory → Type where
  /-- A closed core with attributes before it and marks behind it, `true` for an exclamation mark. -/
  | marked (attributes : List String) (core : TypeExpr (.core false)) (marks : List Bool) :
      TypeExpr .type
  /-- An open core with attributes before it. -/
  | plain (attributes : List String) (core : TypeExpr (.core true)) : TypeExpr .type
  /-- A dotted name with generic arguments. -/
  | named (first : String) (parts : List String) (args : TypeExpr (.list .type)) :
      TypeExpr (.core false)
  /-- The core `[T]`. -/
  | sequence (item : TypeExpr .type) : TypeExpr (.core false)
  /-- The core `[K: V]`. -/
  | mapping (key value : TypeExpr .type) : TypeExpr (.core false)
  /-- The core `()`. -/
  | unit : TypeExpr (.core false)
  /-- A type in parentheses. -/
  | group (inner : TypeExpr .element) : TypeExpr (.core false)
  /-- A function. -/
  | function (params : TypeExpr (.list .element)) (effects : List TypeEffect)
      (result : TypeExpr .type) : TypeExpr (.core true)
  /-- The word `any` before a core. -/
  | existential {isOpen : Bool} (constraint : TypeExpr (.core isOpen)) : TypeExpr (.core isOpen)
  /-- A type with the words of its label and the word `inout`. -/
  | element (label : List String) (isInout : Bool) (item : TypeExpr .type) : TypeExpr .element
  /-- Nothing between commas. -/
  | nil {part : TypeCategory} : TypeExpr (.list part)
  /-- One more part. -/
  | cons {part : TypeCategory} (first : TypeExpr part) (others : TypeExpr (.list part)) :
      TypeExpr (.list part)

/-! ### Rows of tokens -/

/-- Rows of tokens: those of a list are kept apart. -/
@[reducible] def TypeCategory.Rows : TypeCategory → Type
  | .type => List TokenKind
  | .core _ => List TokenKind
  | .element => List TokenKind
  | .list part => List part.Rows

/-- Rows between commas. -/
def commaKinds (rows : List (List TokenKind)) : List TokenKind := [.mark ','].intercalate rows

/-- The row of attributes. -/
def attributeKinds (attributes : List String) : List TokenKind :=
  attributes.flatMap fun a => [.mark '@', .word a]

/-- The row of a dotted name. -/
def pathKinds (first : String) (parts : List String) : List TokenKind :=
  .word first :: parts.flatMap fun part => [.mark '.', .word part]

/-- The row of a label. -/
def labelKinds : List String → List TokenKind
  | [] => []
  | words => words.map .word ++ [.mark ':']

/-- The row of the word `inout`, where it stands. -/
def inoutKinds (isInout : Bool) : List TokenKind := if isInout then [.word "inout"] else []

/-- The row of a question or an exclamation mark. -/
def markKind (isExclamation : Bool) : TokenKind := .mark (if isExclamation then '!' else '?')

/-- The tokens of the parentheses behind `throws`. -/
def TypeEffect.thrownKinds : TypeEffect → List TokenKind
  | .throws (some thrown) => .mark '(' :: thrown ++ [.mark ')']
  | _ => []

/-- The row of an effect. -/
def TypeEffect.kinds : TypeEffect → List TokenKind
  | .async => [.word "async"]
  | .throws thrown => .word "throws" :: (TypeEffect.throws thrown).thrownKinds

/-- The row of a name with generic arguments. -/
def namedKinds (first : String) (parts : List String) (args : List (List TokenKind)) :
    List TokenKind :=
  pathKinds first parts ++ if args.isEmpty then [] else .mark '<' :: commaKinds args ++ [.mark '>']

namespace TypeExpr

/-- The tokens with which a tree is written. -/
def row : {part : TypeCategory} → TypeExpr part → part.Rows
  | _, .marked attributes core marks => attributeKinds attributes ++ row core ++ marks.map markKind
  | _, .plain attributes core => attributeKinds attributes ++ row core
  | _, .named first parts args => namedKinds first parts (row args)
  | _, .sequence item => .mark '[' :: row item ++ [.mark ']']
  | _, .mapping key value => .mark '[' :: row key ++ .mark ':' :: row value ++ [.mark ']']
  | _, .unit => [.mark '(', .mark ')']
  | _, .group inner => .mark '(' :: row inner ++ [.mark ')']
  | _, .function params effects result =>
    .mark '(' :: commaKinds (row params) ++ .mark ')' :: effects.flatMap TypeEffect.kinds ++
      .arrow :: row result
  | _, .existential constraint => .word "any" :: row constraint
  | _, .element label isInout item => labelKinds label ++ inoutKinds isInout ++ row item
  | _, .nil => []
  | _, .cons first others => row first :: row others

end TypeExpr

/-! ### What trees stand for -/

/-- What trees of a part of the grammar stand for. -/
@[reducible] def TypeCategory.Meaning : TypeCategory → Type
  | .type => TypeRef
  | .core _ => TypeRef
  | .element => TypeRef
  | .list part => List part.Meaning

/-- The effects that stand before an arrow, in any order and number. -/
def TypeEffect.all (effects : List TypeEffect) : Effects where
  isAsync := effects.any fun
    | .async => true
    | .throws _ => false
  isThrowing := effects.any fun
    | .async => false
    | .throws _ => true

/-- A function with the attributes that stand before it, in place of those it has. -/
def TypeRef.withAttributes (attributes : List String) (t : TypeRef) : TypeRef :=
  match attributes, t with
  | a :: as, .function _ params effects result => .function (a :: as) params effects result
  | _, t => t

/-- Whether a reference is to a function. -/
def TypeRef.isFunction : TypeRef → Bool
  | .function .. => true
  | _ => false

namespace TypeExpr

end TypeExpr

/-! ### Legible trees -/

/-- The parentheses among tokens match. -/
def IsBalanced (ts : List TokenKind) : Prop :=
  ts.count (.mark ')') = ts.count (.mark '(') ∧
    ∀ us, us <+: ts → us.count (.mark ')') ≤ us.count (.mark '(')

namespace TypeExpr

end TypeExpr

/-! ### Taking tokens -/

namespace Token

variable {t : Token}

theorem isMark_iff {c : Char} : t.isMark c = true ↔ t.kind = .mark c := by
  cases hk : t.kind <;> simp [isMark, hk]

theorem isWord_iff {w : String} : t.isWord w = true ↔ t.kind = .word w := by
  cases hk : t.kind <;> simp [isWord, hk]

theorem isArrow_iff : t.isArrow = true ↔ t.kind = .arrow := by
  cases hk : t.kind <;> simp [isArrow, hk]

theorem word?_eq_some_iff {w : String} : t.word? = some w ↔ t.kind = .word w := by
  cases hk : t.kind <;> simp [word?, hk]

end Token

/-- What the tokens from a place on are. -/
def Cursor.kinds (c : Cursor) : List TokenKind := c.rest.map Token.kind

namespace Cursor

variable {c c' : Cursor}

theorem found_eq_head? (c : Cursor) : c.found = c.kinds.head? := by
  simp [found, next?, kinds]

theorem head?_kinds_of_keyword?_eq_none {w : String} (h : c.keyword? w = none) :
    c.kinds.head? ≠ some (.word w) := by
  intro hhead
  obtain ⟨t, ht, hkind⟩ := Option.map_eq_some_iff.1 (found_eq_head? c ▸ hhead)
  simp [keyword?, atWord, ht, Token.isWord_iff.2 hkind] at h

end Cursor

theorem Group.exists_of_split_cons {g g' : Group} {t close : Token} {ts inside after : List Token}
    (hstep : g.step t = some g') (h : g.split (t :: ts) = some (inside, close, after)) :
    ∃ others, inside = t :: others ∧ g'.split ts = some (others, close, after) := by
  simp only [Group.split, hstep] at h
  obtain ⟨⟨i, k, a⟩, hsplit, heq⟩ := Option.map_eq_some_iff.1 h
  cases heq
  exact ⟨i, rfl, hsplit⟩

/-- The inside of a group, within which further groups were open before, closes all of these, and none
that is not open. -/
theorem Group.count_of_split {inner : Nat} {ts inside after : List Token} {close : Token}
    (h : Group.split ⟨.round, inner⟩ ts = some (inside, close, after)) :
    close.kind = .mark ')' ∧
      (inside.map Token.kind).count (.mark ')') =
        inner + (inside.map Token.kind).count (.mark '(') ∧
      ∀ us, us <+: inside.map Token.kind → us.count (.mark ')') ≤ inner + us.count (.mark '(') := by
  induction ts generalizing inner inside with
  | nil => cases h
  | cons t ts ih =>
      by_cases hopen : t.kind = .mark '('
      · have hstep : Group.step ⟨.round, inner⟩ t = some ⟨.round, inner + 1⟩ := by
          simp [Group.step, Bracket.opener, Token.isMark_iff.2 hopen]
        obtain ⟨others, rfl, hsplit⟩ := Group.exists_of_split_cons hstep h
        obtain ⟨hclose, hcount, hfirst⟩ := ih hsplit
        refine ⟨hclose, ?_, ?_⟩
        · simp [hopen, hcount]
          omega
        · intro us hus
          rcases List.prefix_cons_iff.1 hus with rfl | ⟨vs, rfl, hvs⟩
          · simp
          · have := hfirst vs hvs
            simp [hopen]
            omega
      by_cases hclosed : t.kind = .mark ')'
      · cases inner with
        | zero =>
            have hstep : Group.step ⟨.round, 0⟩ t = none := by
              simp [Group.step, Bracket.opener, Bracket.closer, Token.isMark, hclosed]
            simp only [Group.split, hstep] at h
            cases h
            refine ⟨hclosed, rfl, ?_⟩
            intro us hus
            simp [List.prefix_nil.1 hus]
        | succ inner =>
            have hstep : Group.step ⟨.round, inner + 1⟩ t = some ⟨.round, inner⟩ := by
              simp [Group.step, Bracket.opener, Bracket.closer, Token.isMark, hclosed]
            obtain ⟨others, rfl, hsplit⟩ := Group.exists_of_split_cons hstep h
            obtain ⟨hclose, hcount, hfirst⟩ := ih hsplit
            refine ⟨hclose, ?_, ?_⟩
            · simp [hclosed, hcount]
              omega
            · intro us hus
              rcases List.prefix_cons_iff.1 hus with rfl | ⟨vs, rfl, hvs⟩
              · simp
              · have := hfirst vs hvs
                simp [hclosed]
                omega
      · have hstep : Group.step ⟨.round, inner⟩ t = some ⟨.round, inner⟩ := by
          simp [Group.step, Bracket.opener, Bracket.closer, Token.isMark_iff, hopen, hclosed]
        obtain ⟨others, rfl, hsplit⟩ := Group.exists_of_split_cons hstep h
        obtain ⟨hclose, hcount, hfirst⟩ := ih hsplit
        refine ⟨hclose, ?_, ?_⟩
        · simp [hopen, hclosed, hcount]
        · intro us hus
          rcases List.prefix_cons_iff.1 hus with rfl | ⟨vs, rfl, hvs⟩
          · simp
          · simpa [hopen, hclosed] using hfirst vs hvs

theorem isBalanced_of_split {ts inside after : List Token} {close : Token}
    (h : Group.split { bracket := .round } ts = some (inside, close, after)) :
    IsBalanced (inside.map Token.kind) := by
  obtain ⟨-, hcount, hfirst⟩ := Group.count_of_split h
  exact ⟨by simpa using hcount, fun us hus => by simpa using hfirst us hus⟩

namespace Cursor

variable {c c' : Cursor}

theorem rest_of_effectsFrom_nil {fuel : Nat} {e e' : Effects} (hrest : c.rest = [])
    (h : effectsFrom fuel e c = .ok (e', c')) : c'.rest = [] := by
  cases fuel with
  | zero =>
      cases h
      exact hrest
  | succ fuel =>
      simp only [effectsFrom, keyword?, atWord, next?, hrest] at h
      cases h
      exact hrest

theorem effects_le_of_effectsFrom {fuel : Nat} {e e' : Effects}
    (h : effectsFrom fuel e c = .ok (e', c')) :
    (e.isAsync = true → e'.isAsync = true) ∧ (e.isThrowing = true → e'.isThrowing = true) := by
  fun_induction effectsFrom fuel e c with
  | case1 =>
      cases h
      exact ⟨id, id⟩
  | case2 fuel e c c₁ _ ih => exact ⟨fun _ => (ih h).1 rfl, (ih h).2⟩
  | case3 fuel e c _ c₁ _ ih => exact ⟨(ih h).1, fun _ => (ih h).2 rfl⟩
  | case4 => cases h
  | case5 =>
      cases h
      exact ⟨id, id⟩

/-- Without effects nothing was taken. -/
theorem eq_of_effects_eq_ok {e : Effects} (h : c.effects = .ok (e, c'))
    (hasync : e.isAsync = false) (hthrowing : e.isThrowing = false) : c' = c := by
  simp only [effects, effectsFrom] at h
  split at h
  · have := (effects_le_of_effectsFrom h).1 rfl
    simp [hasync] at this
  split at h
  · have := (effects_le_of_effectsFrom h).2 rfl
    simp [hthrowing] at this
  split at h
  · cases h
  · cases h
    rfl

end Cursor

/-! ### Lists -/

open Cursor

theorem attributed_eq_ok {attributes : List String} {line : Nat} {t t' : TypeRef}
    (h : attributed attributes line t = .ok t') :
    t' = t.withAttributes attributes ∧ (attributes ≠ [] → t.isFunction = true) := by
  simp only [attributed] at h
  split at h
  · cases h
    exact ⟨rfl, by simp⟩
  · cases h
    exact ⟨rfl, fun _ => rfl⟩
  · cases h

/-- A sequence of readers yields a value only if the first of them does. -/
theorem exists_of_bind_eq_ok {ε α β : Type} {x : Except ε α} {f : α → Except ε β} {b : β}
    (h : (x >>= f) = .ok b) : ∃ a, x = .ok a ∧ f a = .ok b := by
  cases x with
  | error e => cases h
  | ok a => exact ⟨a, rfl, h⟩

variable {read : Cursor → Except Failure (TypeRef × Cursor)}

end Scaffold
