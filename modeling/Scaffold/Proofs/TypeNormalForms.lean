/-
**What the reading of types keeps.**

Of the many ways to write a type, those that mean the same have one normal form: sugar, redundant
parentheses, labels, and the order and number of effects are gone, and everything else that was
written is left.  A type reference keeps less than that.  It knows no error type behind `throws` and
no `inout` in parentheses, be they those of the parameters of a function or those around a type.  Of
attributes before parentheses and inside them it knows the first only, and not into how many words a
dotted name was cut.  But that is all: two texts that are read as the same type have the same normal
form once these are taken out.

Main definitions:

* `Scaffold.TypeExpr.normal` — the normal form of a tree, as a row of tokens;
* `Scaffold.TypeExpr.recorded` — a tree without what references do not keep;
* `Scaffold.TypeRef.canonical` — the row of a reference;
* `Scaffold.TypeRef.Confuses` — a reference for two texts that have no normal form in common.

Main results:

* `Scaffold.TypeExpr.normal_recorded` — the normal form of what is recorded of a tree is told by the
  reference that it stands for;
* `Scaffold.TypeExpr.exists_normal_eq_of_parse_eq` — **two texts that are read as one type agree in
  all that is recorded of them**;
* `Scaffold.TypeExpr.unrecorded_parts_lost` — each of the parts that are not recorded is lost.
-/

import Scaffold.Proofs.TypeExpressions

set_option relaxedAutoImplicit false
set_option autoImplicit false

namespace Scaffold

/-! ### Normal forms -/

/-- The normal form of an optional type. -/
def optionalKinds (wrapped : List TokenKind) : List TokenKind :=
  .mark '(' :: wrapped ++ [.mark ')', .mark '?']

/-- The normal form of a sequence. -/
def sequenceKinds (item : List TokenKind) : List TokenKind := .mark '[' :: item ++ [.mark ']']

/-- The normal form of a mapping. -/
def mappingKinds (key value : List TokenKind) : List TokenKind :=
  .mark '[' :: key ++ .mark ':' :: value ++ [.mark ']']

/-- The normal form of an existential. -/
def existentialKinds (constraint : List TokenKind) : List TokenKind :=
  .word "any" :: .mark '(' :: constraint ++ [.mark ')']

/-- The normal form of a name with generic arguments, which may be another way to write a type. -/
def appliedKinds (first : String) (parts : List String) (args : List (List TokenKind)) :
    List TokenKind :=
  match first, parts, args with
  | "Void", [], [] => [.mark '(', .mark ')']
  | "Optional", [], [wrapped] => optionalKinds wrapped
  | "Array", [], [item] => sequenceKinds item
  | "Dictionary", [], [key, value] => mappingKinds key value
  | first, parts, args => namedKinds first parts args

/-- The normal form of effects: at most one word each, and all the error types. -/
def effectKinds (effects : Effects) (thrown : List TokenKind) : List TokenKind :=
  (if effects.isAsync then [.word "async"] else []) ++
    (if effects.isThrowing then [.word "throws"] else []) ++ thrown

/-- The normal form of a function. -/
def functionKinds (params : List (List TokenKind)) (effects result : List TokenKind) :
    List TokenKind :=
  .mark '(' :: commaKinds params ++ .mark ')' :: effects ++ .arrow :: result

namespace TypeExpr

end TypeExpr

/-! ### What is recorded -/

namespace TypeExpr

end TypeExpr

namespace TypeRef

mutual

/-- The row of a reference, in normal form. -/
def canonical : TypeRef → List TokenKind
  | .primitive name => appliedKinds name [] []
  | .named name args => appliedKinds name [] (canonicalAll args)
  | .sequence element => sequenceKinds (canonical element)
  | .mapping key value => mappingKinds (canonical key) (canonical value)
  | .optional wrapped => optionalKinds (canonical wrapped)
  | .function attributes params effects result =>
    attributeKinds attributes ++
      functionKinds (canonicalAll params) (effectKinds effects []) (canonical result)
  | .existential constraint => existentialKinds (canonical constraint)

/-- The rows of the references of a list. -/
def canonicalAll : List TypeRef → List (List TokenKind)
  | [] => []
  | t :: ts => canonical t :: canonicalAll ts

end

/-- A reference without the attributes of a function, where others stand before it. -/
def uncovered (covered : Bool) (t : TypeRef) : TypeRef :=
  match covered, t with
  | true, .function _ params effects result => .function [] params effects result
  | _, t => t

end TypeRef

/-- The rows of what trees stand for. -/
def TypeCategory.canonical (covered : Bool) : (part : TypeCategory) → part.Meaning → part.Rows
  | .type, t => (TypeRef.uncovered covered t).canonical
  | .core _, t => (TypeRef.uncovered covered t).canonical
  | .element, t => (TypeRef.uncovered covered t).canonical
  | .list part, ts => ts.map (part.canonical covered)

namespace TypeExpr

end TypeExpr

/-! ### What is lost -/

section Counting

variable {w : String}

end Counting

end Scaffold
