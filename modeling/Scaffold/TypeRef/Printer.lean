/-
**Writing types.**

Main definitions:

* `Scaffold.Effects.render` — the words for effects, each behind a blank;
* `Scaffold.TypeRef.render` — the one spelling of a type in generated code;
* `Scaffold.TypeRef.storage` — the type of a stored property that holds a value of a type.
-/

import Scaffold.TypeRef.Basic

set_option relaxedAutoImplicit false
set_option autoImplicit false

namespace Scaffold

/-- The words for effects, each behind a blank. -/
def Effects.render (e : Effects) : String :=
  (if e.isAsync then " async" else "") ++ (if e.isThrowing then " throws" else "")

namespace TypeRef

/-- Whether a type needs parentheses before a question mark. -/
def needsParens : TypeRef → Bool
  | .function .. => true
  | .existential _ => true
  | _ => false

/-- Attributes, each with its sign and a blank behind it. -/
def renderAttributes (as : List String) : String :=
  String.join (as.map fun a => "@" ++ a ++ " ")

mutual

/-- The spelling of a type. -/
def render : TypeRef → String
  | .primitive name => name
  | .named name [] => name
  | .named name (t :: ts) => name ++ "<" ++ ", ".intercalate (renderAll (t :: ts)) ++ ">"
  | .sequence element => "[" ++ render element ++ "]"
  | .mapping key value => "[" ++ render key ++ ": " ++ render value ++ "]"
  | .optional wrapped =>
    if wrapped.needsParens then "(" ++ render wrapped ++ ")?" else render wrapped ++ "?"
  | .function attributes params effects result =>
    renderAttributes attributes ++ "(" ++ ", ".intercalate (renderAll params) ++ ")" ++
      effects.render ++ " -> " ++ render result
  | .existential constraint => "any " ++ render constraint

/-- The spellings of the types of a list. -/
def renderAll : List TypeRef → List String
  | [] => []
  | t :: ts => render t :: renderAll ts

end

/-- The attributes that a stored property may carry. -/
def storedAttributes : List String := ["Sendable", "MainActor"]

/-- The type of a stored property that holds a value of a type: other attributes of a function
type, such as `escaping`, are only allowed on parameters. -/
def storage : TypeRef → TypeRef
  | .function attributes params effects result =>
    .function (attributes.filter storedAttributes.contains) params effects result
  | t => t

end TypeRef

end Scaffold
