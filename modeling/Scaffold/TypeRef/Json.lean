/-
**Types in JSON.**

Main definitions:

* `Scaffold.TypeRef.toJson`, `Scaffold.TypeRef.ofJson?` — writing and reading.
-/

import Scaffold.Json.Decode
import Scaffold.TypeRef.Basic

set_option relaxedAutoImplicit false
set_option autoImplicit false

namespace Scaffold.TypeRef

mutual

/-- A type in JSON. -/
def toJson : TypeRef → Json
  | .primitive name => .obj [("kind", .str "primitive"), ("name", .str name)]
  | .named name args =>
    .obj [("kind", .str "named"), ("name", .str name), ("args", .arr (toJsonAll args))]
  | .sequence element => .obj [("kind", .str "sequence"), ("element", toJson element)]
  | .mapping key value =>
    .obj [("kind", .str "mapping"), ("key", toJson key), ("value", toJson value)]
  | .optional wrapped => .obj [("kind", .str "optional"), ("wrapped", toJson wrapped)]
  | .function attributes params effects result =>
    .obj [("kind", .str "function"), ("params", .arr (toJsonAll params)),
      ("is_async", .bool effects.isAsync), ("is_throwing", .bool effects.isThrowing),
      ("ret", toJson result), ("attributes", .strs attributes)]
  | .existential constraint =>
    .obj [("kind", .str "existential"), ("constraint", toJson constraint)]

/-- The types of a list in JSON. -/
def toJsonAll : List TypeRef → List Json
  | [] => []
  | t :: ts => toJson t :: toJsonAll ts

end

/-- Reads a variant of type, given a reader of the types inside it. -/
def variantOfJson? (inner : Json → Option TypeRef) (variant : String) (content : Json) :
    Option TypeRef :=
  match variant with
  | "primitive" => do
    let fs ← content.record? ["name"]
    return .primitive (← fs.required? "name" Json.string?)
  | "named" => do
    let fs ← content.record? ["name", "args"]
    return .named (← fs.required? "name" Json.string?)
      (← fs.required? "args" (Json.list? inner))
  | "sequence" => do
    let fs ← content.record? ["element"]
    return .sequence (← fs.required? "element" inner)
  | "mapping" => do
    let fs ← content.record? ["key", "value"]
    return .mapping (← fs.required? "key" inner) (← fs.required? "value" inner)
  | "optional" => do
    let fs ← content.record? ["wrapped"]
    return .optional (← fs.required? "wrapped" inner)
  | "function" => do
    let fs ← content.record? ["params", "is_async", "is_throwing", "ret", "attributes"]
    return .function (← fs.withDefault? "attributes" [] (Json.list? Json.string?))
      (← fs.required? "params" (Json.list? inner))
      ⟨← fs.required? "is_async" Json.bool?, ← fs.required? "is_throwing" Json.bool?⟩
      (← fs.required? "ret" inner)
  | "existential" => do
    let fs ← content.record? ["constraint"]
    return .existential (← fs.required? "constraint" inner)
  | _ => none

/-- The variants of types in order. -/
def variants : List String :=
  ["primitive", "named", "sequence", "mapping", "optional", "function", "existential"]

/-- Reads a type from a value that is at most `fuel` deep. -/
def ofJsonWithin? : (fuel : Nat) → Json.Position → Json → Option TypeRef
  | 0, _, _ => none
  | fuel + 1, position, j => do
    let (variant, content) ← j.tagged? position "kind" variants
    variantOfJson? (ofJsonWithin? fuel .inside) variant content

/-- Reads a type. -/
def ofJson? (position : Json.Position) (j : Json) : Option TypeRef :=
  ofJsonWithin? j.depth position j

end Scaffold.TypeRef
