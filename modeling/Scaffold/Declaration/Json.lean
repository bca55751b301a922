/-
**Declarations in JSON.**

Main definitions:

* `Scaffold.Entry.toJson`, `Scaffold.Entry.ofJson?` — writing and reading a declaration with its
  markers;
* `Scaffold.Method.ofJson?`, `Scaffold.Initializer.ofJson?` — reading signatures.
-/

import Scaffold.Declaration.Basic
import Scaffold.TypeRef.Json

set_option relaxedAutoImplicit false
set_option autoImplicit false

namespace Scaffold

open Json (Fields)

/-! ### Members -/

/-- A parameter in JSON. -/
def Parameter.toJson (p : Parameter) : Json :=
  .obj [("label", .str? p.label), ("name", .str p.name), ("ty", p.type.toJson),
    ("default", .str? p.default), ("is_inout", .bool p.isInout)]

/-- Reads a parameter. -/
def Parameter.ofJson? (position : Json.Position) (j : Json) : Option Parameter := do
  let fs ← j.record? ["label", "name", "ty", "default", "is_inout"]
  return {
    label := ← fs.withDefault? "label" none Json.nullable?
    name := ← fs.required? "name" Json.string?
    type := ← fs.required? "ty" (TypeRef.ofJson? position)
    default := ← fs.withDefault? "default" none Json.nullable?
    isInout := ← fs.withDefault? "is_inout" false Json.bool? }

/-- A method in JSON. -/
def Method.toJson (m : Method) : Json :=
  .obj [("name", .str m.name), ("params", .arr (m.params.map Parameter.toJson)),
    ("is_async", .bool m.effects.isAsync), ("is_throwing", .bool m.effects.isThrowing),
    ("ret", m.result.toJson)]

/-- Reads a method. -/
def Method.ofJson? (position : Json.Position) (j : Json) : Option Method := do
  let fs ← j.record? ["name", "params", "is_async", "is_throwing", "ret"]
  return {
    name := ← fs.required? "name" Json.string?
    params := ← fs.required? "params" (Json.list? (Parameter.ofJson? position))
    effects := ⟨← fs.required? "is_async" Json.bool?, ← fs.required? "is_throwing" Json.bool?⟩
    result := ← fs.required? "ret" (TypeRef.ofJson? position) }

/-- An initializer in JSON. -/
def Initializer.toJson (i : Initializer) : Json :=
  .obj [("params", .arr (i.params.map Parameter.toJson)),
    ("is_async", .bool i.effects.isAsync), ("is_throwing", .bool i.effects.isThrowing)]

/-- Reads an initializer. -/
def Initializer.ofJson? (position : Json.Position) (j : Json) : Option Initializer := do
  let fs ← j.record? ["params", "is_async", "is_throwing"]
  return {
    params := ← fs.required? "params" (Json.list? (Parameter.ofJson? position))
    effects := ⟨← fs.required? "is_async" Json.bool?, ← fs.required? "is_throwing" Json.bool?⟩ }

/-- A field in JSON. -/
def Field.toJson (f : Field) : Json :=
  .obj [("name", .str f.name), ("ty", f.type.toJson), ("default", .str? f.default),
    ("is_mutable", .bool f.isMutable)]

/-- Reads a field. -/
def Field.ofJson? (position : Json.Position) (j : Json) : Option Field := do
  let fs ← j.record? ["name", "ty", "default", "is_mutable"]
  return {
    name := ← fs.required? "name" Json.string?
    type := ← fs.required? "ty" (TypeRef.ofJson? position)
    default := ← fs.withDefault? "default" none Json.nullable?
    isMutable := ← fs.withDefault? "is_mutable" false Json.bool? }

/-! ### Shapes -/

/-- Reads a form of value type. -/
def ValueForm.ofJson? (j : Json) : Option ValueForm := do
  let word ← j.unitVariant?
  [ValueForm.struct, .classForm, .actor].find? fun form => form.keyword == word

/-- A shape in JSON. -/
def Shape.toJson : Shape → Json
  | .contract c =>
    .obj [("shape", .str "contract"), ("methods", .arr (c.methods.map Method.toJson)),
      ("initializers", .arr (c.initializers.map Initializer.toJson)),
      ("inherits", .strs c.inherits)]
  | .value v =>
    .obj [("shape", .str "value_type"), ("form", .str v.form.keyword),
      ("fields", .arr (v.fields.map Field.toJson)),
      ("methods", .arr (v.methods.map Method.toJson)),
      ("initializers", .arr (v.initializers.map Initializer.toJson)),
      ("conformances", .strs v.conformances)]
  | .enumeration e =>
    .obj [("shape", .str "enumeration"), ("cases", .strs e.cases),
      ("has_associated_values", .bool e.hasAssociatedValues),
      ("conformances", .strs e.conformances)]

/-- Reads the contents of a protocol, which lie inside a tagged record. -/
def Contract.ofJson? (j : Json) : Option Contract := do
  let fs ← j.record? ["methods", "initializers", "inherits"]
  return {
    methods := ← fs.required? "methods" (Json.list? (Method.ofJson? .inside))
    initializers := ← fs.required? "initializers" (Json.list? (Initializer.ofJson? .inside))
    inherits := ← fs.required? "inherits" (Json.list? Json.string?) }

/-- Reads the contents of a value type, which lie inside a tagged record. -/
def ValueType.ofJson? (j : Json) : Option ValueType := do
  let fs ← j.record? ["form", "fields", "methods", "initializers", "conformances"]
  return {
    form := ← fs.required? "form" ValueForm.ofJson?
    fields := ← fs.required? "fields" (Json.list? (Field.ofJson? .inside))
    methods := ← fs.required? "methods" (Json.list? (Method.ofJson? .inside))
    initializers := ← fs.required? "initializers" (Json.list? (Initializer.ofJson? .inside))
    conformances := ← fs.required? "conformances" (Json.list? Json.string?) }

/-- Reads the contents of an enumeration. -/
def Enumeration.ofJson? (j : Json) : Option Enumeration := do
  let fs ← j.record? ["cases", "has_associated_values", "conformances"]
  return {
    cases := ← fs.required? "cases" (Json.list? Json.string?)
    hasAssociatedValues := ← fs.required? "has_associated_values" Json.bool?
    conformances := ← fs.required? "conformances" (Json.list? Json.string?) }

/-- Reads a shape. -/
def Shape.ofJson? (j : Json) : Option Shape := do
  let (variant, content) ← j.tagged? .outside "shape" ["contract", "value_type", "enumeration"]
  match variant with
  | "contract" => return .contract (← Contract.ofJson? content)
  | "value_type" => return .value (← ValueType.ofJson? content)
  | "enumeration" => return .enumeration (← Enumeration.ofJson? content)
  | _ => none

/-! ### Declarations -/

/-- A declaration in JSON. -/
def Declaration.toJson (d : Declaration) : Json :=
  .obj [("name", .str d.name), ("parent", .str? d.parent), ("unit", .str d.unit),
    ("position", .nat d.position), ("line", .nat d.line), ("kind", d.shape.toJson)]

/-- Reads a declaration. -/
def Declaration.ofJson? (j : Json) : Option Declaration := do
  let fs ← j.record? ["name", "parent", "unit", "position", "line", "kind"]
  return {
    name := ← fs.required? "name" Json.string?
    parent := ← fs.withDefault? "parent" none Json.nullable?
    unit := ← fs.withDefault? "unit" "" Json.string?
    position := ← fs.withDefault? "position" 0 Json.count?
    line := ← fs.withDefault? "line" 0 Json.count?
    shape := ← fs.required? "kind" Shape.ofJson? }

/-- A declaration with its markers in JSON. -/
def Entry.toJson (e : Entry) : Json :=
  .obj [("declaration", e.declaration.toJson), ("markers", .strs e.markers)]

/-- Reads a declaration with its markers. -/
def Entry.ofJson? (j : Json) : Option Entry := do
  let fs ← j.record? ["declaration", "markers"]
  return {
    declaration := ← fs.required? "declaration" Declaration.ofJson?
    markers := ← fs.required? "markers" (Json.list? Json.string?) }

end Scaffold
