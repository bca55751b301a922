/-
**Reading members.**

Methods, initializers, stored properties and enumeration cases, each from its keyword on.  Default
values are copied from the source as they are written.

Main definitions:

* `Scaffold.Cursor.parameters` — a list of parameters in parentheses;
* `Scaffold.Cursor.method`, `Scaffold.Cursor.initializer` — signatures, without a body;
* `Scaffold.Cursor.property` — a stored property, or nothing if it is computed;
* `Scaffold.Cursor.cases` — the cases after one `case` keyword.
-/

import Scaffold.Source.Types

set_option relaxedAutoImplicit false
set_option autoImplicit false

namespace Scaffold.Cursor

/-- Reads the label and the name of the parameter with the given index.  A lone underscore is no
label, and the parameter gets a name made from its index. -/
def parameterName (index : Nat) (c : Cursor) :
    Except Failure ((Option String × String) × Cursor) := do
  let (first, c) ← c.expectName "parameter"
  match c.word? with
  | some second => return ((if first = "_" then none else some first, second), c.advance)
  | none =>
    if first = "_" then return ((none, "arg" ++ toString index), c)
    else return ((some first, first), c)

/-- Reads the default value behind an equals sign, if there is one. -/
def default? (value : Cursor → Except Halt (String × Cursor)) (c : Cursor) :
    Except Halt (Option String × Cursor) :=
  match c.mark? '=' with
  | some c => do
    let (text, c) ← value c
    return (some text, c)
  | none => .ok (none, c)

/-- Reads the parameter with the given index. -/
def parameter (source : List Char) (room index : Nat) (c : Cursor) :
    Except Halt (Parameter × Cursor) := do
  let ((label, name), c) ← c.parameterName index
  let c ← c.expectMark ':'
  let isInout := c.atWord "inout"
  let (type, c) ← Cursor.type room (if isInout then c.advance else c)
  -- three points behind the type
  if c.atMark '.' then
    throw (.failure (c.fail (.variadic name)))
  let (default, c) ← c.default? (argument source)
  return ({ label, name, type, default, isInout }, c)

/-- Reads parameters in parentheses. -/
def parameters (source : List Char) (room : Nat) (c : Cursor) :
    Except Halt (List Parameter × Cursor) := do
  let c ← c.expectMark '('
  match c.mark? ')' with
  | some c => return ([], c)
  | none => separated .failure (parameter source room) ')' (c.rest.length + 1) 0 c

/-- Reads the result type behind an arrow, if there is one. -/
def result (room : Nat) (c : Cursor) : Except Failure (TypeRef × Cursor) :=
  if c.atArrow then Cursor.type room c.advance else .ok (.void, c)

/-- Reads a method signature behind its name. -/
def signature (source : List Char) (room : Nat) (name : String) (c : Cursor) :
    Except Halt (Method × Cursor) := do
  if c.atMark '<' then
    throw (.failure (c.fail .genericMethod))
  let (params, c) ← c.parameters source room
  let (effects, c) ← c.effects
  let (result, c) ← c.result room
  if c.atWord "where" then
    throw (.failure (c.fail .genericMethod))
  return ({ name, params, effects, result }, c)

/-- Reads a method signature from its keyword on. -/
def method (source : List Char) (room : Nat) (c : Cursor) : Except Halt (Method × Cursor) := do
  let (name, c) ← c.advance.expectName "method"
  inMember ("func " ++ name) (c.signature source room name)

/-- Reads an initializer signature from its keyword on. -/
def initializer (source : List Char) (room : Nat) (c : Cursor) :
    Except Halt (Initializer × Cursor) :=
  let inside := c.advance
  inMember "init" do
    if inside.atMark '?' || inside.atMark '!' then
      throw (.failure (c.fail .failableInitializer))
    if inside.atMark '<' then
      throw (.failure (c.fail .genericInitializer))
    let (params, c) ← inside.parameters source room
    let (effects, c) ← c.effects
    return ({ params, effects }, c)

/-- The place behind a body in braces, if there is one. -/
def skipBody (c : Cursor) : Cursor := if c.atMark '{' then c.skipGroup else c

/-- Reads a stored property behind its name.  One whose type or value is followed by a block that
holds no observers is computed, and yields nothing. -/
def propertyRest (source : List Char) (room : Nat) (name : String) (isMutable : Bool)
    (c : Cursor) : Except Halt (Option Field × Cursor) := do
  if c.atMark ',' then
    throw (.failure (c.fail .multipleBindings))
  match c.mark? ':' with
  | none => throw (.failure (c.fail .untypedProperty))
  | some c =>
    let (type, c) ← Cursor.type room c
    let (default, c) ← c.default? (expression source)
    let field : Field := { name, type, default, isMutable }
    if c.atMark '{' then
      return (if opensObservers c.advance.rest then some field else none, c.skipGroup)
    else
      return (some field, c)

/-- Reads a stored property from its keyword on. -/
def property (source : List Char) (room : Nat) (word : String) (c : Cursor) :
    Except Halt (Option Field × Cursor) := do
  let (name, c) ← c.advance.expectName "property"
  inMember (word ++ " " ++ name) (c.propertyRest source room name (word == "var"))

/-- The place behind the values that a case carries, and whether it carries any. -/
def caseValues (c : Cursor) : Bool × Cursor :=
  if c.atMark '(' then (true, c.skipGroup) else (false, c)

/-- The place behind the raw value of a case, which is one token with or without a sign. -/
def skipRawValue (c : Cursor) : Cursor :=
  match c.mark? '=' with
  | some c => (c.skipMark '-').advance
  | none => c

/-- Reads cases behind their keyword; `fuel` bounds their number. -/
def casesFrom : (fuel : Nat) → Enumeration → Cursor → Except Failure (Enumeration × Cursor)
  | 0, e, c => .ok (e, c)
  | fuel + 1, e, c => do
    let (name, c) ← c.expectName "case"
    let (carries, c) := c.caseValues
    let e := { e with
      cases := e.cases ++ [name]
      hasAssociatedValues := e.hasAssociatedValues || carries }
    let c := c.skipRawValue
    match c.mark? ',' with
    | some c => casesFrom fuel e c
    | none => return (e, c)

/-- Reads cases behind their keyword into an enumeration. -/
def cases (e : Enumeration) (c : Cursor) : Except Failure (Enumeration × Cursor) :=
  casesFrom (c.rest.length + 1) e c

end Scaffold.Cursor
