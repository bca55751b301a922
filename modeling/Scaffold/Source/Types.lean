/-
**Reading types.**

A type is a core with attributes before it and question or exclamation marks behind it.  A core is
a collection in square brackets, a function or a type in parentheses, an existential, or a name
with generic arguments.  Cores may be nested `maxNesting` deep.

Main definitions:

* `Scaffold.maxNesting` — how deeply cores and declarations may be nested;
* `Scaffold.Cursor.effects` — the effects before an arrow or a body;
* `Scaffold.Cursor.typeCore`, `Scaffold.Cursor.type` — reading types;
* `Scaffold.TypeRef.parse` — the type that a whole text spells.
-/

import Scaffold.Source.Scan
import Scaffold.Token.Lexer
import Scaffold.TypeRef.Basic

set_option relaxedAutoImplicit false
set_option autoImplicit false

namespace Scaffold

/-- How deeply type cores and declarations together may be nested. -/
def maxNesting : Nat := 128

namespace Cursor

/-- Reads effects in any order; `fuel` bounds their number. -/
def effectsFrom : (fuel : Nat) → Effects → Cursor → Except Failure (Effects × Cursor)
  | 0, e, c => .ok (e, c)
  | fuel + 1, e, c =>
    match c.keyword? "async" with
    | some c => effectsFrom fuel { e with isAsync := true } c
    | none =>
      match c.keyword? "throws" with
      | some c => effectsFrom fuel { e with isThrowing := true } c.skipGluedParens
      | none => if c.atWord "rethrows" then .error (c.fail .rethrowing) else .ok (e, c)

/-- Reads effects in any order; the error type that `throws` may name is passed over. -/
def effects (c : Cursor) : Except Failure (Effects × Cursor) :=
  effectsFrom (c.rest.length + 1) {} c

/-- Reads the attributes before a type core. -/
def attributesFrom (prev : Option Token) : List Token → Except Failure (List String × Cursor)
  | t :: u :: ts =>
    if t.isMark '@' then
      match u.word? with
      | some w =>
        match attributesFrom (some u) ts with
        | .ok (ws, c) => .ok (w :: ws, c)
        | .error f => .error f
      | none => .error (fail ⟨some t, u :: ts⟩ (.expectedName "attribute" (some u.kind)))
    else .ok ([], ⟨prev, t :: u :: ts⟩)
  | [t] =>
    if t.isMark '@' then .error (fail ⟨some t, []⟩ (.expectedName "attribute" none))
    else .ok ([], ⟨prev, [t]⟩)
  | [] => .ok ([], ⟨prev, []⟩)

/-- The optional type that a type and the marks behind it make up. -/
def optionalsFrom (type : TypeRef) (prev : Option Token) : List Token → TypeRef × Cursor
  | t :: ts =>
    if t.isMark '?' || t.isMark '!' then optionalsFrom (.optional type) (some t) ts
    else (type, ⟨prev, t :: ts⟩)
  | [] => (type, ⟨prev, []⟩)

/-- A type core with the attributes that stand before it. -/
def attributed (attributes : List String) (line : Nat) (type : TypeRef) :
    Except Failure TypeRef :=
  match attributes, type with
  | [], type => .ok type
  | a :: as, .function _ params effects result => .ok (.function (a :: as) params effects result)
  | a :: _, _ => .error { reason := .attributePlace a, line := line }

/-- Reads a type, given a reader of its core. -/
def typeWith (core : Cursor → Except Failure (TypeRef × Cursor)) (c : Cursor) :
    Except Failure (TypeRef × Cursor) := do
  let (attributes, inner) ← attributesFrom c.prev c.rest
  let (type, inner) ← core inner
  let type ← attributed attributes c.line type
  return optionalsFrom type inner.prev inner.rest

/-- Reads the rest of a dotted name. -/
def pathFrom (name : String) (prev : Option Token) : List Token → String × Cursor
  | t :: u :: ts =>
    match t.isMark '.', u.word? with
    | true, some w => pathFrom (name ++ "." ++ w) (some u) ts
    | _, _ => (name, ⟨prev, t :: u :: ts⟩)
  | ts => (name, ⟨prev, ts⟩)

/-- The type that a name with generic arguments refers to. -/
def applied (name : String) (args : List TypeRef) : TypeRef :=
  match args with
  | [] => .ofName name
  | [t] =>
    if name = "Optional" then .optional t
    else if name = "Array" then .sequence t
    else .named name [t]
  | [k, v] => if name = "Dictionary" then .mapping k v else .named name [k, v]
  | args => .named name args

/-- Reads a name with generic arguments, given a reader of types. -/
def namedWith (type : Cursor → Except Failure (TypeRef × Cursor)) (c : Cursor) :
    Except Failure (TypeRef × Cursor) := do
  let (first, c) ← c.expectName "type"
  let (name, c) := pathFrom first c.prev c.rest
  match c.mark? '<' with
  | some c =>
    let (args, c) ← separated id (fun _ => type) '>' (c.rest.length + 1) 0 c
    return (applied name args, c)
  | none => return (applied name [], c)

/-- The place behind a label such as `name:` or `_ name:`, if there is one. -/
def skipLabel (c : Cursor) : Cursor :=
  match c.rest with
  | a :: b :: rest =>
    match a.word?, b.isMark ':', b.word?, rest with
    | some _, true, _, _ => ⟨some b, rest⟩
    | some _, false, some _, d :: rest => if d.isMark ':' then ⟨some d, rest⟩ else c
    | _, _, _, _ => c
  | _ => c

/-- Reads one element of a list in parentheses. -/
def elementWith (type : Cursor → Except Failure (TypeRef × Cursor)) (c : Cursor) :
    Except Failure (TypeRef × Cursor) :=
  let c := c.skipLabel
  type ((c.keyword? "inout").getD c)

/-- Reads the elements of a list in parentheses behind the opening one, given a reader of types. -/
def elementsWith (type : Cursor → Except Failure (TypeRef × Cursor)) (c : Cursor) :
    Except Failure (List TypeRef × Cursor) :=
  match c.mark? ')' with
  | some c => .ok ([], c)
  | none => separated id (fun _ => elementWith type) ')' (c.rest.length + 1) 0 c

/-- Reads `()`, `(T)` or a function type, given a reader of types. -/
def parenthesizedWith (type : Cursor → Except Failure (TypeRef × Cursor)) (c : Cursor) :
    Except Failure (TypeRef × Cursor) := do
  let line := c.line
  let (elements, c) ← elementsWith type c.advance
  let (effects, c) ← c.effects
  if c.atArrow then
    let (result, c) ← type c.advance
    return (.function [] elements effects result, c)
  else if effects.isAsync || effects.isThrowing then
    throw { reason := .expectedArrow, line := line }
  else
    match elements with
    | [] => return (.void, c)
    | [t] => return (t, c)
    | _ => throw { reason := .tuple, line := line }

/-- Reads `[T]` or `[K: V]`, given a reader of types. -/
def collectionWith (type : Cursor → Except Failure (TypeRef × Cursor)) (c : Cursor) :
    Except Failure (TypeRef × Cursor) := do
  let (first, c) ← type c.advance
  match c.mark? ':' with
  | some c =>
    let (value, c) ← type c
    let c ← c.expectMark ']'
    return (.mapping first value, c)
  | none =>
    let c ← c.expectMark ']'
    return (.sequence first, c)

/-- Reads a type core, given a reader of the cores inside it. -/
def coreWith (core : Cursor → Except Failure (TypeRef × Cursor)) (c : Cursor) :
    Except Failure (TypeRef × Cursor) :=
  match c.found with
  | some (.mark '[') => collectionWith (typeWith core) c
  | some (.mark '(') => parenthesizedWith (typeWith core) c
  | some (.word w) =>
    if w = "any" then do
      let (constraint, c) ← core c.advance
      return (.existential constraint, c)
    else if w = "some" then .error (c.fail .opaqueType)
    else namedWith (typeWith core) c
  | found => .error (c.fail (.expectedType found))

/-- Reads a type core inside which cores may be nested `room - 1` deep. -/
def typeCore : (room : Nat) → Cursor → Except Failure (TypeRef × Cursor)
  | 0, c => .error (c.fail .typeNesting)
  | room + 1, c => coreWith (typeCore room) c

/-- Reads a type whose cores may be nested `room` deep. -/
def type (room : Nat) : Cursor → Except Failure (TypeRef × Cursor) := typeWith (typeCore room)

end Cursor

/-- The type that a whole text spells. -/
def TypeRef.parse (text : String) : Except Reason TypeRef :=
  match tokenize text with
  | .error e => .error (.unclosed e)
  | .ok tokens =>
    match Cursor.type maxNesting (Cursor.start tokens) with
    | .error f => .error f.reason
    | .ok (t, c) => if c.rest.isEmpty then .ok t else .error (.trailing c.found)

end Scaffold
