/-
**Reading bodies.**

The body of a declaration is read item by item.  Nested declarations are handed to the reader that
is passed in; what they yield is kept apart from the members, since it stays reported when the
body around them fails.

Main definitions:

* `Scaffold.markersIn` — the markers of a comment;
* `Scaffold.Cursor.contractBody` — the body of a protocol;
* `Scaffold.Cursor.valueBody` — the body of a struct, class or actor;
* `Scaffold.Cursor.enumerationBody` — the body of an enumeration.
-/

import Scaffold.Source.Members
import Scaffold.Source.Outcome
import Scaffold.Text.Affix

set_option relaxedAutoImplicit false
set_option autoImplicit false

namespace Scaffold

/-- The markers of a comment: what stands between commas behind the marker prefix. -/
def markersIn (markerPrefix comment : String) : List String :=
  match Text.dropPrefix? markerPrefix comment with
  | some rest => ((Text.pieces ',' rest).map Text.trim).filter fun m => !m.isEmpty
  | none => []

/-- The words that may stand before any member or declaration. -/
def modifiers : List String :=
  ["public", "internal", "private", "fileprivate", "open", "package", "final", "nonisolated",
   "indirect", "dynamic", "weak", "unowned"]

/-- The further words that may stand before members of concrete types. -/
def implementationModifiers : List String :=
  ["mutating", "nonmutating", "override", "convenience", "required"]

/-- A reader of nested declarations: it is given the form that the keyword at the place opens and
the markers above it.  It yields nothing if a token lies outside the source. -/
abbrev NestedReader := Form → List String → Cursor → Option (Outcome × Cursor)

/-- What a body yields: its nested declarations, and its members or why they cannot be read.  It
yields nothing if a token lies outside the source. -/
abbrev BodyResult (α : Type) := Option (Outcome × Except Failure α)

namespace Cursor

/-! ### Protocols -/

/-- The failure of a word that opens no method or initializer of a protocol. -/
def unclassifiable (c : Cursor) (word : String) : Failure :=
  let member := match c.secondWord? with
    | some next => word ++ " " ++ next
    | none => word
  (c.fail (.requirement (.ofWord word))).inMember member

/-- Reads one item of a protocol body. -/
def contractItem (source : List Char) (room : Nat) (contract : Contract) (t : Token)
    (c : Cursor) : Except Halt (Contract × Cursor) :=
  match t.kind with
  | .comment _ => .ok (contract, c.advance)
  | .mark ';' => .ok (contract, c.advance)
  | .mark '@' => .ok (contract, c.skipAttribute)
  | .word w =>
    if modifiers.contains w then .ok (contract, c.skipModifier)
    else if w = "func" then do
      let (m, c) ← c.method source room
      return ({ contract with methods := contract.methods ++ [m] }, c)
    else if w = "init" then do
      let (i, c) ← c.initializer source room
      return ({ contract with initializers := contract.initializers ++ [i] }, c)
    else .error (.failure (c.unclassifiable w))
  | kind => .error (.failure (c.fail (.unexpectedMember (some kind) .contract)))

/-- Reads the items of a protocol body; `fuel` bounds their number. -/
def contractBodyFrom (source : List Char) (room : Nat) :
    (fuel : Nat) → Contract → Cursor → Except Halt Contract
  | 0, contract, _ => .ok contract
  | fuel + 1, contract, c =>
    match c.next? with
    | none => .ok contract
    | some t =>
      match c.contractItem source room contract t with
      | .ok (contract, c) => contractBodyFrom source room fuel contract c
      | .error h => .error h

/-- Reads the body of a protocol. -/
def contractBody (source : List Char) (room : Nat) (c : Cursor) : BodyResult Contract :=
  match contractBodyFrom source room (c.rest.length + 1) {} c with
  | .ok contract => some ({}, .ok contract)
  | .error (.failure f) => some ({}, .error f)
  | .error .misplaced => none

/-! ### Structs, classes and actors -/

/-- What is known of a value type while its body is read. -/
structure ValueState where
  /-- The members read so far. -/
  value : ValueType
  /-- The markers since the last member. -/
  markers : List String := []
  /-- Whether an attribute stands before the next member. -/
  attributed : Bool := false
  /-- What the nested declarations have yielded. -/
  outcome : Outcome := {}

/-- The state behind a member, to which markers and attributes no longer apply. -/
def ValueState.afterMember (s : ValueState) : ValueState :=
  { s with markers := [], attributed := false }

/-- A step through a body: the state reached, and the place to go on from or a failure.  It yields
nothing if a token lies outside the source. -/
abbrev BodyStep (σ : Type) := Option (σ × Except Failure Cursor)

/-- Whether the word after `class` makes it a modifier of a member. -/
def opensTypeMember (c : Cursor) : Bool :=
  match c.secondWord? with
  | some w => ["var", "let", "func", "subscript"].contains w
  | none => false

/-- Keeps a member that was read together with its body; one that cannot be read is passed over. -/
def memberStep {α : Type} (s : ValueState) (c : Cursor) (read : Except Halt (α × Cursor))
    (keep : ValueType → α → ValueType) : BodyStep ValueState :=
  match read with
  | .ok (x, behind) => some ({ s with value := keep s.value x }.afterMember, .ok behind.skipBody)
  | .error (.failure _) => some (s.afterMember, .ok c.skipStatement)
  | .error .misplaced => none

/-- The words that open members which are passed over. -/
def passedOver : List String :=
  ["static", "lazy", "deinit", "subscript", "typealias", "extension"]

/-- Reads the member of a value type that a word opens. -/
def valueMember (source : List Char) (room : Nat) (nested : NestedReader) (s : ValueState)
    (word : String) (c : Cursor) : BodyStep ValueState :=
  if passedOver.contains word then some (s.afterMember, .ok c.skipStatement)
  else if word = "class" && c.opensTypeMember then some (s.afterMember, .ok c.skipStatement)
  else if word = "let" || word = "var" then
    -- an attribute may keep the value elsewhere
    if s.attributed then some (s.afterMember, .ok c.skipStatement)
    else
      match c.property source room word with
      | .ok (field, c) =>
        let value := { s.value with fields := s.value.fields ++ field.toList }
        some ({ s with value := value }.afterMember, .ok c)
      | .error (.failure f) => some (s, .error f)
      | .error .misplaced => none
  else if word = "func" then
    memberStep s c (c.method source room) fun v m => { v with methods := v.methods ++ [m] }
  else if word = "init" then
    memberStep s c (c.initializer source room) fun v i =>
      { v with initializers := v.initializers ++ [i] }
  else
    match Form.ofKeyword? word with
    | some form =>
      match nested form s.markers c with
      | some (outcome, c) =>
        some ({ s with outcome := s.outcome ++ outcome }.afterMember, .ok c)
      | none => none
    | none => some (s, .error ((c.fail .unclassified).inMember word))

/-- Reads one item of the body of a value type. -/
def valueItem (source : List Char) (markerPrefix : String) (room : Nat) (nested : NestedReader)
    (s : ValueState) (t : Token) (c : Cursor) : BodyStep ValueState :=
  match t.kind with
  | .comment text =>
    some ({ s with markers := s.markers ++ markersIn markerPrefix text }, .ok c.advance)
  | .mark ';' => some (s, .ok c.advance)
  | .mark '@' => some ({ s with attributed := true }, .ok c.skipAttribute)
  | .mark '#' => some (s, .ok c.skipStatement)
  | .word w =>
    if modifiers.contains w || implementationModifiers.contains w then
      some (s, .ok c.skipModifier)
    else c.valueMember source room nested s w
  | kind => some (s, .error (c.fail (.unexpectedMember (some kind) (.value s.value.form))))

/-- Reads the items of the body of a value type; `fuel` bounds their number. -/
def valueBodyFrom (source : List Char) (markerPrefix : String) (room : Nat)
    (nested : NestedReader) : (fuel : Nat) → ValueState → Cursor → BodyResult ValueType
  | 0, s, _ => some (s.outcome, .ok s.value)
  | fuel + 1, s, c =>
    match c.next? with
    | none => some (s.outcome, .ok s.value)
    | some t =>
      match c.valueItem source markerPrefix room nested s t with
      | some (s, .ok c) => valueBodyFrom source markerPrefix room nested fuel s c
      | some (s, .error f) => some (s.outcome, .error f)
      | none => none

/-- Reads the body of a value type. -/
def valueBody (source : List Char) (markerPrefix : String) (room : Nat) (nested : NestedReader)
    (form : ValueForm) (c : Cursor) : BodyResult ValueType :=
  valueBodyFrom source markerPrefix room nested (c.rest.length + 1)
    { value := { form := form } } c

/-! ### Enumerations -/

/-- What is known of an enumeration while its body is read. -/
structure EnumerationState where
  /-- The cases read so far. -/
  enumeration : Enumeration := {}
  /-- The markers since the last member. -/
  markers : List String := []
  /-- What the nested declarations have yielded. -/
  outcome : Outcome := {}

/-- The state behind a member, to which markers no longer apply. -/
def EnumerationState.afterMember (s : EnumerationState) : EnumerationState :=
  { s with markers := [] }

/-- Reads the member of an enumeration that a word opens; all but cases and declarations is passed
over. -/
def enumerationMember (nested : NestedReader) (s : EnumerationState) (word : String)
    (c : Cursor) : BodyStep EnumerationState :=
  if word = "case" then
    match c.advance.cases s.enumeration with
    | .ok (e, c) => some ({ s with enumeration := e }.afterMember, .ok c)
    | .error f => some (s, .error f)
  else if word = "class" && c.opensTypeMember then some (s.afterMember, .ok c.skipStatement)
  else
    match Form.ofKeyword? word with
    | some form =>
      match nested form s.markers c with
      | some (outcome, c) =>
        some ({ s with outcome := s.outcome ++ outcome }.afterMember, .ok c)
      | none => none
    | none => some (s.afterMember, .ok c.skipStatement)

/-- Reads one item of the body of an enumeration. -/
def enumerationItem (markerPrefix : String) (nested : NestedReader) (s : EnumerationState)
    (t : Token) (c : Cursor) : BodyStep EnumerationState :=
  match t.kind with
  | .comment text =>
    some ({ s with markers := s.markers ++ markersIn markerPrefix text }, .ok c.advance)
  | .mark ';' => some (s, .ok c.advance)
  | .mark '@' => some (s, .ok c.skipAttribute)
  | .word w =>
    if modifiers.contains w then some (s, .ok c.skipModifier)
    else c.enumerationMember nested s w
  | kind => some (s, .error (c.fail (.unexpectedMember (some kind) .enumeration)))

/-- Reads the items of the body of an enumeration; `fuel` bounds their number. -/
def enumerationBodyFrom (markerPrefix : String) (nested : NestedReader) :
    (fuel : Nat) → EnumerationState → Cursor → BodyResult Enumeration
  | 0, s, _ => some (s.outcome, .ok s.enumeration)
  | fuel + 1, s, c =>
    match c.next? with
    | none => some (s.outcome, .ok s.enumeration)
    | some t =>
      match c.enumerationItem markerPrefix nested s t with
      | some (s, .ok c) => enumerationBodyFrom markerPrefix nested fuel s c
      | some (s, .error f) => some (s.outcome, .error f)
      | none => none

/-- Reads the body of an enumeration. -/
def enumerationBody (markerPrefix : String) (nested : NestedReader) (c : Cursor) :
    BodyResult Enumeration :=
  enumerationBodyFrom markerPrefix nested (c.rest.length + 1) {} c

end Cursor

end Scaffold
