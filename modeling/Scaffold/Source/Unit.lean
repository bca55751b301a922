/-
**Reading source units.**

A unit is read item by item: markers in comments, attributes and modifiers apply to the next
declaration, and any other statement is passed over together with the markers before it.  A
declaration that cannot be read is rejected, and reading resumes behind it.

Main definitions:

* `Scaffold.Source` — a source unit;
* `Scaffold.Cursor.header` — the conformances of a declaration;
* `Scaffold.Cursor.declaration` — a declaration with those nested inside it;
* `Scaffold.Source.read?`, `Scaffold.Source.read` — the outcome of a unit;
* `Scaffold.readAll` — the outcome of several units.
-/

import Scaffold.Source.Bodies
import Scaffold.Workers

set_option relaxedAutoImplicit false
set_option autoImplicit false

namespace Scaffold

/-- A named source text. -/
structure Source where
  /-- The name, usually a path. -/
  name : String
  /-- The text. -/
  text : String
deriving DecidableEq, Repr

/-- The name of a unit with the size of its text. -/
def Source.describe (s : Source) : String :=
  s.name ++ " (" ++ toString s.text.utf8ByteSize ++ " bytes)"

/-- The words that open a statement. -/
def statementKeywords : List String :=
  ["import", "extension", "typealias", "func", "init", "let", "var", "case", "static"]

/-- Whether a token begins the next item rather than going on with a header: a comment, or on a
new line an attribute or a word that opens items. -/
def startsNextItem (prev : Option Token) (t : Token) : Bool :=
  t.isComment ||
    (prev.any (fun p => p.line < t.line) &&
      (t.isMark '@' || t.isWordIn (Form.all.map Form.keyword) || t.isWordIn modifiers ||
        t.isWordIn statementKeywords))

namespace Cursor

/-! ### Headers -/

/-- The token before the next one, after one more token. -/
def notePrev (_ : Option Token) (t : Token) : Option Token := some t

/-- The stretch of one conformance. -/
def conformance (c : Cursor) : List Token × List Token :=
  scan (fun prev t _ =>
      t.isMark ',' || t.isMark '{' || t.isWord "where" || startsNextItem prev t)
    notePrev [.angle] c.prev none c.rest

/-- The place behind what is left of a header, before the body or the next item. -/
def skipHeaderRest (c : Cursor) : Cursor :=
  let parts := scan (fun prev t _ => t.isMark '{' || startsNextItem prev t)
    notePrev [.angle, .round, .square] c.prev none c.rest
  c.past parts.1 parts.2

/-- What a header yields: its conformances or why it cannot be read, and the place reached. -/
abbrev HeaderResult := Except Failure (List String) × Cursor

/-- Reads conformances behind a colon or comma; `fuel` bounds their number. -/
def conformancesFrom (source : List Char) :
    (fuel : Nat) → List String → Cursor → Option HeaderResult
  | 0, texts, c => some (.ok texts, c)
  | fuel + 1, texts, c =>
    let parts := c.conformance
    let behind := c.past parts.1 parts.2
    match sourceText? source parts.1 with
    | none => none
    | some text =>
      if text.isEmpty then some (.error (behind.fail .expectedConformance), behind)
      else
        match behind.mark? ',' with
        | some c => conformancesFrom source fuel (texts ++ [text]) c
        | none => some (.ok (texts ++ [text]), behind)

/-- Reads the conformances behind a declaration's name.  Generic parameters and where clauses
cannot be read. -/
def header (source : List Char) (c : Cursor) : Option HeaderResult :=
  if c.atMark '<' then some (.error (c.fail .genericDeclaration), c)
  else
    let conformances := match c.mark? ':' with
      | some c => conformancesFrom source (c.rest.length + 1) [] c
      | none => some (.ok [], c)
    match conformances with
    | some (.ok texts, c) =>
      if c.atWord "where" then some (.error (c.fail .whereClause), c) else some (.ok texts, c)
    | other => other

/-! ### Declarations -/

/-- Reads a body into the shape of a declaration. -/
def body (source : List Char) (markerPrefix : String) (room : Nat) (nested : NestedReader)
    (form : Form) (conformances : List String) (c : Cursor) : BodyResult Shape :=
  match form with
  | .contract =>
    (c.contractBody source room).map fun (outcome, result) =>
      (outcome, result.map fun contract => .contract { contract with inherits := conformances })
  | .value form =>
    (c.valueBody source markerPrefix room nested form).map fun (outcome, result) =>
      (outcome, result.map fun value => .value { value with conformances := conformances })
  | .enumeration =>
    (c.enumerationBody markerPrefix nested).map fun (outcome, result) =>
      (outcome, result.map fun e => .enumeration { e with conformances := conformances })

/-- The outcome of a declaration, given that of its body.  Nested declarations are dropped with
the one around them, but what could not be read inside stays reported. -/
def declared (entry : Shape → Entry) (reject : Failure → Outcome) (outcome : Outcome) :
    Except Failure Shape → Outcome
  | .ok shape => { outcome with entries := entry shape :: outcome.entries }
  | .error f => { outcome with entries := [] } ++ reject f

/-- The name of a declaration inside another. -/
def qualified (parent : Option String) (name : String) : String :=
  match parent with
  | some parent => parent ++ "." ++ name
  | none => name

/-- Reads the declaration that the keyword at the place opens, with `room` more levels of nesting
left. -/
def declaration (unit : String) (source : List Char) (markerPrefix : String) :
    (room : Nat) → Option String → NestedReader
  | room, parent, form, markers, c =>
    match c.advance.expectName form.keyword with
    | .error f => some (Outcome.nameless (parent.getD unit) f, c.advance.skipStatement)
    | .ok (name, behind) =>
      let name := qualified parent name
      let reject := fun (f : Failure) => Outcome.reject name parent markers f
      match behind.header source with
      | none => none
      | some (headed, behind) =>
        -- a header that cannot be read is passed over, so that the body goes with it
        let resume := match headed with
          | .ok _ => behind
          | .error _ => behind.skipHeaderRest
        let opening := resume.skipComments
        match opening.rest with
        | [] =>
          let f := match headed with
            | .ok _ => { reason := .expectedMark '{' none, line := c.line }
            | .error f => f
          some (reject f, resume)
        | t :: ts =>
          if !t.isMark '{' then
            let f := match headed with
              | .ok _ => { reason := .expectedMark '{' (some t.kind), line := c.line }
              | .error f => f
            some (reject f, resume)
          else
            match Group.split { bracket := .curly } ts, headed with
            | none, .ok _ =>
              some (reject { reason := .unbalancedBraces, line := c.line }, opening.toEnd)
            | none, .error f => some (reject f, opening.toEnd)
            | some (_, close, after), .error f => some (reject f, ⟨some close, after⟩)
            | some (inside, close, after), .ok conformances =>
              -- the body is known to end here, so that what it holds cannot hide what follows
              match room with
              | 0 =>
                some (reject { reason := .declarationNesting, line := c.line },
                  ⟨some close, after⟩)
              | room + 1 =>
                let nested := declaration unit source markerPrefix room (some name)
                match body source markerPrefix room nested form conformances ⟨some t, inside⟩ with
                | none => none
                | some (outcome, result) =>
                  let entry := fun (shape : Shape) =>
                    Entry.mk { name, parent, unit, line := c.line, shape } markers
                  some (declared entry reject outcome result, ⟨some close, after⟩)

/-! ### Units -/

/-- Reads one item of a unit: the markers and the place behind it, and what it yields. -/
def item (nested : NestedReader) (markerPrefix : String) (markers : List String) (t : Token)
    (c : Cursor) : Option (List String × Outcome × Cursor) :=
  match t.kind with
  | .comment text => some (markers ++ markersIn markerPrefix text, {}, c.advance)
  | .mark '@' => some (markers, {}, c.skipAttribute)
  | .word w =>
    if modifiers.contains w then some (markers, {}, c.skipModifier)
    else
      match Form.ofKeyword? w with
      | some form => (nested form markers c).map fun (outcome, c) => ([], outcome, c)
      | none => some ([], {}, c.skipStatement)
  | _ => some ([], {}, c.skipStatement)

/-- Reads the items of a unit; `fuel` bounds their number. -/
def itemsFrom (nested : NestedReader) (markerPrefix : String) :
    (fuel : Nat) → List String → Cursor → Option Outcome
  | 0, _, _ => some {}
  | fuel + 1, markers, c =>
    match c.next? with
    | none => some {}
    | some t =>
      match c.item nested markerPrefix markers t with
      | none => none
      | some (markers, outcome, c) =>
        match itemsFrom nested markerPrefix fuel markers c with
        | none => none
        | some rest => some (outcome ++ rest)

/-- Reads the items of a unit. -/
def items (unit : String) (source : List Char) (markerPrefix : String) (c : Cursor) :
    Option Outcome :=
  itemsFrom (declaration unit source markerPrefix maxNesting none) markerPrefix
    (c.rest.length + 1) [] c

end Cursor

/-- The outcome of a unit.  There is none if a token lies outside the text. -/
def Source.read? (markerPrefix : String) (s : Source) : Option Outcome :=
  match tokenize s.text with
  | .error e => some (Outcome.nameless s.name { reason := .unclosed e, line := e.line })
  | .ok tokens => Cursor.items s.name s.text.toList markerPrefix (Cursor.start tokens)

/-- The outcome of a unit. -/
def Source.read (markerPrefix : String) (s : Source) : Outcome :=
  (s.read? markerPrefix).getD {}

/-- The outcome of several units, one behind the other. -/
def readAll (workforce : Workforce) (markerPrefix : String) (sources : List Source) : Outcome :=
  Outcome.concat (workforce.map (Source.read markerPrefix) sources)

end Scaffold
