/-
**Reading TOML.**

Main definitions:

* `Scaffold.Toml.value?` — the value at the front of a text;
* `Scaffold.Toml.Document` — what was read so far, and the table that keys go to;
* `Scaffold.Toml.read?` — the document of a text, if it is TOML 1.1.
-/

import Scaffold.Toml.Scalar

set_option relaxedAutoImplicit false
set_option autoImplicit false

namespace Scaffold.Toml

/-! ### Blanks -/

/-- The text behind blanks on one line. -/
def skipBlanks (cs : List Char) : List Char := cs.dropWhile fun c => c == ' ' || c == '\t'

/-- The text behind a comment, if there is one; its characters have to be printable. -/
def skipComment? (cs : List Char) : Option (List Char) :=
  match cs with
  | '#' :: rest =>
    match rest.dropWhile isPlain with
    | [] => some []
    | '\n' :: r => some ('\n' :: r)
    | '\r' :: '\n' :: r => some ('\r' :: '\n' :: r)
    | _ => none
  | rest => some rest

/-- The text behind the end of a line that holds nothing more but blanks and a comment. -/
def endLine? (cs : List Char) : Option (List Char) := do
  let rest ← skipComment? (skipBlanks cs)
  match rest with
  | [] => some []
  | '\n' :: r => some r
  | '\r' :: '\n' :: r => some r
  | _ => none

/-- The text behind blanks, line ends and comments. -/
def skipLines? : (fuel : Nat) → List Char → Option (List Char)
  | 0, cs => some cs
  | fuel + 1, cs =>
    match skipBlanks cs with
    | '\n' :: rest => skipLines? fuel rest
    | '\r' :: '\n' :: rest => skipLines? fuel rest
    | '#' :: rest => (skipComment? ('#' :: rest)).bind (skipLines? fuel)
    | rest => some rest

/-- The text behind blanks, line ends and comments. -/
def skipLines (cs : List Char) : Option (List Char) := skipLines? (cs.length + 1) cs

/-! ### Keys -/

/-- The parts of a dotted key, and the text behind it. -/
def keys? : (fuel : Nat) → List Char → Option (List String × List Char)
  | 0, _ => none
  | fuel + 1, cs => do
    let (k, rest) ← key? (skipBlanks cs)
    match skipBlanks rest with
    | '.' :: rest =>
      let (ks, rest) ← keys? fuel rest
      return (k :: ks, rest)
    | rest => return ([k], rest)

/-- How deeply tables and arrays may be nested by one key or in one value. -/
def maxDepth : Nat := 80

/-- The path and the last part of a dotted key, and the text behind it. -/
def path? (cs : List Char) : Option ((List String × String) × List Char) := do
  let (ks, rest) ← keys? (cs.length + 1) cs
  let last ← ks.getLast?
  if maxDepth < ks.length then none else return ((ks.dropLast, last), rest)

/-! ### Values -/

/-- A reader of values: the value at the front, and the text behind it. -/
abbrev ValueReader := List Char → Option (Toml × List Char)

/-- The items of an array up to its closing bracket; a comma may stand behind the last. -/
def items? (value : ValueReader) : (fuel : Nat) → List Char → Option (List Toml × List Char)
  | 0, _ => none
  | fuel + 1, cs => do
    let rest ← skipLines cs
    match rest with
    | ']' :: rest => return ([], rest)
    | rest =>
      let (x, rest) ← value rest
      let rest ← skipLines rest
      match rest with
      | ',' :: rest =>
        let (xs, rest) ← items? value fuel rest
        return (x :: xs, rest)
      | ']' :: rest => return ([x], rest)
      | _ => none

/-- A key, an equals sign and a value, and the text behind them.  What may stand around the equals
sign is passed over by `skip`. -/
def pair? (skip : List Char → Option (List Char)) (value : ValueReader) (cs : List Char) :
    Option ((List String × String × Toml) × List Char) := do
  let ((path, key), rest) ← path? cs
  match ← skip rest with
  | '=' :: rest =>
    let (v, rest) ← value (← skip rest)
    return ((path, key, v), rest)
  | _ => none

/-- The entries of a table in braces up to its closing brace, added to those before; a comma may
stand behind the last. -/
def entries? (value : ValueReader) :
    (fuel : Nat) → List (String × Toml) → List Char → Option (List (String × Toml) × List Char)
  | 0, _, _ => none
  | fuel + 1, es, cs => do
    let rest ← skipLines cs
    match rest with
    | '}' :: rest => return (es, rest)
    | rest =>
      let ((path, key, v), rest) ← pair? skipLines value rest
      let es ← assign? path key v .braces es
      let rest ← skipLines rest
      match rest with
      | ',' :: rest => entries? value fuel es rest
      | '}' :: rest => return (es, rest)
      | _ => none

/-- The value at the front, given a reader of the values inside it. -/
def valueWith? (inner : Option ValueReader) : ValueReader
  | [] => none
  | c :: cs =>
    if c = '\x22' ∨ c = '\x27' then (quoted? true (c :: cs)).map fun (s, rest) => (.str s, rest)
    else if c = '[' then do
      let value ← inner
      let (xs, rest) ← items? value (cs.length + 1) cs
      return (.array xs, rest)
    else if c = '{' then do
      let value ← inner
      let (es, rest) ← entries? value (cs.length + 1) [] cs
      return (.table .braces es, rest)
    else
      let (w, rest) := word (c :: cs)
      (scalar? w).map fun v => (v, rest)

/-- The value at the front, inside which arrays and tables may be nested `room` deep. -/
def value? : (room : Nat) → ValueReader
  | 0 => valueWith? none
  | room + 1 => valueWith? (some (value? room))

/-! ### Documents -/

/-- What was read so far. -/
structure Document where
  /-- The entries of the outermost table. -/
  entries : List (String × Toml) := []
  /-- The path of the table that keys go to. -/
  current : List String := []

/-- The document with one more key. -/
def Document.assign? (d : Document) (path : List String) (key : String) (v : Toml) :
    Option Document :=
  (atPath false (fun origin es => Toml.assign? path key v origin es) d.current .header
    d.entries).map fun es => { d with entries := es }

/-- The document with the table of a header open. -/
def Document.openTable? (d : Document) (path : List String) (key : String) : Option Document :=
  (Toml.openTable? path key d.entries).map fun es => ⟨es, path ++ [key]⟩

/-- The document with one more table of the array of a header open. -/
def Document.openElement? (d : Document) (path : List String) (key : String) : Option Document :=
  (Toml.openElement? path key d.entries).map fun es => ⟨es, path ++ [key]⟩

/-- Reads one line that holds a key or a header. -/
def line? (d : Document) (cs : List Char) : Option (Document × List Char) :=
  match cs with
  | '[' :: '[' :: rest => do
    let ((path, key), rest) ← path? rest
    match skipBlanks rest with
    | ']' :: ']' :: rest =>
      let d ← d.openElement? path key
      let rest ← endLine? rest
      return (d, rest)
    | _ => none
  | '[' :: rest => do
    let ((path, key), rest) ← path? rest
    match skipBlanks rest with
    | ']' :: rest =>
      let d ← d.openTable? path key
      let rest ← endLine? rest
      return (d, rest)
    | _ => none
  | rest => do
    let ((path, key, v), rest) ← pair? (some ∘ skipBlanks) (value? maxDepth) rest
    let d ← d.assign? path key v
    let rest ← endLine? rest
    return (d, rest)

/-- Reads all lines; `fuel` bounds their number. -/
def lines? : (fuel : Nat) → Document → List Char → Option Document
  | 0, d, _ => some d
  | fuel + 1, d, cs => do
    let rest ← skipLines cs
    match rest with
    | [] => some d
    | rest =>
      let (d, rest) ← line? d rest
      lines? fuel d rest

/-- The text without a byte order mark. -/
def skipMark (cs : List Char) : List Char :=
  match cs with
  | '\ufeff' :: rest => rest
  | rest => rest

/-- The document of a text, if it is TOML 1.1. -/
def read? (s : String) : Option Toml := do
  let cs := skipMark s.toList
  let d ← lines? (cs.length + 1) {} cs
  return .table .header d.entries

end Scaffold.Toml
