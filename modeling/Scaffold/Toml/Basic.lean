/-
**TOML documents.**

A document is a table that is built up line by line.  How a table came about decides what may still
be added to it: a table may be opened by a header once, dotted keys only extend tables made by
dotted keys, and a table written inline is closed.

Main definitions:

* `Scaffold.Toml` — the values, with the origin of every table;
* `Scaffold.Toml.assign?` — adding a key with its value;
* `Scaffold.Toml.openTable?`, `Scaffold.Toml.openElement?` — opening a table, or one more table of
  an array;
* `Scaffold.Toml.toTree` — a document as a tree of JSON.
-/

import Scaffold.Json.Reader

set_option relaxedAutoImplicit false
set_option autoImplicit false

namespace Scaffold

/-- How a table came about. -/
inductive Toml.Origin where
  /-- It has a header of its own, or is the document. -/
  | header
  /-- It lies on the way to a table with a header. -/
  | implied
  /-- It lies on the way to a dotted key. -/
  | dotted
  /-- It is written in braces. -/
  | braces
deriving DecidableEq, Repr

/-- A value of a TOML document. -/
inductive Toml where
  /-- A string. -/
  | str (s : String)
  /-- An integer. -/
  | int (n : Int)
  /-- A decimal number; infinities and the like are none. -/
  | float (n : Option Json.Number)
  /-- A truth value. -/
  | bool (b : Bool)
  /-- A date, a time, or both, in its one spelling. -/
  | date (text : String)
  /-- An array in brackets. -/
  | array (items : List Toml)
  /-- An array of tables with headers. -/
  | tables (items : List Toml)
  /-- A table. -/
  | table (origin : Toml.Origin) (entries : List (String × Toml))
deriving Repr, Inhabited

namespace Toml

/-! ### Building -/

/-- Entries with another value under a key that is there. -/
def replace (key : String) (v : Toml) (es : List (String × Toml)) : List (String × Toml) :=
  es.map fun e => if e.1 == key then (key, v) else e

/-- Whether dotted keys may go through a table. -/
def Origin.extends : Origin → Bool
  | .implied => true
  | .dotted => true
  | _ => false

/-- Changes the table at the end of a path by `f`, which is told its origin.  Tables on the way
that are missing are made; of an array of tables the last one is meant. -/
def atPath (viaDots : Bool) (f : Origin → List (String × Toml) → Option (List (String × Toml))) :
    List String → Origin → List (String × Toml) → Option (List (String × Toml))
  | [], origin, es => f origin es
  | key :: path, _, es =>
    match es.lookup key with
    | none =>
      let origin := if viaDots then .dotted else .implied
      (atPath viaDots f path origin []).map fun inner => es ++ [(key, .table origin inner)]
    | some (.table origin inner) =>
      -- a table in braces is complete, and one with a header is not extended by dotted keys
      if origin = .braces ∨ (viaDots ∧ !origin.extends) then none
      else
        (atPath viaDots f path origin inner).map fun inner =>
          replace key (.table origin inner) es
    | some (.tables items) =>
      match items.reverse with
      | .table origin inner :: before =>
        (atPath viaDots f path origin inner).map fun inner =>
          replace key (.tables (before.reverse ++ [.table origin inner])) es
      | _ => none
    | some _ => none

/-- Adds a value under a key that is not there. -/
def insertNew? (key : String) (v : Toml) (es : List (String × Toml)) :
    Option (List (String × Toml)) :=
  if (es.lookup key).isSome then none else some (es ++ [(key, v)])

/-- Adds a value under a dotted key to a table. -/
def assign? (path : List String) (key : String) (v : Toml) (origin : Origin)
    (es : List (String × Toml)) : Option (List (String × Toml)) :=
  atPath true (fun o inner => if path ≠ [] ∧ o ≠ .dotted then none else insertNew? key v inner)
    path origin es

/-- Opens the table of a header. -/
def openTable? (path : List String) (key : String) (es : List (String × Toml)) :
    Option (List (String × Toml)) :=
  atPath false (fun _ inner =>
      match inner.lookup key with
      | none => some (inner ++ [(key, .table .header [])])
      | some (.table .implied old) => some (replace key (.table .header old) inner)
      | some _ => none)
    path .header es

/-- Opens one more table of the array of a header. -/
def openElement? (path : List String) (key : String) (es : List (String × Toml)) :
    Option (List (String × Toml)) :=
  atPath false (fun _ inner =>
      match inner.lookup key with
      | none => some (inner ++ [(key, .tables [.table .header []])])
      | some (.tables items) =>
        some (replace key (.tables (items ++ [.table .header []])) inner)
      | some _ => none)
    path .header es

/-! ### As JSON -/

/-- The member that stands for a date. -/
def dateKey : String := "$__toml_private_datetime"

/-- Whether an integer fits into 128 bits, with or without a sign. -/
def fits (n : Int) : Bool :=
  -Int.ofNat (Nat.pow 2 127) ≤ n && n < Int.ofNat (Nat.pow 2 128)

/-- An integer as a JSON number. -/
def number (n : Int) : Json.Number := .integer (n < 0) n.natAbs

mutual

/-- A value as a tree of JSON. -/
def toTree : Toml → Json.Tree
  | .str s => .str (some s)
  | .int n => .num (if fits n then some (number n) else none)
  | .float none => .num (some (.decimal false 0 0))
  | .float (some n) => .num (if n.isFinite then some n else none)
  | .bool b => .bool b
  | .date text => .obj [(some dateKey, .str (some text))]
  | .array items => .arr (toTrees items)
  | .tables items => .arr (toTrees items)
  | .table _ es => .obj (toMembers es)

/-- Values as trees of JSON. -/
def toTrees : List Toml → List Json.Tree
  | [] => []
  | x :: xs => toTree x :: toTrees xs

/-- Entries as members of an object. -/
def toMembers : List (String × Toml) → List (Option String × Json.Tree)
  | [] => []
  | (k, x) :: es => (some k, toTree x) :: toMembers es

end

end Toml

end Scaffold
