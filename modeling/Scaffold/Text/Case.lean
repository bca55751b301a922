/-
**Upper and lower case.**

Single characters are raised and lowered by the full Unicode mappings, which may yield several
characters (`ß` is raised to `SS`).  On names this gives the two conventions of generated code: a
capitalised word, and a property name made from a type name.

Main definitions:

* `Scaffold.Text.isUpper`, `Scaffold.Text.isLower` — the properties *Uppercase* and *Lowercase*;
* `Scaffold.Text.raise`, `Scaffold.Text.lower` — the mappings of one character;
* `Scaffold.Text.capitalize` — a text with its first character raised;
* `Scaffold.Text.lowerCamel` — a type name as a property name.
-/

import Scaffold.Text.CaseTable

set_option relaxedAutoImplicit false
set_option autoImplicit false

namespace Scaffold.Text

/-- The characters with the property *Uppercase*. -/
def isUpper (c : Char) : Bool :=
  if c.toNat < 128 then c.isUpper else inRuns uppercaseRuns c

/-- The characters with the property *Lowercase*. -/
def isLower (c : Char) : Bool :=
  if c.toNat < 128 then c.isLower else inRuns lowercaseRuns c

/-- The image of a character under a table of expansions and a table of runs. -/
def mapCase (expansions : List (Nat × List Nat)) (runs : List CaseRun) (c : Char) : List Char :=
  match expansions.lookup c.toNat with
  | some ns => ns.map Char.ofNat
  | none => [(runs.findSome? fun r => r.apply? c).getD c]

/-- The upper case form of a character. -/
def raise (c : Char) : List Char :=
  if c.toNat < 128 then [c.toUpper] else mapCase raisingExpansions raisingRuns c

/-- The lower case form of a character. -/
def lower (c : Char) : List Char :=
  if c.toNat < 128 then [c.toLower] else mapCase loweringExpansions loweringRuns c

/-- The text with its first character raised. -/
def capitalize (s : String) : String :=
  match s.toList with
  | [] => ""
  | c :: cs => String.ofList (raise c ++ cs)

/-- How many of the leading capitals of a type name are lowered: a single one, all of them when
nothing else follows, and otherwise all but the one that starts the next word. -/
def loweredRun (cs : List Char) : Nat :=
  let run := (cs.takeWhile isUpper).length
  match run, cs.drop run with
  | 0, _ => 0
  | 1, _ => 1
  | n, [] => n
  | n, c :: _ => if isLower c then n - 1 else n

/-- A type name as a property name: `URLSession` becomes `urlSession`. -/
def lowerCamel (s : String) : String :=
  let cs := s.toList
  let n := loweredRun cs
  String.ofList ((cs.take n).flatMap lower ++ cs.drop n)

end Scaffold.Text
