/-
**The corpus of a run.**

The declarations of all units, each under its name.  Of several declarations with one name the
first is kept, and the others are problems.

Main definitions:

* `Scaffold.Corpus` — the declarations that are kept, in order;
* `Scaffold.Corpus.build` — the corpus of a list of declarations, with its problems;
* `Scaffold.Corpus.get?` — looking up a name.

Main results:

* `Scaffold.Corpus.name_of_get?` — what is found under a name has that name.
-/

import Scaffold.Problem.Basic

set_option relaxedAutoImplicit false
set_option autoImplicit false

namespace Scaffold

/-- The declarations of a run, in order. -/
structure Corpus where
  /-- The declarations with their markers. -/
  entries : List Entry := []
deriving DecidableEq, Inhabited

namespace Corpus

/-- The declarations without their markers. -/
def declarations (c : Corpus) : List Declaration := c.entries.map Entry.declaration

/-- The declaration under a name. -/
def get? (c : Corpus) (name : String) : Option Declaration :=
  c.declarations.find? fun d => d.name == name

/-- Whether a name is declared. -/
def contains (c : Corpus) (name : String) : Bool := (c.get? name).isSome

/-- The declaration with a given name inside another. -/
def nested? (c : Corpus) (parent child : String) : Option Declaration :=
  c.get? (parent ++ "." ++ child)

/-- The number of declarations. -/
def size (c : Corpus) : Nat := c.entries.length

/-- The problem of a declaration whose name is taken. -/
def duplicate (first later : Declaration) : Problem :=
  .malformed later.name none (.duplicate first.unit first.line) later.line

/-- The corpus with one more declaration, unless its name is taken. -/
def add (c : Corpus) (e : Entry) : Corpus :=
  match c.get? e.declaration.name with
  | some _ => c
  | none =>
    ⟨c.entries ++ [{ e with declaration := { e.declaration with position := c.size } }]⟩

/-- The problem of adding a declaration, if its name is taken. -/
def conflict? (c : Corpus) (e : Entry) : Option Problem :=
  (c.get? e.declaration.name).map fun first => duplicate first e.declaration

/-- The corpus with all declarations of a list, and a problem for each whose name is taken. -/
def addAll (c : Corpus) : List Entry → Corpus × List Problem
  | [] => (c, [])
  | e :: es =>
    let result := addAll (c.add e) es
    (result.1, (c.conflict? e).toList ++ result.2)

/-- The corpus of a list of declarations, and a problem for each whose name is taken. -/
def build (es : List Entry) : Corpus × List Problem := addAll {} es

/-- What is found under a name has that name. -/
theorem name_of_get? {c : Corpus} {name : String} {d : Declaration} (h : c.get? name = some d) :
    d.name = name := by
  simpa using List.find?_some h

end Corpus

end Scaffold
