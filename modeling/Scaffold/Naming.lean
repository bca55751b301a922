/-
**Naming conventions.**

Transfer objects are found, and generated classes are named, by suffixes.

Main definitions:

* `Scaffold.Naming` — the suffixes;
* `Scaffold.Naming.stem` — the name of a contract without its suffix;
* `Scaffold.Naming.counterparts` — where the transfer object of a type is looked for;
* `Scaffold.Naming.failingMockName`, `Scaffold.Naming.stubName` — the names of generated classes.
-/

import Scaffold.Text.Affix

set_option relaxedAutoImplicit false
set_option autoImplicit false

namespace Scaffold

/-- The suffixes that names are made with. -/
structure Naming where
  /-- What follows the name of a type in that of its transfer object, in order of preference. -/
  dtoSuffixes : List String := ["DTO", "Dto"]
  /-- What is cut off the name of a contract. -/
  contractSuffixes : List String := ["Protocol", "Interface"]
  /-- What follows the stem of a contract in the name of its failing mock. -/
  failingMockSuffix : String := "FailingMock"
  /-- What follows the stem of a contract in the name of its stub. -/
  stubSuffix : String := "Stub"
deriving DecidableEq, Repr, Inhabited

namespace Naming

/-- The name without a suffix, unless nothing is left of it. -/
def stemWithout? (name suffix : String) : Option String :=
  (Text.dropSuffix? suffix name).filter fun stem => !stem.isEmpty

/-- The name of a contract without the first suffix that can be cut off. -/
def stem (n : Naming) (name : String) : String :=
  (n.contractSuffixes.findSome? (stemWithout? name)).getD name

/-- The names under which the transfer object of a type is looked for, in order. -/
def counterparts (n : Naming) (name : String) : List String :=
  n.dtoSuffixes.map (name ++ ·)

/-- The name of the failing mock of a contract. -/
def failingMockName (n : Naming) (name : String) : String := n.stem name ++ n.failingMockSuffix

/-- The name of the stub of a contract. -/
def stubName (n : Naming) (name : String) : String := n.stem name ++ n.stubSuffix

end Naming

end Scaffold
