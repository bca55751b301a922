/-
**Settings of a run.**

Main definitions:

* `Scaffold.Settings` — what a run can be told, with the default values;
* `Scaffold.Settings.Invalid`, `Scaffold.Settings.validate` — settings that make no sense.
-/

import Scaffold.Tag
import Scaffold.Name.Map
import Scaffold.Naming
import Scaffold.Text.Blank

set_option relaxedAutoImplicit false
set_option autoImplicit false

namespace Scaffold

/-- What a run can be told. -/
structure Settings where
  /-- The strategies to run, each once and in order. -/
  strategies : List Strategy := Strategy.all
  /-- Expressions for values, by the spelling of their type. -/
  fixtures : NameMap String := {}
  /-- Whether several implementations of one contract are a problem. -/
  failOnAmbiguousRegistration : Bool := true
  /-- Whether fields of a transfer object without a target are a problem. -/
  strictSourceFields : Bool := true
  /-- What marker comments start with. -/
  markerPrefix : String := "sourcery:"
  /-- How many workers to use; it changes no result. -/
  jobs : Nat := 0
  /-- The naming conventions. -/
  naming : Naming := {}
deriving DecidableEq, Inhabited

namespace Settings

/-- The settings restricted to the strategies of a list. -/
def withStrategies (s : Settings) (strategies : List Strategy) : Settings :=
  { s with strategies := Strategy.all.filter strategies.contains }

/-- Whether a strategy is to be run. -/
def runs (s : Settings) (strategy : Strategy) : Bool := s.strategies.contains strategy

/-- Why settings make no sense. -/
inductive Invalid where
  /-- There is nothing to run. -/
  | noStrategies
  /-- Markers cannot be recognized. -/
  | emptyPrefix
  /-- A fixture has no type or no expression. -/
  | emptyFixture (type : String)
  /-- Transfer objects cannot be found. -/
  | emptyDtoSuffixes
  /-- A suffix of contracts is empty. -/
  | emptyContractSuffix
  /-- A suffix of generated classes is empty. -/
  | emptyClassSuffix
  /-- Failing mocks and stubs would share their names. -/
  | equalClassSuffixes
deriving DecidableEq, Repr

/-- The wording of invalid settings. -/
def Invalid.message (i : Invalid) : String :=
  "invalid configuration: " ++
    match i with
    | .noStrategies => "no strategies enabled"
    | .emptyPrefix => "marker_prefix cannot be empty"
    | .emptyFixture type => "fixture entry `" ++ type ++ "` needs a type and an expression"
    | .emptyDtoSuffixes => "naming.dto_suffixes needs at least one non-empty suffix"
    | .emptyContractSuffix => "naming.contract_suffixes cannot contain an empty suffix"
    | .emptyClassSuffix => "mock and stub suffixes cannot be empty"
    | .equalClassSuffixes => "mock and stub suffixes must differ"

/-- Whether a text has nothing but blanks. -/
def isBlankText (s : String) : Bool := s.toList.all Text.isBlank

/-- The first fixture, by its type, that lacks a type or an expression. -/
def badFixture? (s : Settings) : Option String :=
  (s.fixtures.entries.find? fun e => isBlankText e.1 || isBlankText e.2).map Prod.fst

/-- The first thing that makes no sense in the naming conventions. -/
def invalidNaming? (n : Naming) : Option Invalid :=
  if n.dtoSuffixes.all String.isEmpty then some .emptyDtoSuffixes
  else if n.contractSuffixes.any String.isEmpty then some .emptyContractSuffix
  else if n.failingMockSuffix.isEmpty || n.stubSuffix.isEmpty then some .emptyClassSuffix
  else if n.failingMockSuffix = n.stubSuffix then some .equalClassSuffixes
  else none

/-- The first thing that makes no sense in the settings. -/
def invalid? (s : Settings) : Option Invalid :=
  if s.strategies.isEmpty then some .noStrategies
  else if isBlankText s.markerPrefix then some .emptyPrefix
  else
    match s.badFixture? with
    | some type => some (.emptyFixture type)
    | none => invalidNaming? s.naming

/-- Accepts settings that make sense. -/
def validate (s : Settings) : Except Invalid Unit :=
  match s.invalid? with
  | some i => .error i
  | none => .ok ()

end Settings

end Scaffold
