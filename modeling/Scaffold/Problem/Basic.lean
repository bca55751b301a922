/-
**Problems of a run.**

Main definitions:

* `Scaffold.Obstacle` — why a strategy does not apply to a declaration;
* `Scaffold.Problem` — what can go wrong with a declaration, a strategy or a registration;
* `Scaffold.Problem.message`, `Scaffold.Problem.code`, `Scaffold.Problem.category` — how it is
  reported;
* `Scaffold.Problem.about`, `Scaffold.Problem.member?` — what it concerns.
-/

import Scaffold.Tag
import Scaffold.Problem.Reason

set_option relaxedAutoImplicit false
set_option autoImplicit false

namespace Scaffold

/-- Where a problem comes from. -/
inductive Category where
  /-- A declaration that could not be read. -/
  | parse
  /-- A strategy that could not be applied to a declaration. -/
  | strategy
  /-- The pairing of contracts with implementations. -/
  | registration
deriving DecidableEq, Repr

/-- The word for a category. -/
def Category.word : Category → String
  | .parse => "parse"
  | .strategy => "strategy"
  | .registration => "registration"

/-- Why a strategy does not apply to a declaration. -/
inductive Obstacle where
  /-- A composition is asked for without a feature. -/
  | requiresFeature
  /-- Something other than a protocol. -/
  | expectedProtocol (found : Form)
  /-- An enumeration, which cannot be registered. -/
  | expectedConcrete
  /-- Something other than a struct. -/
  | expectedStruct (found : Form)
  /-- A protocol, which cannot be mapped. -/
  | mappedProtocol
  /-- A class or an actor, which cannot be mapped. -/
  | mappedReference (found : ValueForm)
  /-- An enumeration whose cases carry values, which cannot be mapped. -/
  | mappedValues
  /-- None of the candidates for a counterpart is declared. -/
  | noCounterpart (candidates : List String)
  /-- The counterpart has another form. -/
  | counterpartForm (counterpart : String) (found expected : Form)
  /-- No counterpart was settled for the declaration. -/
  | unresolvedCounterpart
deriving DecidableEq, Repr

/-- The wording of an obstacle. -/
def Obstacle.message : Obstacle → String
  | .requiresFeature => "requires `describesFeature`"
  | .expectedProtocol found => "expected a protocol, found a " ++ found.keyword
  | .expectedConcrete => "expected a protocol or a concrete type, found an enum"
  | .expectedStruct found => "expected a struct, found a " ++ found.keyword
  | .mappedProtocol => "expected a struct or enum, found a protocol"
  | .mappedReference found =>
    "mapping initializers are only generated for structs and enums, found a " ++ found.keyword
  | .mappedValues => "enums with associated values cannot be mapped"
  | .noCounterpart candidates =>
    "no counterpart declaration found (looked for " ++ ", ".intercalate candidates ++ ")"
  | .counterpartForm counterpart found expected =>
    "counterpart `" ++ counterpart ++ "` is a " ++ found.keyword ++ ", expected a " ++
      expected.keyword
  | .unresolvedCounterpart => "no counterpart declaration resolved"

/-- What can go wrong in a run. -/
inductive Problem where
  /-- A declaration or one of its members could not be read. -/
  | malformed (declaration : String) (member : Option String) (reason : Reason) (line : Nat)
  /-- A declaration does not meet what a strategy needs. -/
  | unresolvable (declaration : String) (tag : Tag) (obstacle : Obstacle)
  /-- A stub has no value for the result of a method. -/
  | missingFixture (declaration member type : String)
  /-- A pair of types has fields or cases that do not fit. -/
  | incompatible (declaration counterpart : String) (fields : List String)
  /-- Several types stand for one contract or one accessor. -/
  | ambiguous (contract : String) (candidates : List String)
  /-- No type stands for a contract. -/
  | unregistered (contract : String)
  /-- A feature composes one that is not declared before it. -/
  | compositionOrder (declaration field child : String)
deriving DecidableEq, Repr

namespace Problem

/-- The number of a problem's kind. -/
def code : Problem → Nat
  | .malformed .. => 1
  | .unresolvable .. => 2
  | .missingFixture .. => 3
  | .incompatible .. => 4
  | .ambiguous .. => 5
  | .unregistered .. => 6
  | .compositionOrder .. => 7

/-- Where a problem comes from. -/
def category : Problem → Category
  | .malformed .. => .parse
  | .unresolvable .. => .strategy
  | .missingFixture .. => .strategy
  | .incompatible .. => .strategy
  | .compositionOrder .. => .strategy
  | .ambiguous .. => .registration
  | .unregistered .. => .registration

/-- The declaration, or for registrations the contract, that a problem concerns. -/
def about : Problem → String
  | .malformed declaration .. => declaration
  | .unresolvable declaration .. => declaration
  | .missingFixture declaration .. => declaration
  | .incompatible declaration .. => declaration
  | .compositionOrder declaration .. => declaration
  | .ambiguous contract _ => contract
  | .unregistered contract => contract

/-- The member or field that a problem concerns, if it is exactly one. -/
def member? : Problem → Option String
  | .malformed _ member _ _ => member
  | .missingFixture _ member _ => some member
  | .compositionOrder _ field _ => some field
  | .incompatible _ _ [field] => some field
  | _ => none

/-- The wording of a problem. -/
def message : Problem → String
  | .malformed declaration member reason line =>
    "malformed declaration `" ++ declaration ++ "`" ++
      (match member with
        | some m => ", member `" ++ m ++ "`"
        | none => "") ++
      " (line " ++ toString line ++ "): " ++ reason.message
  | .unresolvable declaration tag obstacle =>
    "cannot apply `" ++ tag.word ++ "` to `" ++ declaration ++ "`: " ++ obstacle.message
  | .missingFixture declaration member type =>
    "missing fixture for `" ++ type ++ "` returned by `" ++ declaration ++ "." ++ member ++ "`"
  | .incompatible declaration counterpart fields =>
    "cannot map `" ++ counterpart ++ "` to `" ++ declaration ++ "`: unmatched fields " ++
      ", ".intercalate fields
  | .ambiguous contract candidates =>
    "ambiguous registration for `" ++ contract ++ "`: candidates " ++
      ", ".intercalate candidates
  | .unregistered contract =>
    "no annotated implementation registered for `" ++ contract ++ "`"
  | .compositionOrder declaration field child =>
    "feature `" ++ declaration ++ "` composes `" ++ child ++ "` in field `" ++ field ++
      "` before it is declared"

end Problem

end Scaffold
