/-
**The table of dependencies.**

Annotated contracts are paired with the annotated types that implement them, and every pair and
every remaining type gets an accessor.  Entries that would share an accessor are left out.

Main definitions:

* `Scaffold.Registration` — one entry of the table;
* `Scaffold.Registration.implements` — whether a type implements a contract, by saying so or by its
  members;
* `Scaffold.Registration.plan` — the entries and the problems of a run;
* `Scaffold.Registration.generate` — the artifact of the table.
-/

import Scaffold.Context
import Scaffold.Requirements
import Scaffold.Text.Case

set_option relaxedAutoImplicit false
set_option autoImplicit false

namespace Scaffold

/-- One entry of the table of dependencies. -/
structure Registration where
  /-- The name of the accessor. -/
  accessor : String
  /-- The type behind it. -/
  concrete : String
  /-- The contract that the type stands for, if it stands for one. -/
  contract : Option String
deriving DecidableEq, Repr, Inhabited

namespace Registration

/-! ### Implementations -/

/-- Whether an implementation may have its effects: it may drop those that are required, and add
none. -/
def effectsFit (required actual : Effects) : Bool :=
  (!actual.isAsync || required.isAsync) && (!actual.isThrowing || required.isThrowing)

/-- Whether a parameter can stand for a required one. -/
def sameParameter (required actual : Parameter) : Bool :=
  required.label == actual.label && required.type == actual.type &&
    required.isInout == actual.isInout

/-- Whether parameters can stand for required ones. -/
def sameParameters (required actual : List Parameter) : Bool :=
  required.length == actual.length && (required.zip actual).all fun (r, a) => sameParameter r a

/-- Whether a method can stand for a required one. -/
def methodFits (required actual : Method) : Bool :=
  actual.name == required.name && sameParameters required.params actual.params &&
    actual.result == required.result && effectsFit required.effects actual.effects

/-- Whether a field holds a function that can stand for a required method. -/
def fieldFits (required : Method) (f : Field) : Bool :=
  match f.type with
  | .function _ params effects result =>
    params == required.params.map Parameter.type && result == required.result &&
      effects == required.effects
  | _ => false

/-- Whether a value type has a member that can stand for a required method. -/
def satisfiesMethod (v : ValueType) (required : Method) : Bool :=
  v.methods.any (methodFits required) || (v.field? required.name).any (fieldFits required)

/-- Whether fields are the labeled parameters of a required initializer. -/
def fieldsFit (required : Initializer) (fields : List Field) : Bool :=
  fields.length == required.params.length &&
    (fields.zip required.params).all fun (f, p) => p.label == some f.name && p.type == f.type

/-- Whether the memberwise initializer of a struct can stand for a required one, with or without
the fields that have a default. -/
def memberwiseFits (v : ValueType) (required : Initializer) : Bool :=
  let settable := v.fields.filter fun f => f.isMutable || f.default.isNone
  fieldsFit required settable || fieldsFit required (settable.filter fun f => f.default.isNone)

/-- Whether a value type has an initializer that can stand for a required one. -/
def satisfiesInitializer (v : ValueType) (required : Initializer) : Bool :=
  v.initializers.any (fun i =>
      sameParameters required.params i.params && effectsFit required.effects i.effects) ||
    (v.form == .struct && v.initializers.isEmpty && memberwiseFits v required)

/-- Whether a value type says that it conforms to a contract. -/
def declares (v : ValueType) (contract : Declaration) : Bool :=
  v.conformances.any fun c => c == contract.name || c == contract.simpleName

/-- Whether a value type implements a contract, by saying so or by its members. -/
def implements (contract : Declaration) (r : Requirements) (v : ValueType) : Bool :=
  declares v contract ||
    (r.methods.all (satisfiesMethod v) && r.initializers.all (satisfiesInitializer v))

/-! ### Entries -/

/-- The declarations to register. -/
def annotated (ctx : Context) : List Declaration :=
  ctx.corpus.declarations.filter fun d => ctx.runs d.name .registration

/-- The value types to register. -/
def concretes (ctx : Context) : List (Declaration × ValueType) :=
  (annotated ctx).filterMap fun d => d.value?.map fun v => (d, v)

/-- The contracts to register. -/
def contracts (ctx : Context) : List Declaration :=
  (annotated ctx).filter fun d => d.contract?.isSome

/-- The value types that implement a contract. -/
def candidates (ctx : Context) (contract : Declaration) : List Declaration :=
  let r := ctx.corpus.requirements contract
  ((concretes ctx).filter fun (_, v) => implements contract r v).map Prod.fst

/-- The choice among several candidates: the first whose name starts with the stem of the
contract, or else the first. -/
def preferred (stem : String) (first : Declaration) (others : List Declaration) : Declaration :=
  ((first :: others).find? fun d => Text.startsWith stem d.simpleName).getD first

/-- What registering a contract yields. -/
structure Pairing where
  /-- The entry, if there is a choice. -/
  entry : Option Registration
  /-- The problem, if there is none. -/
  problem : Option Problem
  /-- The types that need no entry of their own any more. -/
  claimed : List String

/-- Pairs a contract with one of its candidates. -/
def pair (ctx : Context) (contract : Declaration) : Pairing :=
  let stem := ctx.settings.naming.stem contract.simpleName
  let entry := fun (d : Declaration) =>
    some { accessor := Text.lowerCamel stem, concrete := d.name, contract := some contract.name }
  match candidates ctx contract with
  | [] => ⟨none, some (.unregistered contract.name), []⟩
  | [only] => ⟨entry only, none, [only.name]⟩
  | first :: others =>
    let names := (first :: others).map Declaration.name
    if ctx.settings.failOnAmbiguousRegistration then
      ⟨none, some (.ambiguous contract.name names), names⟩
    else ⟨entry (preferred stem first others), none, names⟩

/-- The entries of value types that stand for no contract. -/
def unclaimed (ctx : Context) (claimed : List String) : List Registration :=
  ((concretes ctx).filter fun (d, _) => !claimed.contains d.name).map fun (d, _) =>
    { accessor := Text.lowerCamel d.simpleName, concrete := d.name, contract := none }

/-- The types behind each accessor. -/
def byAccessor (entries : List Registration) : NameMap (List String) :=
  entries.foldl (fun m e => m.alter e.accessor fun ns => ns.getD [] ++ [e.concrete]) {}

/-- The accessors with several types. -/
def clashes (entries : List Registration) : List (String × List String) :=
  (byAccessor entries).entries.filter fun (_, names) => 1 < names.length

/-- The entries of the table and all problems of registering. -/
def plan (ctx : Context) : List Registration × List Problem :=
  let pairings := (contracts ctx).map (pair ctx)
  let entries := pairings.filterMap Pairing.entry ++
    unclaimed ctx (pairings.flatMap Pairing.claimed)
  -- accessors of one name would not compile together, so none of them is kept
  let clashing := clashes entries
  (entries.filter fun e => !(clashing.map Prod.fst).contains e.accessor,
    pairings.filterMap Pairing.problem ++
      clashing.map fun (accessor, names) => .ambiguous accessor names)

/-! ### The table -/

/-- The name of the table. -/
def tableName : String := "DependencyValues"

/-- The accessor of an entry. -/
def entryCode (e : Registration) : String :=
  "    var " ++ e.accessor ++ ": " ++ e.concrete ++ " \x7b\n" ++
  "        get \x7b self[" ++ e.concrete ++ ".self] \x7d\n" ++
  "        set \x7b self[" ++ e.concrete ++ ".self] = newValue \x7d\n" ++
  "    \x7d\n"

/-- The text of the table. -/
def code (entries : List Registration) : String :=
  "extension DependencyValues \x7b\n" ++ "\n".intercalate (entries.map entryCode) ++ "\x7d\n"

/-- The artifact of the table, if it has entries, and all problems of registering. -/
def generate (ctx : Context) : Option Artifact × List Problem :=
  let (entries, problems) := plan ctx
  if entries.isEmpty then (none, problems)
  else
    let artifact : Artifact :=
      { strategy := .registration
        declaration := tableName
        fragments := [code entries]
        imports := NameSet.ofList ["Dependencies"] }
    (some (artifact.referAll (entries.flatMap fun e => e.concrete :: e.contract.toList)), problems)

end Registration

end Scaffold
