/-
**Settings in JSON.**

Settings are an object, in which unknown members are ignored and no known member occurs twice, or
an array of its members in order.  What is left out has its default.  The formats in which settings
are written agree in this and differ in some details, which make up a dialect.

Main definitions:

* `Scaffold.Settings.toJson` — writing;
* `Scaffold.Settings.Dialect` — what the formats differ in;
* `Scaffold.Settings.ofTree?` — reading from a tree;
* `Scaffold.Settings.ofJson?` — reading a text, in which nothing at all stands for the defaults;
* `Scaffold.Settings.ofValue?`, `Scaffold.Naming.ofValue?`, `Scaffold.Strategy.ofValue?` — reading
  values.
-/

import Scaffold.Json.Reader
import Scaffold.Settings.Basic

set_option relaxedAutoImplicit false
set_option autoImplicit false

namespace Scaffold

open Json (Tree)

/-- The naming conventions in JSON. -/
def Naming.toJson (n : Naming) : Json :=
  .obj [("dto_suffixes", .strs n.dtoSuffixes), ("contract_suffixes", .strs n.contractSuffixes),
    ("failing_mock_suffix", .str n.failingMockSuffix), ("stub_suffix", .str n.stubSuffix)]

/-- Settings in JSON. -/
def Settings.toJson (s : Settings) : Json :=
  .obj [("strategies", .strs (s.strategies.map Strategy.word)),
    ("fixtures", .obj (s.fixtures.entries.map fun e => (e.1, .str e.2))),
    ("fail_on_ambiguous_registration", .bool s.failOnAmbiguousRegistration),
    ("strict_source_fields", .bool s.strictSourceFields),
    ("marker_prefix", .str s.markerPrefix), ("jobs", .nat s.jobs), ("naming", s.naming.toJson)]

namespace Settings

/-- What the formats of settings differ in. -/
structure Dialect where
  /-- What may stand behind the name of a strategy. -/
  isNothing : Tree → Bool
  /-- What may stand under an unknown name. -/
  isIgnored : Tree → Bool
  /-- Whether an array may hold more than the members of a record. -/
  allowsSurplus : Bool

/-- In JSON, `null` stands for nothing. -/
def isNull : Tree → Bool
  | .null => true
  | _ => false

/-- The details of JSON. -/
def Dialect.json : Dialect :=
  { isNothing := isNull, isIgnored := fun _ => true, allowsSurplus := false }

/-! ### Reading members -/

/-- The known members of an object, none of which may occur twice. -/
def knownMembers? (dialect : Dialect) (names : List String) :
    List (Option String × Tree) → Option (List (String × Tree))
  | [] => some []
  | (none, _) :: _ => none
  | (some k, t) :: ms => do
    let rest ← knownMembers? dialect names ms
    if names.contains k then
      if (rest.lookup k).isSome then none else return (k, t) :: rest
    else if dialect.isIgnored t then return rest
    else none

/-- The members of a record with the given names. -/
def record? (dialect : Dialect) (names : List String) : Tree → Option (List (String × Tree))
  | .obj ms => knownMembers? dialect names ms
  | .arr xs =>
    if dialect.allowsSurplus || xs.length ≤ names.length then some (names.zip xs) else none
  | _ => none

/-- A member, or its default where it is left out. -/
def member? {α : Type} (ms : List (String × Tree)) (name : String) (value : α)
    (decode : Tree → Option α) : Option α :=
  match ms.lookup name with
  | some t => decode t
  | none => some value

/-- A string. -/
def string? : Tree → Option String
  | .str s => s
  | _ => none

/-- A truth value. -/
def bool? : Tree → Option Bool
  | .bool b => some b
  | _ => none

/-- A count. -/
def count? : Tree → Option Nat
  | .num n => n.bind Json.Number.count?
  | _ => none

/-- All values of a list. -/
def all? {α : Type} (decode : Tree → Option α) : List Tree → Option (List α)
  | [] => some []
  | t :: ts => do
    let x ← decode t
    let xs ← all? decode ts
    return x :: xs

/-- An array of values. -/
def list? {α : Type} (decode : Tree → Option α) : Tree → Option (List α)
  | .arr ts => all? decode ts
  | _ => none

/-- The members of an object whose values are strings. -/
def stringMembers? : List (Option String × Tree) → Option (List (String × String))
  | [] => some []
  | (k, t) :: ms => do
    let k ← k
    let s ← string? t
    let rest ← stringMembers? ms
    return (k, s) :: rest

/-- An object whose values are strings; the last of several equal keys counts. -/
def table? : Tree → Option (NameMap String)
  | .obj ms => (stringMembers? ms).map NameMap.ofList
  | _ => none

/-- A strategy: its name, or an object with its name and nothing. -/
def strategy? (dialect : Dialect) : Tree → Option Strategy
  | .str s => s.bind Strategy.ofName?
  | .obj [(k, t)] => if dialect.isNothing t then k.bind Strategy.ofName? else none
  | _ => none

/-! ### Reading settings -/

/-- Reads naming conventions. -/
def naming? (dialect : Dialect) (t : Tree) : Option Naming := do
  let standard : Naming := {}
  let ms ← record? dialect
    ["dto_suffixes", "contract_suffixes", "failing_mock_suffix", "stub_suffix"] t
  return {
    dtoSuffixes := ← member? ms "dto_suffixes" standard.dtoSuffixes (list? string?)
    contractSuffixes := ← member? ms "contract_suffixes" standard.contractSuffixes (list? string?)
    failingMockSuffix := ← member? ms "failing_mock_suffix" standard.failingMockSuffix string?
    stubSuffix := ← member? ms "stub_suffix" standard.stubSuffix string? }

/-- Reads settings from a tree. -/
def ofTree? (dialect : Dialect) (t : Tree) : Option Settings := do
  let standard : Settings := {}
  let ms ← record? dialect
    ["strategies", "fixtures", "fail_on_ambiguous_registration", "strict_source_fields",
      "marker_prefix", "jobs", "naming"] t
  let strategies ← member? ms "strategies" standard.strategies (list? (strategy? dialect))
  let settings : Settings := {
    fixtures := ← member? ms "fixtures" standard.fixtures table?
    failOnAmbiguousRegistration := ←
      member? ms "fail_on_ambiguous_registration" standard.failOnAmbiguousRegistration bool?
    strictSourceFields := ← member? ms "strict_source_fields" standard.strictSourceFields bool?
    markerPrefix := ← member? ms "marker_prefix" standard.markerPrefix string?
    jobs := ← member? ms "jobs" standard.jobs count?
    naming := ← member? ms "naming" standard.naming (naming? dialect) }
  return settings.withStrategies strategies

/-- Reads settings from a JSON text. -/
def ofJson? (text : String) : Option Settings :=
  if text.isEmpty then some {} else (Tree.read? text).bind (ofTree? .json)

/-- Reads settings from a JSON value. -/
def ofValue? (j : Json) : Option Settings := ofTree? .json (Tree.ofValue j)

end Settings

/-- Reads naming conventions from a JSON value. -/
def Naming.ofValue? (j : Json) : Option Naming := Settings.naming? .json (Tree.ofValue j)

/-- Reads a strategy from a JSON value. -/
def Strategy.ofValue? (j : Json) : Option Strategy := Settings.strategy? .json (Tree.ofValue j)

end Scaffold
