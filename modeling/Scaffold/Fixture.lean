/-
**Values for results.**

A stub needs a value of each result type.  Provided expressions come first, then configured ones,
then what the type itself allows: a default of a primitive type, an empty collection, a closure,
the first case of an enumeration, or a call of an initializer all of whose arguments have values.

Main definitions:

* `Scaffold.primitiveValue?` — the default of a primitive type;
* `Scaffold.FixtureProvider` — expressions that the caller of a run gives for types;
* `Scaffold.FixtureTable.value?` — an expression for a type, if there is one.
-/

import Scaffold.Corpus
import Scaffold.Name.Map
import Scaffold.TypeRef.Printer

set_option relaxedAutoImplicit false
set_option autoImplicit false

namespace Scaffold

/-- The names of the primitive types whose default is zero. -/
def numericNames : List String :=
  ["Int", "Int8", "Int16", "Int32", "Int64", "UInt", "UInt8", "UInt16", "UInt32", "UInt64",
   "Double", "Float", "CGFloat", "Decimal"]

/-- The default of a primitive type. -/
def primitiveValue? (name : String) : Option String :=
  if numericNames.contains name then some "0"
  else
    [("String", "\"\""), ("Character", "\" \""), ("Bool", "false"), ("Void", "()"),
      ("Date", "Date()"), ("Data", "Data()"), ("UUID", "UUID()"),
      ("URL", "URL(fileURLWithPath: \"/\")")].lookup name

/-- What the caller of a run gives: an expression for a type, or nothing. -/
structure FixtureProvider where
  /-- The expression for a type. -/
  fixture? : TypeRef → Option String

namespace FixtureProvider

/-- The provider that knows no type. -/
def empty : FixtureProvider := ⟨fun _ => none⟩

instance : EmptyCollection FixtureProvider := ⟨empty⟩
instance : Inhabited FixtureProvider := ⟨empty⟩

/-- The provider that looks up the spelling of a type. -/
def ofTable (table : NameMap String) : FixtureProvider := ⟨fun t => table.find? t.render⟩

instance : Coe (NameMap String) FixtureProvider := ⟨ofTable⟩

end FixtureProvider

/-- Where values come from. -/
structure FixtureTable where
  /-- The declarations that can be constructed. -/
  corpus : Corpus
  /-- The expressions that come first. -/
  provided : FixtureProvider
  /-- The expressions that come second, by the spelling of their type. -/
  configured : NameMap String

namespace FixtureTable

/-- The expression that is given for a type. -/
def given? (f : FixtureTable) (t : TypeRef) : Option String :=
  (f.provided.fixture? t).or ((FixtureProvider.ofTable f.configured).fixture? t)

/-- A closure that ignores its parameters and yields a value, if it is to yield one. -/
def closure (params : Nat) (result : Option String) : String :=
  let names := ", ".intercalate (List.replicate params "_")
  match params, result with
  | 0, none => "\x7b\x7d"
  | 0, some r => "\x7b " ++ r ++ " \x7d"
  | _, none => "\x7b " ++ names ++ " in \x7d"
  | _, some r => "\x7b " ++ names ++ " in " ++ r ++ " \x7d"

/-- An expression for a type, given one for each declared type. -/
def valueWith? (f : FixtureTable) (declared : String → Option String) : TypeRef → Option String
  | .function attributes params effects result =>
    (f.given? (.function attributes params effects result)).or
      (if result.isVoid then some (closure params.length none)
        else (valueWith? f declared result).map fun r => closure params.length (some r))
  | .primitive name => (f.given? (.primitive name)).or (primitiveValue? name)
  | .sequence element => (f.given? (.sequence element)).or (some "[]")
  | .mapping key value => (f.given? (.mapping key value)).or (some "[:]")
  | .optional wrapped => (f.given? (.optional wrapped)).or (some "nil")
  | .named name [] => (f.given? (.named name [])).or (declared name)
  | .named name args => f.given? (.named name args)
  | .existential constraint => f.given? (.existential constraint)

/-- All arguments with their labels, if all have values. -/
def arguments? (value : TypeRef → Option String) :
    List (Option String × TypeRef) → Option (List String)
  | [] => some []
  | (label, t) :: rest => do
    let v ← value t
    let vs ← arguments? value rest
    return (match label with
      | some l => l ++ ": " ++ v
      | none => v) :: vs

/-- A call with the given arguments, if all have values. -/
def call? (value : TypeRef → Option String) (name : String)
    (args : List (Option String × TypeRef)) : Option String :=
  (arguments? value args).map fun vs => name ++ "(" ++ ", ".intercalate vs ++ ")"

/-- The fields that the memberwise initializer needs. -/
def memberwise (v : ValueType) : List (Option String × TypeRef) :=
  (v.fields.filter fun f => f.default.isNone).map fun f => (some f.name, f.type)

/-- The parameters that a call of an initializer needs. -/
def needed (i : Initializer) : List (Option String × TypeRef) :=
  (i.params.filter fun p => p.default.isNone).map fun p => (p.label, p.type)

/-- A call that constructs a value type: of the memberwise initializer where none is declared, and
otherwise of the first plain initializer whose arguments have values.  Only structs have a
memberwise initializer with arguments. -/
def construct? (value : TypeRef → Option String) (name : String) (v : ValueType) :
    Option String :=
  if v.initializers.isEmpty then
    if v.form ≠ .struct ∧ memberwise v ≠ [] then none else call? value name (memberwise v)
  else
    (v.initializers.filter fun i => !i.effects.isAsync && !i.effects.isThrowing).findSome?
      fun i => call? value name (needed i)

/-- An expression for a declared type that is not among those being constructed.  Declared types
may be nested `room` deep. -/
def declaredValue? (f : FixtureTable) :
    (room : Nat) → (visiting : List String) → String → Option String
  | 0, _, _ => none
  | room + 1, visiting, name =>
    match f.corpus.get? name with
    | none => none
    | some d =>
      -- a value that needs one of its own type is never finished
      if visiting.contains name then none
      else
        match d.shape with
        | .contract _ => none
        | .enumeration e =>
          if e.hasAssociatedValues then none else e.cases.head?.map fun c => name ++ "." ++ c
        | .value v =>
          construct? (f.valueWith? (declaredValue? f room (name :: visiting))) name v

/-- An expression for a type, if there is one.  Declared types that are nested have different
names, so there are at most as many levels as declarations. -/
def value? (f : FixtureTable) (t : TypeRef) : Option String :=
  f.valueWith? (f.declaredValue? (f.corpus.size + 1) []) t

end FixtureTable

end Scaffold
