/-
**Stubs.**

A stub of a contract is a class with settable results: every method counts its calls, remembers
its arguments, throws the error it was given and otherwise returns the result it was given.

Main definitions:

* `Scaffold.Stub.storageCode` — the stored properties of a method;
* `Scaffold.Stub.methodCode` — the method itself;
* `Scaffold.Stub.generate` — the artifact, or the results without a value.
-/

import Scaffold.FailingMock
import Scaffold.Fixture

set_option relaxedAutoImplicit false
set_option autoImplicit false

namespace Scaffold.Stub

/-- The type of remembered arguments: that of a single one, or a labeled tuple. -/
def receivedType : List Parameter → String
  | [p] => p.type.storage.render
  | ps => "(" ++ ", ".intercalate (ps.map fun p => p.name ++ ": " ++ p.type.storage.render) ++ ")"

/-- The arguments to remember. -/
def receivedValue : List Parameter → String
  | [p] => p.name
  | ps => "(" ++ ", ".intercalate (ps.map fun p => p.name ++ ": " ++ p.name) ++ ")"

/-- The lines of the stored properties of a method, given the value of its result. -/
def storageLines (key : String) (m : Method) (value : Option String) : List String :=
  (value.toList.map fun v =>
    "    var " ++ key ++ "Result: " ++ m.result.storage.render ++ " = " ++ v) ++
  (if m.effects.isThrowing then ["    var " ++ key ++ "Error: (any Error)?"] else []) ++
  ["    private(set) var " ++ key ++ "CallCount = 0"] ++
  (if m.params.isEmpty then []
    else ["    private(set) var " ++ key ++ "Received: [" ++ receivedType m.params ++ "] = []"])

/-- The stored properties of a method. -/
def storageCode (key : String) (m : Method) (value : Option String) : String :=
  "\n".intercalate (storageLines key m value)

/-- A method that counts, remembers, and throws or returns what it was given. -/
def methodCode (key : String) (m : Method) : String :=
  "\n    " ++ m.render ++ " \x7b\n" ++
  "        " ++ key ++ "CallCount += 1\n" ++
  (if m.params.isEmpty then ""
    else "        " ++ key ++ "Received.append(" ++ receivedValue m.params ++ ")\n") ++
  (if m.effects.isThrowing then
    "        if let error = " ++ key ++ "Error \x7b\n" ++
    "            throw error\n" ++
    "        \x7d\n"
   else "") ++
  (if m.returnsValue then "        return " ++ key ++ "Result\n" else "") ++
  "    \x7d\n"

/-- The value of a method's result, if it has a result and the result has a value. -/
def resultValue? (fixtures : FixtureTable) (m : Method) : Option String :=
  if m.returnsValue then fixtures.value? m.result else none

/-- The problem of a method whose result has no value. -/
def missing? (fixtures : FixtureTable) (declaration : String) (m : Method) : Option Problem :=
  if m.returnsValue && (fixtures.value? m.result).isNone then
    some (.missingFixture declaration m.selector m.result.render)
  else none

/-- The text of a stub. -/
def code (fixtures : FixtureTable) (name contract : String) (r : Requirements) : String :=
  let keyed := r.methods.zip (storageKeys r.methods)
  let storage := keyed.map fun (m, key) => storageCode key m (resultValue? fixtures m)
  classOpening name contract ++ "\n\n".intercalate storage ++
    (if storage.isEmpty then "" else "\n") ++ r.initializerCode ++
    String.join (keyed.map fun (m, key) => methodCode key m) ++ "\x7d\n"

/-- The stub of a contract, or a problem for each result without a value. -/
def generate (ctx : Context) (d : Declaration) : Generated :=
  let r := ctx.corpus.requirements d
  let fixtures : FixtureTable := ⟨ctx.corpus, ctx.provider, ctx.settings.fixtures⟩
  match r.methods.filterMap (missing? fixtures d.name) with
  | [] =>
    let artifact : Artifact :=
      { strategy := .stub
        declaration := d.name
        fragments := [code fixtures (ctx.settings.naming.stubName d.simpleName) d.name r]
        imports := NameSet.ofList ["Foundation"] }
    .ok [artifact.referAll (r.references ctx.corpus)]
  | problems => .error problems

end Scaffold.Stub
