/-
**Failing mocks.**

A failing mock of a contract is a class whose methods all fail: those that may throw throw, and
the others abort.

Main definitions:

* `Scaffold.Requirements.mentions` — the declared names in the signatures of a contract;
* `Scaffold.FailingMock.code` — the text of the class;
* `Scaffold.FailingMock.generate` — the artifact.
-/

import Scaffold.Context
import Scaffold.Requirements
import Scaffold.Signature

set_option relaxedAutoImplicit false
set_option autoImplicit false

namespace Scaffold

/-- The names in the signatures that a contract requires. -/
def Requirements.mentions (r : Requirements) : NameSet :=
  NameSet.ofList (Declaration.methodMentions r.methods ++
    Declaration.initializerMentions r.initializers)

/-- The declarations that the signatures of a contract refer to. -/
def Requirements.references (r : Requirements) (corpus : Corpus) : List String :=
  r.mentions.toList.filter corpus.contains

/-- The required initializers with empty bodies. -/
def Requirements.initializerCode (r : Requirements) : String :=
  String.join (r.initializers.map fun i => "\n    " ++ i.render ++ " \x7b\x7d\n")

/-- The first line of a generated class. -/
def classOpening (name contract : String) : String :=
  "final class " ++ name ++ ": " ++ contract ++ " \x7b\n"

namespace FailingMock

/-- The nested error type and the property that overrides it. -/
def failureCode : String :=
  "    enum Failure: Error, Equatable \x7b\n" ++
  "        case unimplemented(String)\n" ++
  "    \x7d\n\n" ++
  "    var failure: (any Error)?\n"

/-- A method that fails. -/
def methodCode (m : Method) : String :=
  if m.effects.isThrowing then
    "\n    " ++ m.render ++ " \x7b\n" ++
    "        throw failure ?? Failure.unimplemented(\"" ++ m.selector ++ "\")\n" ++
    "    \x7d\n"
  else
    "\n    // Aborts: `" ++ m.selector ++ "` has no failure channel.\n" ++
    "    " ++ m.render ++ " \x7b\n" ++
    "        fatalError(\"unimplemented: " ++ m.selector ++ "\")\n" ++
    "    \x7d\n"

/-- The text of a failing mock. -/
def code (name contract : String) (r : Requirements) : String :=
  classOpening name contract ++ failureCode ++ r.initializerCode ++
    String.join (r.methods.map methodCode) ++ "\x7d\n"

/-- The remarks about methods that abort. -/
def notes (r : Requirements) : List String :=
  (r.methods.filter fun m => !m.effects.isThrowing).map fun m =>
    "`" ++ m.selector ++ "` cannot throw; calling it aborts"

/-- The failing mock of a contract. -/
def generate (ctx : Context) (d : Declaration) : Generated :=
  let r := ctx.corpus.requirements d
  let name := ctx.settings.naming.failingMockName d.simpleName
  let artifact : Artifact :=
    { strategy := .failingMock
      declaration := d.name
      fragments := [code name d.name r]
      imports := NameSet.ofList ["Foundation"]
      notes := notes r }
  .ok [artifact.referAll (r.references ctx.corpus)]

end FailingMock

end Scaffold
