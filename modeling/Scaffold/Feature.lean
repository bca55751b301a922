/-
**Features.**

A described feature becomes a reducer with a state, an action and a body.  Where composition is
asked for, a field that holds the state of another reducer makes that reducer a child.

Main definitions:

* `Scaffold.Feature.Child`, `Scaffold.Feature.child` — the children of a feature;
* `Scaffold.Feature.state`, `Scaffold.Feature.action`, `Scaffold.Feature.body` — the three parts;
* `Scaffold.Feature.generate` — the artifact.
-/

import Scaffold.Context
import Scaffold.Text.Lines
import Scaffold.TypeRef.Printer

set_option relaxedAutoImplicit false
set_option autoImplicit false

namespace Scaffold.Feature

/-- A reducer whose state a field holds. -/
structure Child where
  /-- The field. -/
  field : String
  /-- The reducer. -/
  reducer : String
  /-- Whether the state is optional. -/
  isOptional : Bool
deriving DecidableEq, Repr

/-- The reducer whose state a type is, and whether it is optional. -/
def reducer? (t : TypeRef) : Option (String × Bool) :=
  let named := fun (t : TypeRef) (isOptional : Bool) =>
    match t with
    | .named name [] => (Text.dropSuffix? ".State" name).map fun r => (r, isOptional)
    | _ => none
  match t with
  | .optional t => named t true
  | t => named t false

/-- Whether a name stands for a reducer that is written out, with a state and an action. -/
def isWrittenOut (corpus : Corpus) (name : String) : Bool :=
  (corpus.nested? name "State").isSome && (corpus.nested? name "Action").isSome

/-- The described feature of a name. -/
def described? (ctx : Context) (name : String) : Option Declaration :=
  if ctx.runs name .feature then ctx.corpus.get? name else none

/-- The child that a field makes, if it makes one.  A described feature has to be declared before
the one that composes it. -/
def child (ctx : Context) (d : Declaration) (f : Field) : Except Problem (Option Child) :=
  match reducer? f.type with
  | none => .ok none
  | some (reducer, isOptional) =>
    let child := { field := f.name, reducer, isOptional }
    match described? ctx reducer with
    | some feature =>
      if d.position ≤ feature.position then .error (.compositionOrder d.name f.name reducer)
      else .ok (some child)
    | none => .ok (if isWrittenOut ctx.corpus reducer then some child else none)

/-! ### The parts of a reducer -/

/-- The conformances of the state behind a colon, if it has any. -/
def conformanceClause (conformances : List String) : String :=
  if conformances.isEmpty then "" else ": " ++ ", ".intercalate conformances

/-- A field of the state. -/
def fieldCode (f : Field) : String :=
  "    " ++ (if f.isMutable then "var" else "let") ++ " " ++ f.name ++ ": " ++ f.type.render ++
    (match f.default with
      | some value => " = " ++ value
      | none => "") ++
    "\n"

/-- The state of a feature. -/
def state (fields : List Field) (conformances : List String) : String :=
  "struct State" ++ conformanceClause conformances ++
    (if fields.isEmpty then " \x7b\x7d"
      else " \x7b\n" ++ String.join (fields.map fieldCode) ++ "\x7d")

/-- The action of a feature, with a case for each child. -/
def action (children : List Child) : String :=
  "enum Action: Equatable " ++
    (if children.isEmpty then "\x7b\x7d"
      else
        "\x7b\n" ++
        String.join (children.map fun c =>
          "    case " ++ c.field ++ "(" ++ c.reducer ++ ".Action)\n") ++
        "\x7d")

/-- The block that runs a child. -/
def childBlock (opening : String) (c : Child) : String :=
  "    " ++ opening ++ "\\." ++ c.field ++ ", action: /Action." ++ c.field ++ ") \x7b\n" ++
  "        " ++ c.reducer ++ "()\n" ++
  "    \x7d\n"

/-- The body of a feature: children are run before it, optional ones behind it. -/
def body (children : List Child) : String :=
  "var body: some ReducerOf<Self> \x7b\n" ++
  String.join ((children.filter fun c => !c.isOptional).map (childBlock "Scope(state: ")) ++
  "    Reduce \x7b state, action in\n" ++
  "        .none\n" ++
  "    \x7d\n" ++
  String.join ((children.filter Child.isOptional).map (childBlock ".ifLet(")) ++
  "\x7d"

/-- The text of a feature. -/
def code (name : String) (v : ValueType) (children : List Child) : String :=
  "struct " ++ name ++ ": Reducer \x7b\n" ++
  Text.indent (state v.fields v.conformances) 1 ++ "\n\n" ++
  Text.indent (action children) 1 ++ "\n\n" ++
  Text.indent (body children) 1 ++ "\n\x7d\n"

/-- The children of a feature and the problems of composing them. -/
def children (ctx : Context) (d : Declaration) (v : ValueType) : List Child × List Problem :=
  let results := v.fields.map (child ctx d)
  (results.filterMap fun r => r.toOption.join,
    results.filterMap fun
      | .error p => some p
      | .ok _ => none)

/-- The reducer of a described feature, or the problems of composing it. -/
def generate (ctx : Context) (d : Declaration) : Generated :=
  match d.value? with
  | none => .error [.unresolvable d.name .feature (.expectedStruct d.form)]
  | some v =>
    let composes := (ctx.resolution? d.name).any (·.has .composition)
    let (children, problems) := if composes then children ctx d v else ([], [])
    if problems.isEmpty then
      let artifact : Artifact :=
        { strategy := .feature
          declaration := d.name
          fragments := [code d.simpleName v children]
          imports := NameSet.ofList ["ComposableArchitecture"] }
      .ok [artifact.referAll (children.map Child.reducer)]
    else .error problems

end Scaffold.Feature
