/-
**Mappings from transfer objects.**

A struct or an enumeration gets an initializer from its transfer object.  A field is converted
where its type is the same, or becomes so by going into optionals and collections and by mapping
nested transfer objects.  A pair that refers back to one that is being planned is taken to fit.

Main definitions:

* `Scaffold.Mapping.Plan` — the assignments of one pair and the nested targets they rely on;
* `Scaffold.Mapping.convert?` — an expression of one type as one of another;
* `Scaffold.Mapping.mapsNested` — whether a nested pair is taken to fit;
* `Scaffold.Mapping.plan` — the plan of a pair, or the fields and cases that do not fit;
* `Scaffold.Mapping.generate` — the artifacts of a declaration and of all nested pairs.
-/

import Scaffold.Context
import Scaffold.TypeRef.Printer

set_option relaxedAutoImplicit false
set_option autoImplicit false

namespace Scaffold.Mapping

/-- The lines of an initializer, and the targets of nested pairs that they call. -/
structure Plan where
  /-- The lines, without indentation. -/
  lines : List String := []
  /-- The nested targets. -/
  nested : List String := []
deriving DecidableEq, Repr

/-- A converted expression with the nested targets that it calls. -/
abbrev Conversion := String × List String

/-- The conversion of the elements of an optional or a collection. -/
def inside (expr method : String) (inner : Conversion) : Conversion :=
  (expr ++ "." ++ method ++ " \x7b " ++ inner.1 ++ " \x7d", inner.2)

/-- An expression of the source type as one of the target type, if the types fit.  Whether a
declared type can be mapped from another is asked of `maps`. -/
def convert? (maps : String → String → Bool) (expr : String) (source : TypeRef) :
    TypeRef → Option Conversion
  | .optional t =>
    if source = .optional t then some (expr, [])
    else
      match source with
      | .optional s => (convert? maps "$0" s t).map (inside expr "map")
      -- a value can stand where an optional one is wanted
      | source => convert? maps expr source t
  | .sequence t =>
    if source = .sequence t then some (expr, [])
    else
      match source with
      | .sequence s => (convert? maps "$0" s t).map (inside expr "map")
      | _ => none
  | .mapping k t =>
    if source = .mapping k t then some (expr, [])
    else
      match source with
      | .mapping j s =>
        if j = k then (convert? maps "$0" s t).map (inside expr "mapValues") else none
      | _ => none
  | .named t [] =>
    if source = .named t [] then some (expr, [])
    else
      match source with
      | .named s [] => if maps s t then some (t ++ "(dto: " ++ expr ++ ")", [t]) else none
      | _ => none
  | target => if source = target then some (expr, []) else none

/-- What becomes of a target field: nothing, an assignment, or a misfit. -/
inductive FieldStep where
  /-- The field keeps its default. -/
  | keep
  /-- The field is assigned. -/
  | assign (line : String) (nested : List String)
  /-- The field has no source, or one of another type. -/
  | misfit
deriving DecidableEq, Repr

/-- What becomes of a target field.  A constant with a value cannot be assigned again. -/
def fieldStep (maps : String → String → Bool) (source : ValueType) (f : Field) : FieldStep :=
  if !f.isMutable && f.default.isSome then .keep
  else
    match source.field? f.name with
    | some s =>
      match convert? maps ("dto." ++ f.name) s.type f.type with
      | some (expr, nested) => .assign ("self." ++ f.name ++ " = " ++ expr) nested
      | none => .misfit
    | none => if f.default.isSome then .keep else .misfit

/-- What becomes of each target field, by name. -/
def fieldSteps (maps : String → String → Bool) (target source : ValueType) :
    List (String × FieldStep) :=
  target.fields.map fun f => (f.name, fieldStep maps source f)

/-- The names of the target fields that do not fit. -/
def targetMisfits (steps : List (String × FieldStep)) : List String :=
  (steps.filter fun s => s.2 = .misfit).map Prod.fst

/-- The names of the source fields without a target. -/
def sourceMisfits (target source : ValueType) : List String :=
  (source.fields.filter fun s => (target.field? s.name).isNone).map Field.name

/-- The line of an assignment. -/
def FieldStep.line? : FieldStep → Option String
  | .assign line _ => some line
  | _ => none

/-- The nested targets of an assignment. -/
def FieldStep.nested : FieldStep → List String
  | .assign _ nested => nested
  | _ => []

/-- The plan of a pair of value types, or the names of all fields that do not fit. -/
def planFields (maps : String → String → Bool) (strict : Bool) (target source : ValueType) :
    Except (List String) Plan :=
  let steps := fieldSteps maps target source
  match targetMisfits steps ++ (if strict then sourceMisfits target source else []) with
  | [] =>
    .ok
      { lines := steps.filterMap fun s => s.2.line?
        nested := steps.flatMap fun s => s.2.nested }
  | misfits => .error misfits

/-- The plan of a pair of enumerations, or the names of all cases that do not fit. -/
def planCases (target source : Enumeration) : Except (List String) Plan :=
  if target.hasAssociatedValues || source.hasAssociatedValues then .error source.cases
  else
    match source.cases.filter fun c => !target.cases.contains c with
    | [] =>
      .ok { lines := ["switch dto \x7b"] ++
        (source.cases.map fun c => "case ." ++ c ++ ": self = ." ++ c) ++ ["\x7d"] }
    | misfits => .error misfits

/-- Whether a declared type is mapped from another one below a pair: it is if that is its transfer
object and the pair is being planned, or else if it is accepted. -/
def mapsNested (corpus : Corpus) (naming : Naming) (visiting : List String)
    (accepts : Declaration → Declaration → Bool) (source target : String) : Bool :=
  match corpus.get? target with
  | none => false
  | some inner =>
    match corpus.counterpart? naming inner.name with
    | none => false
    | some counterpart =>
      counterpart.name == source && (visiting.contains target || accepts inner counterpart)

/-- The plan of a pair of shapes, or the names of all fields or cases that do not fit. -/
def planShapes (maps : String → String → Bool) (strict : Bool) :
    (target source : Shape) → Except (List String) Plan
  | .value t, .value s => planFields maps strict t s
  | .enumeration t, .enumeration s => planCases t s
  | _, _ => .error []

/-- The plan of a pair, or the names of all fields or cases that do not fit.  The names in
`visiting` are those of targets being planned; nested pairs may be `room - 1` deep. -/
def planFrom (corpus : Corpus) (settings : Settings) :
    (room : Nat) → (visiting : List String) → (target source : Declaration) →
      Except (List String) Plan
  | 0, _, _, _ => .error []
  | room + 1, visiting, target, source =>
    let visiting := target.name :: visiting
    let accepts := fun (t s : Declaration) => (planFrom corpus settings room visiting t s).isOk
    planShapes (mapsNested corpus settings.naming visiting accepts) settings.strictSourceFields
      target.shape source.shape

/-- The plan of a pair, or the names of all fields or cases that do not fit.  Nested targets have
different names, so there are at most as many levels as declarations, and the pair itself. -/
def plan (corpus : Corpus) (settings : Settings) (target source : Declaration) :
    Except (List String) Plan :=
  planFrom corpus settings (corpus.size + 1) [] target source

/-- The text of a mapping. -/
def code (target source : String) (lines : List String) : String :=
  "extension " ++ target ++ " \x7b\n" ++
  "    init(dto: " ++ source ++ ") \x7b\n" ++
  String.join (lines.map fun l => "        " ++ l ++ "\n") ++
  "    \x7d\n" ++
  "\x7d\n"

/-- The artifact of a planned pair. -/
def Plan.artifact (p : Plan) (target source : String) : Artifact :=
  let artifact : Artifact :=
    { strategy := .mapping
      declaration := target
      fragments := [code target source p.lines]
      imports := NameSet.ofList ["Foundation"] }
  artifact.referAll (source :: (NameSet.ofList p.nested).toList)

/-- The pairs that a plan relies on, by the names of their targets. -/
def Plan.pairs (p : Plan) (ctx : Context) : List (Declaration × Declaration) :=
  (NameSet.ofList p.nested).toList.filterMap fun name => do
    let target ← ctx.corpus.get? name
    let source ← ctx.corpus.counterpart? ctx.settings.naming target.name
    return (target, source)

/-- Plans pending pairs, first those that a pair relies on; a target is planned once.  At most
`fuel` pairs are looked at. -/
def generateFrom (ctx : Context) :
    (fuel : Nat) → (planned : List String) → List (Declaration × Declaration) → Generated
  | 0, _, _ => .ok []
  | _, _, [] => .ok []
  | fuel + 1, planned, (target, source) :: pending =>
    if planned.contains target.name then generateFrom ctx fuel planned pending
    else
      match plan ctx.corpus ctx.settings target source with
      | .error misfits => .error [.incompatible target.name source.name misfits]
      | .ok p =>
        match generateFrom ctx fuel (target.name :: planned) (p.pairs ctx ++ pending) with
        | .error problems => .error problems
        | .ok artifacts => .ok (p.artifact target.name source.name :: artifacts)

/-- The mapping of a declaration and of all pairs it relies on, or the first pair that does not
fit.  Each target adds at most as many pairs as there are declarations. -/
def generate (ctx : Context) (d : Declaration) : Generated :=
  let counterpart := do
    let r ← ctx.resolution? d.name
    let name ← r.counterpart
    ctx.corpus.get? name
  match counterpart with
  | none => .error [.unresolvable d.name .mapping .unresolvedCounterpart]
  | some source => generateFrom ctx ((ctx.corpus.size + 2) * (ctx.corpus.size + 2)) [] [(d, source)]

end Scaffold.Mapping
