/-
**Runs.**

A run reads the units, builds the corpus, resolves the tags, applies every strategy to
every declaration it was asked for, and puts the artifacts into output units.

Main definitions:

* `Scaffold.relevantProblems` — the problems of reading that matter to annotated declarations;
* `Scaffold.Report`, `Scaffold.generateFrom`, `Scaffold.generate` — a run that generates;
* `Scaffold.Inspection`, `Scaffold.inspect` — a run that only reads and resolves.
-/

import Scaffold.Emission
import Scaffold.Feature
import Scaffold.Mapping
import Scaffold.Registration
import Scaffold.Source.Unit
import Scaffold.Stub

set_option relaxedAutoImplicit false
set_option autoImplicit false

namespace Scaffold

/-! ### Problems that matter -/

/-- The declarations with tags. -/
def Corpus.annotated (corpus : Corpus) : List Declaration :=
  (corpus.entries.filter fun e => !(tagsOf e.markers).isEmpty).map Entry.declaration

/-- The names that a mention depends on: itself, its transfer objects, and what it is nested in. -/
def wantedBy (naming : Naming) (mention : String) : List String :=
  mention :: naming.counterparts mention ++ (Text.owner? mention).toList

/-- The names that annotated declarations depend on. -/
def wantedNames (corpus : Corpus) (naming : Naming) : List String :=
  corpus.annotated.flatMap fun d =>
    (d.name :: d.mentionedNames.toList).flatMap (wantedBy naming)

/-- Whether a dropped declaration matters: it has tags, an annotated declaration depends on
it, or that holds of the declaration around it. -/
def Rejected.isRelevant (annotated wanted : List String) (r : Rejected) : Bool :=
  !(tagsOf r.markers).isEmpty || wanted.contains r.declaration ||
    r.parent.any fun p => annotated.contains p || wanted.contains p

/-- The problems of reading without those of dropped declarations that do not matter. -/
def relevantProblems (corpus : Corpus) (naming : Naming) (o : Outcome) : List Problem :=
  let annotated := corpus.annotated.map Declaration.name
  let wanted := wantedNames corpus naming
  let ignored := (o.rejected.filter fun r => !r.isRelevant annotated wanted).map
    Rejected.declaration
  o.problems.filter fun
    | .malformed declaration _ _ _ => !ignored.contains declaration
    | _ => true

/-! ### Generating -/

/-- What a run that generates yields. -/
structure Report where
  /-- The texts of the output units by name. -/
  outputs : NameMap String
  /-- The artifacts by declaration and strategy. -/
  artifacts : List Artifact
  /-- What went wrong. -/
  problems : List Problem

namespace Report

/-- Whether nothing went wrong. -/
def isSuccess (r : Report) : Bool := r.problems.isEmpty

/-- The exit status: zero if nothing went wrong. -/
def exitCode (r : Report) : Nat := if r.isSuccess then 0 else 1

/-- The remarks about artifacts, each with what it is about. -/
def notes (r : Report) : List String :=
  r.artifacts.flatMap fun a => a.notes.map fun n =>
    a.declaration ++ " (" ++ a.strategy.word ++ "): " ++ n

end Report

/-- Applies a strategy to a declaration.  The table of dependencies is generated for all of them
together. -/
def apply (ctx : Context) (d : Declaration) : Strategy → Generated
  | .failingMock => FailingMock.generate ctx d
  | .stub => Stub.generate ctx d
  | .mapping => Mapping.generate ctx d
  | .feature => Feature.generate ctx d
  | .registration => .ok []

/-- What each declaration is to be given, in order. -/
def tasks (ctx : Context) : List (Declaration × Strategy) :=
  ctx.corpus.declarations.flatMap fun d =>
    match ctx.resolution? d.name with
    | some r => (r.strategies.filter (· != .registration)).map fun s => (d, s)
    | none => []

/-- Puts an artifact in its place among artifacts by key, unless there is one with its key. -/
def insertArtifact (a : Artifact) : List Artifact → List Artifact
  | [] => [a]
  | b :: bs =>
    if Artifact.keyLt a.key b.key then a :: b :: bs
    else if a.key = b.key then b :: bs
    else b :: insertArtifact a bs

/-- The artifacts by key, of several with one key the first. -/
def collect (artifacts : List Artifact) : List Artifact :=
  artifacts.foldl (fun acc a => insertArtifact a acc) []

/-- The problems of a generator. -/
def Generated.problems : Generated → List Problem
  | .ok _ => []
  | .error ps => ps

/-- The artifacts of a generator. -/
def Generated.artifacts : Generated → List Artifact
  | .ok as => as
  | .error _ => []

/-- The context of generators for a corpus. -/
def contextOf (settings : Settings) (provider : FixtureProvider) (corpus : Corpus) : Context :=
  { corpus, settings, provider, resolutions := (resolveAll corpus settings).1 }

/-- The workforce that settings ask for, on a number of processors. -/
def Settings.workforce (settings : Settings) (processors : Nat) : Workforce :=
  { jobs := settings.jobs, processors }

/-- Generates from what was read. -/
def generateFrom (processors : Nat) (settings : Settings) (provider : FixtureProvider)
    (o : Outcome) : Report :=
  let (corpus, conflicts) := Corpus.build o.entries
  let ctx := contextOf settings provider corpus
  let results := (settings.workforce processors).map (fun (d, s) => apply ctx d s) (tasks ctx)
  let (table, unregistered) :=
    if settings.runs .registration then Registration.generate ctx else (none, [])
  let artifacts := collect (results.flatMap Generated.artifacts ++ table.toList)
  { outputs := Emission.emit artifacts
    artifacts
    problems := relevantProblems corpus settings.naming o ++ conflicts ++
      (resolveAll corpus settings).2 ++ results.flatMap Generated.problems ++ unregistered }

/-- Generates from declarations. -/
def generateParsed (processors : Nat) (settings : Settings) (provider : FixtureProvider)
    (entries : List Entry) : Report :=
  generateFrom processors settings provider { entries }

/-- Reads the source units of a run. -/
def readUnits (processors : Nat) (settings : Settings) (sources : List Source) : Outcome :=
  readAll (settings.workforce processors) settings.markerPrefix sources

/-- Generates from source units. -/
def generate (processors : Nat) (settings : Settings) (provider : FixtureProvider)
    (sources : List Source) : Report :=
  generateFrom processors settings provider (readUnits processors settings sources)

/-! ### Inspecting -/

/-- What a run that only reads and resolves yields. -/
structure Inspection where
  /-- The declarations of the corpus. -/
  entries : List Entry
  /-- The resolutions of those with tags. -/
  resolutions : List Resolution
  /-- What went wrong. -/
  problems : List Problem

/-- Reads source units and resolves their tags. -/
def inspect (processors : Nat) (settings : Settings) (sources : List Source) : Inspection :=
  let o := readUnits processors settings sources
  let (corpus, conflicts) := Corpus.build o.entries
  let (resolutions, unresolved) := resolveAll corpus settings
  { entries := corpus.entries
    resolutions
    problems := relevantProblems corpus settings.naming o ++ conflicts ++ unresolved }

end Scaffold
