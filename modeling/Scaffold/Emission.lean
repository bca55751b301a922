/-
**Output units.**

The artifacts of one strategy make up one output unit, in which an artifact comes after those it
refers to.  Artifacts that lie on a cycle of references, or refer to one, come last.

Main definitions:

* `Scaffold.Emission.Node` — an artifact of a unit with the others it waits for;
* `Scaffold.Emission.place` — placing artifacts one by one, always the least that waits for none;
* `Scaffold.Emission.order` — the order of the artifacts of a unit;
* `Scaffold.Emission.render`, `Scaffold.Emission.emit` — the text of one and of all units.
-/

import Scaffold.Artifact
import Scaffold.Name.Map

set_option relaxedAutoImplicit false
set_option autoImplicit false

namespace Scaffold.Emission

/-- An artifact of a unit, its place in the unit, and the places of those it waits for. -/
structure Node where
  /-- Its place among the artifacts given. -/
  index : Nat
  /-- The artifact. -/
  artifact : Artifact
  /-- The places of the artifacts it refers to. -/
  needs : List Nat

/-- The place of the last artifact for a declaration. -/
def lastIndex? (artifacts : List Artifact) (name : String) : Option Nat :=
  (artifacts.zipIdx.reverse.find? fun p => p.1.declaration == name).map Prod.snd

/-- The artifacts of a unit with what they wait for.  A name stands for the last artifact of that
name, and none waits for itself. -/
def nodes (artifacts : List Artifact) : List Node :=
  artifacts.zipIdx.map fun (a, i) =>
    ⟨i, a, (a.references.toList.filterMap (lastIndex? artifacts)).filter (· != i)⟩

/-- Whether one node comes before another: by key, then by place. -/
def Node.before (x y : Node) : Bool :=
  Artifact.keyLt x.artifact.key y.artifact.key ||
    (x.artifact.key == y.artifact.key && x.index < y.index)

/-- The first of a list of nodes. -/
def least? : List Node → Option Node
  | [] => none
  | x :: xs =>
    match least? xs with
    | none => some x
    | some y => if y.before x then some y else some x

/-- Whether all that a node waits for is placed. -/
def Node.isReady (placed : List Nat) (x : Node) : Bool := x.needs.all placed.contains

/-- Places nodes one by one, always the first of those that wait for none that is not placed; what
can never be placed is left over.  At most `fuel` nodes are placed. -/
def place : (fuel : Nat) → (placed : List Nat) → List Node → List Node × List Node
  | 0, _, pending => ([], pending)
  | fuel + 1, placed, pending =>
    match least? (pending.filter (Node.isReady placed)) with
    -- every node that is left waits for another one that is left
    | none => ([], pending)
    | some x =>
      let result := place fuel (x.index :: placed) (pending.filter fun y => y.index != x.index)
      (x :: result.1, result.2)

/-- The artifacts of a unit in the order of output; those left over are sorted by key. -/
def order (artifacts : List Artifact) : List Artifact :=
  let result := place artifacts.length [] (nodes artifacts)
  let left := result.2.mergeSort fun x y => !Artifact.keyLt y.artifact.key x.artifact.key
  (result.1 ++ left).map Node.artifact

/-- The first line of every unit. -/
def banner : String := "// Generated by annogen. Do not edit."

/-- The imports of a unit, behind an empty line. -/
def renderImports (modules : List String) : String :=
  if modules.isEmpty then ""
  else "\n" ++ String.join (modules.map fun m => "import " ++ m ++ "\n")

/-- An artifact in a unit: an empty line, then its text, which ends with a line feed. -/
def renderArtifact (a : Artifact) : String :=
  let text := a.text
  "\n" ++ text ++ (if text.isEmpty || text.toList.getLast? == some '\n' then "" else "\n")

/-- The text of a unit. -/
def render (artifacts : List Artifact) : String :=
  let modules := NameSet.ofList (artifacts.flatMap fun a => a.imports.toList)
  banner ++ "\n" ++ renderImports modules.toList ++
    String.join ((order artifacts).map renderArtifact)

/-- The artifacts of a strategy. -/
def group (artifacts : List Artifact) (s : Strategy) : List Artifact :=
  artifacts.filter fun a => a.strategy == s

/-- The texts of all units that have artifacts, by name. -/
def emit (artifacts : List Artifact) : NameMap String :=
  NameMap.ofList (Strategy.all.filterMap fun s =>
    match group artifacts s with
    | [] => none
    | g => some (s.outputUnit, render g))

end Scaffold.Emission
