/-
**Which strategies apply.**

The markers of a declaration name tags, and each tag that selects an enabled
strategy is checked against the declaration.

Main definitions:

* `Scaffold.Resolution` — the tags and the strategies of a declaration;
* `Scaffold.Corpus.counterpart?` — the transfer object of a declaration;
* `Scaffold.obstacle?` — why a strategy does not apply;
* `Scaffold.resolve`, `Scaffold.resolveAll` — the resolutions of one and of all declarations.
-/

import Scaffold.Corpus
import Scaffold.Settings.Basic

set_option relaxedAutoImplicit false
set_option autoImplicit false

namespace Scaffold

/-- The tags of a declaration and the strategies that apply to it. -/
structure Resolution where
  /-- The name of the declaration. -/
  declaration : String
  /-- Its tags in order, whether or not their strategies apply. -/
  tags : List Tag
  /-- The strategies that are enabled and apply, in order. -/
  strategies : List Strategy
  /-- The name of its transfer object, if it is to be mapped from one. -/
  counterpart : Option String
deriving DecidableEq, Repr, Inhabited

namespace Resolution

/-- Whether the declaration has a tag. -/
def has (r : Resolution) (a : Tag) : Bool := r.tags.contains a

/-- Whether a strategy applies. -/
def runs (r : Resolution) (s : Strategy) : Bool := r.strategies.contains s

end Resolution

/-- The declaration under the first of the names where a transfer object is looked for. -/
def Corpus.counterpart? (corpus : Corpus) (naming : Naming) (name : String) :
    Option Declaration :=
  (naming.counterparts name).findSome? corpus.get?

/-- Why a declaration cannot be mapped for its own sake. -/
def mappingObstacle? (d : Declaration) : Option Obstacle :=
  match d.shape with
  | .contract _ => some .mappedProtocol
  | .value v => if v.form = .struct then none else some (.mappedReference v.form)
  | .enumeration e => if e.hasAssociatedValues then some .mappedValues else none

/-- The transfer object from which a declaration is mapped, or why it cannot be. -/
def mappable (corpus : Corpus) (naming : Naming) (d : Declaration) :
    Except Obstacle Declaration :=
  match mappingObstacle? d with
  | some o => .error o
  | none =>
    match corpus.counterpart? naming d.name with
    | none => .error (.noCounterpart (naming.counterparts d.name))
    | some s => if s.form = d.form then .ok s else .error (.counterpartForm s.name s.form d.form)

/-- Why a strategy does not apply to a declaration. -/
def obstacle? (corpus : Corpus) (naming : Naming) (d : Declaration) : Strategy → Option Obstacle
  | .failingMock => if d.contract?.isSome then none else some (.expectedProtocol d.form)
  | .stub => if d.contract?.isSome then none else some (.expectedProtocol d.form)
  | .mapping =>
    match mappable corpus naming d with
    | .ok _ => none
    | .error o => some o
  | .registration => if d.enumeration?.isSome then some .expectedConcrete else none
  | .feature => if d.form = .value .struct then none else some (.expectedStruct d.form)

/-- The strategies that the tags select and the settings enable. -/
def requested (settings : Settings) (tags : List Tag) : List Strategy :=
  (tags.filterMap Tag.strategy?).filter settings.runs

/-- The problem of asking for a composition without a feature. -/
def looseComposition (name : String) (tags : List Tag) : List Problem :=
  if tags.contains .composition && !tags.contains .feature then
    [.unresolvable name .composition .requiresFeature]
  else []

/-- The resolution of a declaration, if it has a tag, and the problems of its
strategies. -/
def resolve (corpus : Corpus) (settings : Settings) (e : Entry) :
    Option Resolution × List Problem :=
  let d := e.declaration
  let tags := tagsOf e.markers
  if tags.isEmpty then (none, [])
  else
    let wanted := requested settings tags
    let obstacle := obstacle? corpus settings.naming d
    let strategies := wanted.filter fun s => (obstacle s).isNone
    let counterpart :=
      if strategies.contains .mapping then
        (corpus.counterpart? settings.naming d.name).map Declaration.name
      else none
    (some { declaration := d.name, tags, strategies, counterpart },
      looseComposition d.name tags ++
        wanted.filterMap fun s => (obstacle s).map fun o => .unresolvable d.name s.tag o)

/-- The resolutions of all declarations that have tags, and all problems. -/
def resolveAll (corpus : Corpus) (settings : Settings) : List Resolution × List Problem :=
  let results := corpus.entries.map (resolve corpus settings)
  (results.filterMap Prod.fst, results.flatMap Prod.snd)

end Scaffold
