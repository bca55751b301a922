/-
**Generated artifacts.**

Main definitions:

* `Scaffold.Artifact` — what one strategy generates for one declaration;
* `Scaffold.Artifact.refer` — recording a reference, which an artifact never has to itself;
* `Scaffold.Artifact.key`, `Scaffold.Artifact.keyLt` — the order of artifacts.

Main results:

* `Scaffold.Artifact.referAll_eq` — references are all that recording them changes.
-/

import Scaffold.Tag
import Scaffold.Name.Set

set_option relaxedAutoImplicit false
set_option autoImplicit false

namespace Scaffold

/-- What one strategy generates for one declaration. -/
structure Artifact where
  /-- The strategy. -/
  strategy : Strategy
  /-- The name of the declaration. -/
  declaration : String
  /-- The parts of the generated text, in order. -/
  fragments : List String := []
  /-- The other declarations that the text refers to. -/
  references : NameSet := {}
  /-- The modules that the text needs. -/
  imports : NameSet := {}
  /-- Remarks about the text that are no problems. -/
  notes : List String := []
deriving DecidableEq, Inhabited

namespace Artifact

/-- The artifact with one more reference, unless it is one to itself. -/
def refer (a : Artifact) (name : String) : Artifact :=
  if name = a.declaration then a else { a with references := a.references.insert name }

/-- The artifact with the references of a list. -/
def referAll (a : Artifact) (names : List String) : Artifact := names.foldl refer a

/-- References are all that changes. -/
theorem referAll_eq (a : Artifact) (names : List String) :
    a.referAll names = { a with references := (a.referAll names).references } := by
  induction names generalizing a with
  | nil => rfl
  | cons name names ih =>
      have hstep : a.referAll (name :: names) = (a.refer name).referAll names := rfl
      rw [hstep, ih (a.refer name), refer]
      split <;> rfl

@[simp] theorem fragments_referAll (a : Artifact) (names : List String) :
    (a.referAll names).fragments = a.fragments := by rw [referAll_eq]

@[simp] theorem declaration_referAll (a : Artifact) (names : List String) :
    (a.referAll names).declaration = a.declaration := by rw [referAll_eq]

@[simp] theorem strategy_referAll (a : Artifact) (names : List String) :
    (a.referAll names).strategy = a.strategy := by rw [referAll_eq]

/-- The text of an artifact. -/
def text (a : Artifact) : String := "\n".intercalate a.fragments

/-- What artifacts are ordered by: the declaration, then the name of the strategy. -/
def key (a : Artifact) : String × String := (a.declaration, a.strategy.word)

/-- Whether one key comes before another. -/
def keyLt (j k : String × String) : Bool := j.1 < k.1 || (j.1 == k.1 && j.2 < k.2)

end Artifact

end Scaffold
