/-
**What reading source units yields.**

Main definitions:

* `Scaffold.Rejected` — a declaration that was dropped, with its markers;
* `Scaffold.Outcome` — declarations, problems and dropped declarations, each in source order.
-/

import Scaffold.Problem.Basic
import Scaffold.Source.Cursor

set_option relaxedAutoImplicit false
set_option autoImplicit false

namespace Scaffold

/-- A declaration that was dropped because it could not be read. -/
structure Rejected where
  /-- Its name. -/
  declaration : String
  /-- The name of the declaration around it. -/
  parent : Option String
  /-- The markers written above it. -/
  markers : List String
deriving DecidableEq, Repr

/-- What reading yields, in source order. -/
structure Outcome where
  /-- The declarations that were read. -/
  entries : List Entry := []
  /-- What could not be read. -/
  problems : List Problem := []
  /-- The named declarations among what could not be read. -/
  rejected : List Rejected := []
deriving DecidableEq, Repr

namespace Outcome

/-- One outcome behind another. -/
def append (a b : Outcome) : Outcome :=
  ⟨a.entries ++ b.entries, a.problems ++ b.problems, a.rejected ++ b.rejected⟩

instance : Append Outcome := ⟨append⟩

@[simp] theorem entries_append (a b : Outcome) : (a ++ b).entries = a.entries ++ b.entries := rfl

@[simp] theorem problems_append (a b : Outcome) :
    (a ++ b).problems = a.problems ++ b.problems := rfl

@[simp] theorem rejected_append (a b : Outcome) :
    (a ++ b).rejected = a.rejected ++ b.rejected := rfl

theorem append_empty (o : Outcome) : o ++ {} = o := by
  show Outcome.mk _ _ _ = o
  simp

theorem append_assoc (a b c : Outcome) : a ++ b ++ c = a ++ (b ++ c) := by
  show Outcome.mk _ _ _ = Outcome.mk _ _ _
  simp

/-- Outcomes one behind the other. -/
def concat (os : List Outcome) : Outcome := os.foldl append {}

/-- The problem that a failure is, for a declaration. -/
def problem (declaration : String) (f : Failure) : Problem :=
  .malformed declaration f.member f.reason f.line

/-- The outcome of a declaration that has no name; the problem goes to what is around it. -/
def nameless (owner : String) (f : Failure) : Outcome :=
  { problems := [problem owner f] }

/-- The outcome of a declaration that could not be read. -/
def reject (declaration : String) (parent : Option String) (markers : List String) (f : Failure) :
    Outcome :=
  { problems := [problem declaration f], rejected := [⟨declaration, parent, markers⟩] }

end Outcome

end Scaffold
