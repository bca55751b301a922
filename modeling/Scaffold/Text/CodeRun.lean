/-
**Runs of code points.**

A set of characters is given as a list of runs: every `step`-th code point from `first` to `last`.
A step of two covers the scripts whose capitals and small letters alternate.

Main definitions:

* `Scaffold.Text.CodeRun`, `Scaffold.Text.CodeRun.contains` — a run and its members;
* `Scaffold.Text.inRuns` — membership of a character in a list of runs;
* `Scaffold.Text.CaseRun`, `Scaffold.Text.CaseRun.apply?` — a run whose members all move by the
  same distance.
-/

set_option relaxedAutoImplicit false
set_option autoImplicit false

namespace Scaffold.Text

/-- The code points `first`, `first + step`, … up to `last`. -/
structure CodeRun where
  /-- The least code point of the run. -/
  first : Nat
  /-- The bound of the run, itself included. -/
  last : Nat
  /-- The distance between neighbours. -/
  step : Nat
deriving DecidableEq

/-- Whether a code point belongs to the run. -/
def CodeRun.contains (r : CodeRun) (n : Nat) : Bool :=
  r.first ≤ n && n ≤ r.last && (n - r.first) % r.step == 0

/-- Whether a character lies in one of the runs. -/
def inRuns (runs : List CodeRun) (c : Char) : Bool :=
  runs.any fun r => r.contains c.toNat

/-- A run whose members are all mapped to the code point `shift` places further on. -/
structure CaseRun extends CodeRun where
  /-- The signed distance from a member to its image. -/
  shift : Int
deriving DecidableEq

/-- The image of a character under a run, if the run contains it. -/
def CaseRun.apply? (r : CaseRun) (c : Char) : Option Char :=
  if r.contains c.toNat then some (Char.ofNat (Int.ofNat c.toNat + r.shift).toNat) else none

end Scaffold.Text
