/-
**What a contract requires.**

A contract requires its own members and those of the contracts it refines, as far as they are
declared.  Of several members with one selector the first is kept.

Main definitions:

* `Scaffold.Corpus.ancestry` — a contract and the contracts it refines, each once;
* `Scaffold.keepFirst` — a list in which each key occurs once;
* `Scaffold.Requirements`, `Scaffold.Corpus.requirements` — the required members.
-/

import Scaffold.Corpus

set_option relaxedAutoImplicit false
set_option autoImplicit false

namespace Scaffold

/-- Goes through a contract and the contracts it refines, depth first: the names seen on the way,
and the contracts that were not seen before.  Contracts may be refined `room - 1` deep. -/
def Corpus.ancestryFrom (corpus : Corpus) :
    (room : Nat) → (seen : List String) → Declaration → List String × List Contract
  | 0, seen, _ => (seen, [])
  | room + 1, seen, d =>
    -- contracts may refine each other in a circle
    if seen.contains d.name then (seen, [])
    else
      match d.contract? with
      | none => (d.name :: seen, [])
      | some c =>
        c.inherits.foldl
          (fun (seen, found) parent =>
            match corpus.get? parent with
            | none => (seen, found)
            | some p =>
              let (seen, more) := ancestryFrom corpus room seen p
              (seen, found ++ more))
          (d.name :: seen, [c])

/-- A contract and the contracts it refines, depth first and each once.  Every level has a name of
its own, so there are at most as many as declarations, and the one at the start. -/
def Corpus.ancestry (corpus : Corpus) (d : Declaration) : List Contract :=
  (corpus.ancestryFrom (corpus.size + 1) [] d).2

/-- The items of a list whose key is not among those taken or before them in the list. -/
def keepFirstFrom {α : Type} (key : α → String) (taken : List String) : List α → List α
  | [] => []
  | x :: xs =>
    if taken.contains (key x) then keepFirstFrom key taken xs
    else x :: keepFirstFrom key (key x :: taken) xs

/-- The first item of each key. -/
def keepFirst {α : Type} (key : α → String) (xs : List α) : List α := keepFirstFrom key [] xs

/-- The members that a contract requires. -/
structure Requirements where
  /-- The methods. -/
  methods : List Method
  /-- The initializers. -/
  initializers : List Initializer
deriving DecidableEq, Repr

/-- The members that a contract requires, each selector once. -/
def Corpus.requirements (corpus : Corpus) (d : Declaration) : Requirements :=
  let contracts := corpus.ancestry d
  { methods := keepFirst Method.selector (contracts.flatMap Contract.methods)
    initializers := keepFirst Initializer.selector (contracts.flatMap Contract.initializers) }

end Scaffold
