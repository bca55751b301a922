/-
**Sharing work.**

A list is worked on in shares, one for each worker: consecutive items, the same number in each
share but the last.  The results of the shares are put one behind the other again.

Main definitions:

* `Scaffold.Workforce` — how many workers are asked for, and how many processors there are;
* `Scaffold.shares` — a list in shares of a given size;
* `Scaffold.Workforce.map` — a function applied to every item, share by share.

Main results:

* `Scaffold.flatten_shares` — the shares one behind the other make up the list;
* `Scaffold.Workforce.map_eq` — sharing the work changes no result.
-/

set_option relaxedAutoImplicit false
set_option autoImplicit false

namespace Scaffold

/-- How much is worked on at once. -/
structure Workforce where
  /-- The number of workers asked for; zero stands for one on each processor. -/
  jobs : Nat := 1
  /-- The number of processors. -/
  processors : Nat := 1
deriving DecidableEq, Repr

/-- A list in shares of the given size, the last of which may be smaller.  No share is empty, so a
size of zero counts as one. -/
def shares {α : Type} (size : Nat) : List α → List (List α)
  | [] => []
  | x :: xs => (x :: xs.take (size - 1)) :: shares size (xs.drop (size - 1))
termination_by xs => xs.length
decreasing_by
  rw [List.length_drop, List.length_cons]
  omega

/-- The shares one behind the other make up the list. -/
@[simp] theorem flatten_shares {α : Type} (size : Nat) (xs : List α) :
    (shares size xs).flatten = xs := by
  fun_induction shares size xs with
  | case1 => rfl
  | case2 x xs ih => simp [ih]

namespace Workforce

/-- The number of workers for a number of items: no more than items. -/
def size (w : Workforce) (items : Nat) : Nat :=
  min (if w.jobs = 0 then w.processors else w.jobs) items

/-- The number of items in a share, so that there are no more shares than workers. -/
def shareSize (w : Workforce) (items : Nat) : Nat :=
  (items + w.size items - 1) / w.size items

/-- A function applied to every item, share by share; one worker takes the items as they are. -/
def map {α β : Type} (w : Workforce) (f : α → β) (items : List α) : List β :=
  if w.size items.length ≤ 1 then items.map f
  else (shares (w.shareSize items.length) items).flatMap fun share => share.map f

/-- Sharing the work changes no result. -/
@[simp] theorem map_eq {α β : Type} (w : Workforce) (f : α → β) (items : List α) :
    w.map f items = items.map f := by
  simp only [map]
  split
  · rfl
  · rw [List.flatMap_def, ← List.map_flatten, flatten_shares]

end Workforce

end Scaffold
