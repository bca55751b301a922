/-
**The number of workers changes nothing.**

Work is cut into shares by two operations that can fail: a quotient that is rounded up, by a number
of workers that may not be zero, and a partition into parts of a size that may not be zero.  Neither
fails, since work is only cut for two workers or more, and then there are items.  So a function
applied share by share is the function applied to every item in order, whatever the number of
workers and of processors.  Nothing else in a run asks for the number of workers.

Main definitions:

* `Scaffold.Checked.ceilDiv?`, `Scaffold.Checked.parts?` — a quotient rounded up, and a partition;
* `Scaffold.Workforce.map?` — a function applied share by share, with every operation that can fail;
* `Scaffold.Settings.withJobs` — settings that ask for another number of workers.

Main results:

* `Scaffold.Workforce.shares_partition` — how work is cut into shares;
* `Scaffold.Workforce.map?_eq` — **sharing work never fails and changes no result**;
* `Scaffold.apply_withJobs` — a task does not ask for the number of workers;
* `Scaffold.generate_withJobs` — **neither does a run**.
-/

import Scaffold.Proofs.OutputUnits

set_option relaxedAutoImplicit false
set_option autoImplicit false

namespace Scaffold

/-! ### Operations that can fail -/

namespace Checked

/-- The quotient of two counts, rounded up; there is none by zero. -/
def ceilDiv? (m n : Nat) : Option Nat :=
  if n = 0 then none else some (if 0 < m % n then m / n + 1 else m / n)

/-- A list in parts of the given size, the last of which may be smaller; there are none of size
zero. -/
def parts? {α : Type} (size : Nat) (xs : List α) : Option (List (List α)) :=
  if size = 0 then none else some (shares size xs)

/-- The quotient rounded up is that of the count before the next multiple. -/
theorem ceilDiv?_eq {m n : Nat} (h : 0 < n) : ceilDiv? m n = some ((m + n - 1) / n) := by
  have hsplit : m % n + n * (m / n) = m := Nat.mod_add_div m n
  have hlt : m % n < n := Nat.mod_lt m h
  rw [ceilDiv?, if_neg h.ne']
  congr 1
  split
  · next hrest =>
      have hsum : m + n - 1 = (m % n - 1) + n * (m / n + 1) := by
        rw [Nat.mul_succ]
        omega
      have hzero : (m % n - 1) / n = 0 := Nat.div_eq_of_lt (by omega)
      rw [hsum, Nat.add_mul_div_left _ _ h, hzero, Nat.zero_add]
  · next hrest =>
      have hsum : m + n - 1 = (n - 1) + n * (m / n) := by omega
      have hzero : (n - 1) / n = 0 := Nat.div_eq_of_lt (by omega)
      rw [hsum, Nat.add_mul_div_left _ _ h, hzero, Nat.zero_add]

end Checked

/-! ### Shares -/

/-- No share is empty. -/
theorem nil_notMem_shares {α : Type} (size : Nat) (xs : List α) : [] ∉ shares size xs := by
  fun_induction shares size xs with
  | case1 => simp
  | case2 x xs ih => simpa using ih

/-- A share has at most as many items as it was to have. -/
theorem length_le_of_mem_shares {α : Type} {size : Nat} (hsize : 0 < size) {xs share : List α}
    (h : share ∈ shares size xs) : share.length ≤ size := by
  fun_induction shares size xs with
  | case1 => cases h
  | case2 x xs ih =>
      rcases List.mem_cons.1 h with rfl | h
      · rw [List.length_cons, List.length_take]
        omega
      · exact ih h

/-- There are no more shares than it takes to hold the items. -/
theorem length_shares_le {α : Type} {size : Nat} (hsize : 0 < size) {xs : List α} {count : Nat}
    (h : xs.length ≤ size * count) : (shares size xs).length ≤ count := by
  fun_induction shares size xs generalizing count with
  | case1 => exact Nat.zero_le _
  | case2 x xs ih =>
      cases count with
      | zero => simp at h
      | succ count =>
          rw [List.length_cons, Nat.add_le_add_iff_right]
          refine ih ?_
          rw [List.length_cons, Nat.mul_succ] at h
          rw [List.length_drop]
          omega

namespace Workforce

variable {α β : Type} (w : Workforce)

/-- A share of two workers or more has items. -/
theorem shareSize_pos {items : Nat} (h : 1 < w.size items) : 0 < w.shareSize items := by
  have hle : w.size items ≤ items := Nat.min_le_right _ _
  exact Nat.div_pos (by omega) (by omega)

/-- **How work is cut** for two workers or more: into shares that are the items one behind the other,
no more of them than workers, none empty and none larger than a share is to be. -/
theorem shares_partition (items : List α) (h : 1 < w.size items.length) :
    (shares (w.shareSize items.length) items).flatten = items ∧
      (shares (w.shareSize items.length) items).length ≤ w.size items.length ∧
      ∀ share ∈ shares (w.shareSize items.length) items,
        share ≠ [] ∧ share.length ≤ w.shareSize items.length := by
  have hpos := w.shareSize_pos h
  refine ⟨flatten_shares _ _, length_shares_le hpos ?_, fun share hshare => ⟨?_, ?_⟩⟩
  · have hlt := Nat.lt_mul_div_succ (items.length + w.size items.length - 1)
      (Nat.zero_lt_of_lt h)
    rw [Nat.mul_comm, shareSize]
    rw [Nat.mul_succ] at hlt
    omega
  · rintro rfl
    exact nil_notMem_shares _ _ hshare
  · exact length_le_of_mem_shares hpos hshare

/-- A function applied to every item: to the items as they are by one worker, or else by each worker
to a share, after which the results are put one behind the other in the order of the shares. -/
def map? (f : α → β) (items : List α) : Option (List β) :=
  if w.size items.length ≤ 1 then some (items.map f)
  else do
    let size ← Checked.ceilDiv? items.length (w.size items.length)
    let parts ← Checked.parts? size items
    some (parts.foldl (fun results part => results ++ part.map f) [])

/-- **Sharing work never fails and changes no result.** -/
theorem map?_eq (f : α → β) (items : List α) : w.map? f items = some (items.map f) := by
  rw [map?]
  split
  · rfl
  · next h =>
      have hworkers : 1 < w.size items.length := Nat.lt_of_not_le h
      have hsize : w.shareSize items.length ≠ 0 := (w.shareSize_pos hworkers).ne'
      have hparts : Checked.parts? (w.shareSize items.length) items =
          some (shares (w.shareSize items.length) items) := if_neg hsize
      have hshares : Checked.ceilDiv? items.length (w.size items.length) =
          some (w.shareSize items.length) := Checked.ceilDiv?_eq (Nat.zero_lt_of_lt hworkers)
      simp only [hshares, hparts, Option.bind_eq_bind, Option.bind_some]
      rw [List.foldl_append_eq_append, List.nil_append, ← List.map_flatten, flatten_shares]

end Workforce

/-! ### Runs -/

attribute [ext] Report

/-- Settings that ask for another number of workers. -/
def Settings.withJobs (settings : Settings) (jobs : Nat) : Settings := { settings with jobs }

section Jobs

variable (settings : Settings) (jobs : Nat) (provider : FixtureProvider)

namespace Mapping

/-- A plan does not ask for the number of workers, and neither do those it relies on. -/
theorem planFrom_withJobs (corpus : Corpus) (room : Nat) (visiting : List String)
    (target source : Declaration) :
    planFrom corpus (settings.withJobs jobs) room visiting target source =
      planFrom corpus settings room visiting target source := by
  induction room generalizing visiting target source with
  | zero => rfl
  | succ room ih =>
      rw [planFrom, planFrom]
      simp only [ih]
      rfl

theorem generateFrom_withJobs (corpus : Corpus) (fuel : Nat) (planned : List String)
    (pending : List (Declaration × Declaration)) :
    generateFrom (contextOf (settings.withJobs jobs) provider corpus) fuel planned pending =
      generateFrom (contextOf settings provider corpus) fuel planned pending := by
  have hplan : ∀ target source : Declaration,
      plan (contextOf (settings.withJobs jobs) provider corpus).corpus
          (contextOf (settings.withJobs jobs) provider corpus).settings target source =
        plan (contextOf settings provider corpus).corpus
          (contextOf settings provider corpus).settings target source :=
    planFrom_withJobs settings jobs corpus _ _
  have hpairs : ∀ p : Plan, p.pairs (contextOf (settings.withJobs jobs) provider corpus) =
      p.pairs (contextOf settings provider corpus) := fun _ => rfl
  induction fuel generalizing planned pending with
  | zero => rfl
  | succ fuel ih =>
      cases pending with
      | nil => rfl
      | cons pair pending =>
          rw [generateFrom, generateFrom]
          simp only [ih, hplan, hpairs]

end Mapping

/-- **A task does not ask for the number of workers.** -/
theorem apply_withJobs (corpus : Corpus) (d : Declaration) (s : Strategy) :
    apply (contextOf (settings.withJobs jobs) provider corpus) d s =
      apply (contextOf settings provider corpus) d s := by
  cases s with
  | failingMock => rfl
  | stub => rfl
  | feature => rfl
  | registration => rfl
  | mapping =>
      -- plans go by recursion, so that they do not unfold to the same
      simp only [apply, Mapping.generate, Mapping.generateFrom_withJobs]
      rfl

theorem readUnits_withJobs (processors processors' : Nat) (sources : List Source) :
    readUnits processors (settings.withJobs jobs) sources =
      readUnits processors' settings sources := by
  rw [readUnits, readUnits, readAll, readAll, Workforce.map_eq, Workforce.map_eq]
  rfl

theorem generateFrom_withJobs (processors processors' : Nat) (o : Outcome) :
    generateFrom processors (settings.withJobs jobs) provider o =
      generateFrom processors' settings provider o := by
  have htasks : tasks (runContext (settings.withJobs jobs) provider o) =
      tasks (runContext settings provider o) := rfl
  have happly : ∀ t : Declaration × Strategy,
      apply (runContext (settings.withJobs jobs) provider o) t.1 t.2 =
        apply (runContext settings provider o) t.1 t.2 :=
    fun t => apply_withJobs settings jobs provider _ t.1 t.2
  have hregistered : (runContext (settings.withJobs jobs) provider o).registered =
      (runContext settings provider o).registered := rfl
  have hartifacts : (generateFrom processors (settings.withJobs jobs) provider o).artifacts =
      (generateFrom processors' settings provider o).artifacts := by
    rw [artifacts_generateFrom, artifacts_generateFrom, htasks, hregistered]
    simp only [happly]
  have hproblems : (generateFrom processors (settings.withJobs jobs) provider o).problems =
      (generateFrom processors' settings provider o).problems := by
    rw [problems_generateFrom, problems_generateFrom, htasks, hregistered]
    simp only [happly]
    rfl
  rw [Report.ext_iff]
  exact ⟨congrArg Emission.emit hartifacts, hartifacts, hproblems⟩

/-- A run that only reads and resolves does not ask for the number of workers either. -/
theorem inspect_withJobs (processors processors' : Nat) (sources : List Source) :
    inspect processors (settings.withJobs jobs) sources = inspect processors' settings sources := by
  rw [inspect, inspect, readUnits_withJobs settings jobs processors processors']
  rfl

end Jobs

/-- **The number of workers changes nothing.**  A function is applied to every item in order, by any
number of workers on any number of processors and without a failure; so a run reports the same
texts, the same artifacts and the same problems. -/
theorem generate_withJobs :
    (∀ (α β : Type) (w : Workforce) (f : α → β) (items : List α),
      w.map? f items = some (items.map f) ∧ w.map f items = items.map f) ∧
    ∀ (settings : Settings) (provider : FixtureProvider) (sources : List Source)
      (jobs jobs' processors processors' : Nat),
      generate processors (settings.withJobs jobs) provider sources =
        generate processors' (settings.withJobs jobs') provider sources := by
  refine ⟨fun α β w f items => ⟨w.map?_eq f items, w.map_eq f items⟩, ?_⟩
  intro settings provider sources jobs jobs' processors processors'
  -- both runs report what the run with the given settings reports
  have hrun : ∀ jobs processors : Nat,
      generate processors (settings.withJobs jobs) provider sources =
        generate 1 settings provider sources := by
    intro jobs processors
    rw [generate, generate, readUnits_withJobs settings jobs processors 1,
      generateFrom_withJobs settings jobs provider processors 1]
  rw [hrun, hrun]

end Scaffold
