/-
**What is said about rejected declarations.**

Whenever a declaration is rejected, the failure is put down as a problem of its own.  A run passes
on the problems of reading that matter, and decides that for each rejected declaration by its tags,
its parent and who depends on it; but what it leaves out it leaves out by name.  So a problem is
passed on exactly if no rejected declaration that does not matter has the same name.

Main definitions:

* `Scaffold.Outcome.IsStable` — a property of outcomes that reading cannot break;
* `Scaffold.Rejection`, `Scaffold.Outcome.Accounts` — rejected declarations with their failures, and
  an outcome that reports them;
* `Scaffold.Settings.Matters` — a rejected declaration matters to a run;
* `Scaffold.Settings.passedOn` — the problems of reading that a run passes on.

Main results:

* `Scaffold.Outcome.IsStable.readAll` — **a stable property holds of all that is read**;
* `Scaffold.exists_accounts_readAll` — every rejected declaration is reported with its failure;
* `Scaffold.problem_passed_on_iff` — **when a run passes on the problem of a rejected declaration**;
* `Scaffold.tagged_problem_left_out` — the problem of a declaration with tags that is left out.
-/

import Mathlib.Data.List.Basic
import Scaffold.Proofs.BodyInvariants
import Scaffold.Run

set_option relaxedAutoImplicit false
set_option autoImplicit false

namespace Scaffold

/-! ### Properties that reading cannot break -/

/-- A property of outcomes that holds of the outcomes that reading is built from, and of what is
built from outcomes with the property. -/
structure Outcome.IsStable (P : Outcome → Prop) : Prop where
  /-- Nothing was read. -/
  empty : P {}
  /-- One outcome stands behind another. -/
  append : ∀ {a b : Outcome}, P a → P b → P (a ++ b)
  /-- A declaration without a name could not be read. -/
  nameless : ∀ (owner : String) (f : Failure), P (Outcome.nameless owner f)
  /-- A declaration was rejected. -/
  reject : ∀ (name : String) (parent : Option String) (markers : List String) (f : Failure),
    P (Outcome.reject name parent markers f)
  /-- Declarations were added or dropped. -/
  entries : ∀ {o : Outcome} (es : List Entry), P o → P { o with entries := es }

/-- A reader of nested declarations yields outcomes with a property. -/
def NestedReader.Yields (nested : NestedReader) (P : Outcome → Prop) : Prop :=
  ∀ form markers c o c', nested form markers c = some (o, c') → P o

namespace Outcome.IsStable

variable {P : Outcome → Prop} (h : IsStable P) {nested : NestedReader} (hnested : nested.Yields P)
  {source : List Char} {markerPrefix : String} {room : Nat}

open Cursor

include h hnested

/-- What was read so far keeps the property where a declaration is read. -/
theorem keeps : nested.Keeps fun o _ => P o :=
  fun _ _ _ _ _ _ ho hread => h.append ho (hnested _ _ _ _ _ hread)

/-- What a body yields of nested declarations has the property if they have. -/
theorem body {form : Form} {conformances : List String} {c : Cursor} {o : Outcome}
    {r : Except Failure Shape}
    (hread : Cursor.body source markerPrefix room nested form conformances c = some (o, r)) :
    P o := by
  have hinvariant : IsInvariant fun o _ => P o := fun _ _ _ ho _ => ho
  obtain ⟨⟨-, ho⟩, -⟩ := hinvariant.exists_of_body (h.keeps hnested) h.empty hread
  exact ho

omit hnested

/-- What a declaration yields has the property, since what is nested in it has. -/
theorem declaration (unit : String) (room : Nat) (parent : Option String) :
    NestedReader.Yields (Cursor.declaration unit source markerPrefix room parent) P := by
  induction room using Nat.strongRecOn generalizing parent with
  | _ room ih =>
      intro form markers c o c' hread
      cases declaration_cases hread with
      | nameless _ => exact h.nameless _ _
      | rejected _ _ => exact h.reject _ _ _ _
      | braced name inner outcome r hroom _ hbody =>
          have ho := h.body (ih inner (hroom ▸ Nat.lt_succ_self inner) _) hbody
          cases r with
          | ok shape => exact h.entries _ ho
          | error f => exact h.append (h.entries _ ho) (h.reject _ _ _ _)

include hnested

theorem itemsFrom {fuel : Nat} {markers : List String} {c : Cursor} {o : Outcome}
    (hread : Cursor.itemsFrom nested markerPrefix fuel markers c = some o) : P o := by
  have hinvariant : IsInvariant fun o _ => P o := fun _ _ _ ho _ => ho
  obtain ⟨-, ho⟩ := hinvariant.exists_of_itemsFrom (h.keeps hnested) h.empty hread
  exact ho

omit hnested

/-- A stable property holds of what a unit yields. -/
theorem read (markerPrefix : String) (s : Source) : P (s.read markerPrefix) := by
  rw [Source.read]
  cases hread : s.read? markerPrefix with
  | none => exact h.empty
  | some o =>
      simp only [Source.read?] at hread
      split at hread
      · cases hread
        exact h.nameless _ _
      · exact h.itemsFrom (h.declaration _ _ _) hread

/-- **A stable property holds of all that is read.** -/
theorem readAll (workforce : Workforce) (markerPrefix : String) (sources : List Source) :
    P (Scaffold.readAll workforce markerPrefix sources) := by
  have hconcat : ∀ (os : List Outcome) (start : Outcome), P start → (∀ o ∈ os, P o) →
      P (os.foldl Outcome.append start) := by
    intro os
    induction os with
    | nil => exact fun start hstart _ => hstart
    | cons o os ih =>
        intro start hstart hos
        exact ih _ (h.append hstart (hos o (by simp))) fun x hx => hos x (List.mem_cons_of_mem _ hx)
  rw [Scaffold.readAll, Workforce.map_eq]
  refine hconcat _ _ h.empty ?_
  intro o ho
  obtain ⟨s, -, rfl⟩ := List.mem_map.1 ho
  exact h.read markerPrefix s

end Outcome.IsStable

/-! ### Rejected declarations and their problems -/

/-- A rejected declaration with the failure it was rejected for. -/
structure Rejection where
  /-- The declaration. -/
  rejected : Rejected
  /-- The failure. -/
  failure : Failure

/-- The problem that is put down for a rejected declaration. -/
def Rejection.problem (r : Rejection) : Problem :=
  Outcome.problem r.rejected.declaration r.failure

/-- The rejected declarations of an outcome are the given ones, and the problem of each is put down,
in the same order. -/
def Outcome.Accounts (o : Outcome) (rs : List Rejection) : Prop :=
  o.rejected = rs.map Rejection.rejected ∧ (rs.map Rejection.problem).Sublist o.problems

theorem Outcome.Accounts.append {a b : Outcome} {rs ss : List Rejection} (ha : a.Accounts rs)
    (hb : b.Accounts ss) : (a ++ b).Accounts (rs ++ ss) := by
  constructor
  · rw [rejected_append, List.map_append, ha.1, hb.1]
  · rw [problems_append, List.map_append]
    exact ha.2.append hb.2

theorem Outcome.isStable_exists_accounts : IsStable fun o => ∃ rs, o.Accounts rs where
  empty := ⟨[], rfl, List.Sublist.refl _⟩
  append := by
    rintro a b ⟨rs, ha⟩ ⟨ss, hb⟩
    exact ⟨rs ++ ss, ha.append hb⟩
  nameless _ _ := ⟨[], rfl, List.nil_sublist _⟩
  reject name parent markers f := ⟨[⟨⟨name, parent, markers⟩, f⟩], rfl, List.Sublist.refl _⟩
  entries _ h := h

theorem exists_accounts_readAll (workforce : Workforce) (markerPrefix : String)
    (sources : List Source) : ∃ rs, (readAll workforce markerPrefix sources).Accounts rs :=
  Outcome.isStable_exists_accounts.readAll workforce markerPrefix sources

/-! ### The problems that a run passes on -/

/-- A rejected declaration matters to a run: it has tags, or a declaration with tags depends on it or
on the declaration around it. -/
def Settings.Matters (settings : Settings) (o : Outcome) (r : Rejected) : Prop :=
  let corpus := (Corpus.build o.entries).1
  r.isRelevant (corpus.annotated.map Declaration.name) (wantedNames corpus settings.naming) = true

theorem Settings.matters_of_tags (settings : Settings) (o : Outcome) {r : Rejected}
    (h : tagsOf r.markers ≠ []) : settings.Matters o r := by
  simp [Settings.Matters, Rejected.isRelevant, h]

/-- The problems of reading that a run passes on. -/
def Settings.passedOn (settings : Settings) (o : Outcome) : List Problem :=
  relevantProblems (Corpus.build o.entries).1 settings.naming o

/-- A problem is left out for the name it bears: it is passed on exactly if all rejected declarations
of that name matter. -/
theorem Settings.mem_passedOn_iff (settings : Settings) {o : Outcome} {name : String} {f : Failure}
    (h : Outcome.problem name f ∈ o.problems) :
    Outcome.problem name f ∈ settings.passedOn o ↔
      ∀ r ∈ o.rejected, r.declaration = name → settings.Matters o r := by
  simp only [Settings.passedOn, relevantProblems, List.mem_filter, h, true_and]
  simp only [Outcome.problem, Bool.not_eq_true', List.contains_eq_mem, List.mem_map,
    List.mem_filter, decide_eq_false_iff_not, not_exists, not_and, Settings.Matters]
  constructor
  · intro hnone r hr hname
    by_contra hirrelevant
    exact hnone r ⟨hr, by simpa using hirrelevant⟩ hname
  · rintro hall r ⟨hr, hirrelevant⟩ hname
    simp [hall r hr hname] at hirrelevant

variable (processors : Nat) (settings : Settings) (provider : FixtureProvider)
  (sources : List Source)

theorem passedOn_subset_generate :
    settings.passedOn (readUnits processors settings sources) ⊆
      (generate processors settings provider sources).problems := by
  intro p hp
  simp only [generate, generateFrom, List.mem_append]
  exact .inl (.inl (.inl (.inl hp)))

theorem passedOn_subset_inspect :
    settings.passedOn (readUnits processors settings sources) ⊆
      (inspect processors settings sources).problems := by
  intro p hp
  simp only [inspect, List.mem_append]
  exact .inl (.inl hp)

/-- **When the problem of a rejected declaration is passed on.**  All rejected declarations are
accounted for, and the problem of one is passed on exactly if all rejected declarations of its name
matter.  One with tags matters itself, so that only others of its name can keep its problem back.  A
problem that is passed on is among those of generating and of inspecting, and generating is no
success. -/
theorem problem_passed_on_iff :
    (∃ rs, (readUnits processors settings sources).Accounts rs) ∧
    ∀ rs, (readUnits processors settings sources).Accounts rs → ∀ r ∈ rs,
      (r.problem ∈ settings.passedOn (readUnits processors settings sources) ↔
        ∀ s ∈ rs, s.rejected.declaration = r.rejected.declaration →
          settings.Matters (readUnits processors settings sources) s.rejected) ∧
      (tagsOf r.rejected.markers ≠ [] →
        settings.Matters (readUnits processors settings sources) r.rejected) ∧
      (r.problem ∈ settings.passedOn (readUnits processors settings sources) →
        r.problem ∈ (generate processors settings provider sources).problems ∧
        r.problem ∈ (inspect processors settings sources).problems ∧
        (generate processors settings provider sources).isSuccess = false) := by
  refine ⟨exists_accounts_readAll _ _ _, ?_⟩
  intro rs haccounts r hr
  refine ⟨?_, settings.matters_of_tags _, ?_⟩
  · have hproblem : r.problem ∈ (readUnits processors settings sources).problems :=
      haccounts.2.subset (List.mem_map_of_mem hr)
    rw [Rejection.problem, settings.mem_passedOn_iff hproblem, haccounts.1]
    exact List.forall_mem_map
  · intro hpassed
    have hgenerate := passedOn_subset_generate processors settings provider sources hpassed
    refine ⟨hgenerate, passedOn_subset_inspect processors settings sources hpassed, ?_⟩
    simpa [Report.isSuccess] using List.ne_nil_of_mem hgenerate

/-- Two units that declare a protocol of one name, of which only the first has a tag; neither can be
read. -/
def clashingStores : List Source :=
  [⟨"A.swift", "// sourcery: autoStub\nprotocol P \x7b\n  var x: Int \x7b get \x7d\n\x7d"⟩,
    ⟨"B.swift", "protocol P \x7b\n  var y: Int \x7b get \x7d\n\x7d"⟩]

/-- A declaration with tags is rejected, and nothing is said about it: a declaration of the same name
that has no tags is rejected as well, and does not matter. -/
theorem tagged_problem_left_out :
    ⟨"P", none, ["autoStub"]⟩ ∈ (readUnits 1 {} clashingStores).rejected ∧
      tagsOf ["autoStub"] ≠ [] ∧
      .malformed "P" (some "var x") (.requirement .property) 3 ∈
        (readUnits 1 {} clashingStores).problems ∧
      (generate 1 {} {} clashingStores).isSuccess = true ∧
      (inspect 1 {} clashingStores).problems = [] := by
  decide +kernel

end Scaffold
