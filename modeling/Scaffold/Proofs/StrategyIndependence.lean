/-
**Strategies are independent.**

A run that is restricted to some of its strategies resolves the same declarations to fewer
strategies, and has the tasks of these strategies only, each of which yields what it yields in the
full run.  No generator depends on what another strategy does: a feature asks which declarations are
features, and the table which are registered, but neither asks for more.

Main definitions:

* `Scaffold.Resolution.restrict` — a resolution with some of its strategies.

Main results:

* `Scaffold.resolveAll_withStrategies`, `Scaffold.tasks_withStrategies` — restricted runs resolve to
  fewer strategies and have fewer tasks;
* `Scaffold.apply_withStrategies` — which yield the same;
* `Scaffold.generate_withStrategies` — **a restricted run reports what the full run reports of its
  strategies**.
-/

import Mathlib.Data.List.Flatten
import Scaffold.Proofs.OutputUnits
import Scaffold.Proofs.RunAgreement

set_option relaxedAutoImplicit false
set_option autoImplicit false

namespace Scaffold

/-- The settings run the strategies that were chosen. -/
@[simp] theorem Settings.runs_withStrategies (settings : Settings) (chosen : List Strategy)
    (s : Strategy) : (settings.withStrategies chosen).runs s = chosen.contains s := by
  rw [Bool.eq_iff_iff]
  simp [Settings.withStrategies, Settings.runs, Strategy.mem_all]

namespace Resolution

/-- The resolution with those of its strategies that are in a list; without a mapping there is no
counterpart. -/
def restrict (chosen : List Strategy) (r : Resolution) : Resolution :=
  { r with
    strategies := r.strategies.filter chosen.contains
    counterpart := if chosen.contains .mapping then r.counterpart else none }

@[simp] theorem runs_restrict (chosen : List Strategy) (r : Resolution) (s : Strategy) :
    (r.restrict chosen).runs s = (r.runs s && chosen.contains s) := by
  rw [Bool.eq_iff_iff]
  simp [restrict, runs]

end Resolution

section Restriction

variable {settings : Settings} {chosen : List Strategy}
  (hchosen : ∀ s ∈ chosen, settings.runs s = true)
include hchosen

/-! ### Resolutions -/

theorem requested_withStrategies (tags : List Tag) :
    requested (settings.withStrategies chosen) tags =
      (requested settings tags).filter chosen.contains := by
  rw [requested, requested, List.filter_filter]
  refine List.filter_congr fun s _ => ?_
  rw [Settings.runs_withStrategies, Bool.eq_iff_iff]
  simpa using hchosen s

/-- A declaration is resolved to the strategies that were chosen. -/
theorem resolve_withStrategies_fst (corpus : Corpus) (e : Entry) :
    (resolve corpus (settings.withStrategies chosen) e).1 =
      (resolve corpus settings e).1.map (Resolution.restrict chosen) := by
  have hnaming : (settings.withStrategies chosen).naming = settings.naming := rfl
  simp only [resolve, requested_withStrategies hchosen, hnaming]
  split
  · rfl
  · simp only [Option.map_some, Resolution.restrict, List.filter_filter, Bool.and_comm,
      Option.some.injEq, Resolution.mk.injEq, true_and, List.contains_eq_mem, List.mem_filter,
      Bool.and_eq_true, decide_eq_true_eq]
    by_cases hmapping : Strategy.mapping ∈ chosen
    · simp [hmapping]
    · simp [hmapping]

/-- The problems of resolving are those of the strategies that were chosen. -/
theorem resolve_withStrategies_snd (corpus : Corpus) (e : Entry) :
    (resolve corpus (settings.withStrategies chosen) e).2.Sublist
      (resolve corpus settings e).2 := by
  have hnaming : (settings.withStrategies chosen).naming = settings.naming := rfl
  simp only [resolve, requested_withStrategies hchosen, hnaming]
  split
  · exact .slnil
  · exact (List.filter_sublist.filterMap _).append_left _

/-- **A restricted run resolves the same declarations**, to fewer strategies and with fewer
problems. -/
theorem resolveAll_withStrategies (corpus : Corpus) :
    (resolveAll corpus (settings.withStrategies chosen)).1 =
        (resolveAll corpus settings).1.map (Resolution.restrict chosen) ∧
      (resolveAll corpus (settings.withStrategies chosen)).2.Sublist
        (resolveAll corpus settings).2 := by
  constructor
  · simp only [resolveAll, List.filterMap_map, List.map_filterMap]
    refine List.filterMap_congr fun e _ => ?_
    exact resolve_withStrategies_fst hchosen corpus e
  · simp only [resolveAll, List.flatMap_map]
    exact List.Sublist.flatMap_right _ fun e _ => resolve_withStrategies_snd hchosen corpus e

section Contexts

variable (provider : FixtureProvider) (corpus : Corpus)

theorem resolution?_withStrategies (name : String) :
    (contextOf (settings.withStrategies chosen) provider corpus).resolution? name =
      ((contextOf settings provider corpus).resolution? name).map (Resolution.restrict chosen) := by
  simp only [Context.resolution?, contextOf, (resolveAll_withStrategies hchosen corpus).1,
    List.find?_map]
  rfl

theorem runs_withStrategies {s : Strategy} (hs : s ∈ chosen) (name : String) :
    (contextOf (settings.withStrategies chosen) provider corpus).runs name s =
      (contextOf settings provider corpus).runs name s := by
  rw [Context.runs, Context.runs, resolution?_withStrategies hchosen, Option.any_map]
  congr 1
  funext r
  simp [hs]

/-! ### Tasks -/

/-- **The tasks of a restricted run** are those of the strategies that were chosen. -/
theorem tasks_withStrategies :
    tasks (contextOf (settings.withStrategies chosen) provider corpus) =
      (tasks (contextOf settings provider corpus)).filter fun t => chosen.contains t.2 := by
  rw [tasks, tasks, List.filter_flatMap]
  refine List.flatMap_congr fun d _ => ?_
  rw [resolution?_withStrategies hchosen]
  cases (contextOf settings provider corpus).resolution? d.name with
  | none => rfl
  | some r =>
      simp only [Option.map_some, Resolution.restrict, List.filter_map, List.filter_filter]
      congr 1
      refine List.filter_congr fun s _ => ?_
      exact Bool.and_comm _ _

omit hchosen in
theorem agrees_withStrategies :
    (contextOf settings provider corpus).Agrees Set.univ
      (contextOf (settings.withStrategies chosen) provider corpus) where
  settings := rfl
  provider := rfl
  corpus := ⟨fun _ _ => rfl, fun _ _ _ _ _ => Set.mem_univ _⟩

/-- A task yields in a restricted run what it yields in the full one. -/
theorem apply_withStrategies (hcorpus : corpus.IsIndexed) {d : Declaration} {s : Strategy}
    (htask : (d, s) ∈ tasks (contextOf (settings.withStrategies chosen) provider corpus)) :
    apply (contextOf (settings.withStrategies chosen) provider corpus) d s =
      apply (contextOf settings provider corpus) d s := by
  have htask' := htask
  rw [tasks_withStrategies hchosen, List.mem_filter] at htask'
  obtain ⟨htask', hs⟩ := htask'
  refine (apply_congr hcorpus hcorpus (agrees_withStrategies provider corpus) (Set.mem_univ _)
    htask' htask rfl ?_).symm
  -- features are asked for in both runs
  rintro rfl
  refine ⟨?_, ?_, ?_⟩
  · intro name _
    rw [resolution?_withStrategies hchosen, Option.any_map]
    rfl
  · intro name _
    exact (runs_withStrategies hchosen provider corpus (by simpa using hs) name).symm
  · intro d d' e e' hd he
    have heq : ∀ {x y : Declaration}, Corpus.Twins Set.univ corpus corpus x y → x = y := by
      intro x y h
      have hleft : corpus.get? x.name = some x := h.left
      rw [h.alike.name, h.right] at hleft
      exact (Option.some.inj hleft).symm
    rw [heq hd, heq he]

/-- The table is the same if it is asked for, and otherwise there is none. -/
theorem registered_withStrategies (hcorpus : corpus.IsIndexed) :
    (contextOf (settings.withStrategies chosen) provider corpus).registered =
      if chosen.contains .registration then (contextOf settings provider corpus).registered
      else (none, []) := by
  have hruns : (contextOf (settings.withStrategies chosen) provider corpus).settings.runs
      .registration = chosen.contains .registration := settings.runs_withStrategies chosen _
  rw [Context.registered, hruns]
  split
  · next hregistration =>
      have hmem : Strategy.registration ∈ chosen := by simpa using hregistration
      have hfull : (contextOf settings provider corpus).settings.runs .registration = true :=
        hchosen _ hmem
      rw [Context.registered, if_pos hfull]
      refine (Registration.generate_congr (agrees_withStrategies provider corpus) ?_).symm
      have hannotated :
          Registration.annotated (contextOf (settings.withStrategies chosen) provider corpus) =
            Registration.annotated (contextOf settings provider corpus) := by
        refine List.filter_congr fun d _ => ?_
        exact runs_withStrategies hchosen provider corpus hmem d.name
      rw [hannotated, List.forall₂_same]
      intro d hd
      have hget := hcorpus.get?_name (List.mem_filter.1 hd).1
      exact ⟨Set.mem_univ _, hget, hget, .refl d⟩
  · rfl

end Contexts

/-! ### Reports -/

section Reports

variable (processors : Nat) (provider : FixtureProvider) (o : Outcome)

theorem artifacts_withStrategies :
    (generateFrom processors (settings.withStrategies chosen) provider o).artifacts =
      (generateFrom processors settings provider o).artifacts.filter
        fun a => chosen.contains a.strategy := by
  have hcorpus := Corpus.isIndexed_build o.entries
  have htasks : (tasks (runContext (settings.withStrategies chosen) provider o)).flatMap
        (fun t => (apply (runContext (settings.withStrategies chosen) provider o) t.1 t.2).artifacts) =
      ((tasks (runContext settings provider o)).flatMap
        fun t => (apply (runContext settings provider o) t.1 t.2).artifacts).filter
          fun a => chosen.contains a.strategy := by
    rw [filter_flatMap_of_forall (q := fun t => chosen.contains t.2),
      ← tasks_withStrategies hchosen provider]
    · refine List.flatMap_congr fun t ht => ?_
      rw [apply_withStrategies hchosen provider _ hcorpus ht]
    · intro t ht a ha
      rw [strategy_of_mem_apply hcorpus ht ha]
  have htable : (runContext (settings.withStrategies chosen) provider o).registered.1.toList =
      (runContext settings provider o).registered.1.toList.filter
        fun a => chosen.contains a.strategy := by
    rw [registered_withStrategies hchosen provider _ hcorpus]
    split
    · next hregistration =>
        refine (List.filter_eq_self.2 fun a ha => ?_).symm
        rw [Context.strategy_of_mem_registered ha, hregistration]
    · next hregistration =>
        refine (List.filter_eq_nil_iff.2 fun a ha => ?_).symm
        rwa [Context.strategy_of_mem_registered ha]
  rw [artifacts_generateFrom, artifacts_generateFrom, filter_collect_strategy, List.filter_append,
    htasks, htable]

theorem problems_withStrategies :
    (generateFrom processors (settings.withStrategies chosen) provider o).problems.Sublist
      (generateFrom processors settings provider o).problems := by
  have hcorpus := Corpus.isIndexed_build o.entries
  have htasks : ((tasks (runContext (settings.withStrategies chosen) provider o)).flatMap
        fun t => (apply (runContext (settings.withStrategies chosen) provider o) t.1 t.2).problems).Sublist
      ((tasks (runContext settings provider o)).flatMap
        fun t => (apply (runContext settings provider o) t.1 t.2).problems) := by
    rw [List.flatMap_congr fun t ht => by
      rw [apply_withStrategies hchosen provider _ hcorpus ht], tasks_withStrategies hchosen]
    exact List.filter_sublist.flatMap _
  have htable : (runContext (settings.withStrategies chosen) provider o).registered.2.Sublist
      (runContext settings provider o).registered.2 := by
    rw [registered_withStrategies hchosen provider _ hcorpus]
    split
    · exact List.Sublist.refl _
    · exact List.nil_sublist _
  rw [problems_generateFrom, problems_generateFrom]
  refine (((List.Sublist.refl _).append ?_).append htasks).append htable
  exact (resolveAll_withStrategies hchosen _).2

end Reports

end Restriction

/-- **Strategies are independent**: a run that is restricted to some of the strategies has exactly
the artifacts of the full run that are of these strategies, exactly its outputs in the units of these
strategies, with the same texts, and some of its problems in the same order. -/
theorem generate_withStrategies (processors : Nat) (settings : Settings) (provider : FixtureProvider)
    (sources : List Source) {chosen : List Strategy}
    (hchosen : ∀ s ∈ chosen, s ∈ settings.strategies) :
    let full := generate processors settings provider sources
    let part := generate processors (settings.withStrategies chosen) provider sources
    part.artifacts = full.artifacts.filter (fun a => chosen.contains a.strategy) ∧
      part.outputs.entries =
        full.outputs.entries.filter (fun e => chosen.any fun s => s.outputUnit == e.1) ∧
      part.problems.Sublist full.problems := by
  have hruns : ∀ s ∈ chosen, settings.runs s = true := by
    intro s hs
    simpa [Settings.runs] using hchosen s hs
  -- the strategies make no difference to reading
  have hread : readUnits processors (settings.withStrategies chosen) sources =
      readUnits processors settings sources := rfl
  simp only [generate, hread]
  generalize readUnits processors settings sources = o
  have hartifacts := artifacts_withStrategies hruns processors provider o
  refine ⟨hartifacts, ?_, problems_withStrategies hruns processors provider o⟩
  rw [outputs_generateFrom, outputs_generateFrom, hartifacts, Emission.entries_emit_filter]

/-- Of a clock that is mocked and stubbed, and cannot be mapped, a run for stubs has the stub. -/
theorem generate_withStrategies_clock :
    let sources : List Source :=
      [⟨"Clock.swift", "// sourcery: autoFailingMock, autoStub, AutoMappable\nprotocol Clock \x7b\n" ++
        "  func now() -> Int\n\x7d\n"⟩]
    let full := generate 4 {} ({} : NameMap String) sources
    let part := generate 4 (Settings.withStrategies {} [.stub]) ({} : NameMap String) sources
    full.artifacts.map Artifact.key = [("Clock", "autoFailingMock"), ("Clock", "autoStub")] ∧
      part.artifacts = full.artifacts.filter (fun a => [Strategy.stub].contains a.strategy) ∧
      part.outputs.entries =
        full.outputs.entries.filter (fun e => [Strategy.stub].any fun s => s.outputUnit == e.1) ∧
      part.problems.Sublist full.problems := by
  intro sources
  have hkeys : (generate 4 {} ({} : NameMap String) sources).artifacts.map Artifact.key =
      [("Clock", "autoFailingMock"), ("Clock", "autoStub")] := by decide +kernel
  have hchosen : ∀ s ∈ [Strategy.stub], s ∈ ({} : Settings).strategies := by decide
  exact ⟨hkeys, generate_withStrategies 4 {} ({} : NameMap String) sources hchosen⟩

end Scaffold
