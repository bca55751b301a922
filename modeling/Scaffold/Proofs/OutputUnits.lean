/-
**What is collected and written.**

The artifacts of a run are collected by key, and of several with one key the first is kept.  So it
makes no difference whether artifacts are chosen by key before or after they are collected, and
where artifacts with one key are the same, the order in which they come makes none either.  The
output units hold the artifacts of one strategy each, and nothing else.

Main results:

* `Scaffold.mem_collect_iff` — what is collected is the first artifact of its key;
* `Scaffold.filter_collect` — choosing by key and collecting commute;
* `Scaffold.collect_congr` — **lists with the same artifacts are collected to the same list**, if
  artifacts of one key are the same;
* `Scaffold.Emission.mem_entries_emit` — **the output units and their texts**;
* `Scaffold.Emission.entries_emit_filter` — the units of some strategies are those of their
  artifacts;
* `Scaffold.artifacts_generateFrom`, `Scaffold.problems_generateFrom` — what a run reports, part by
  part.
-/

import Mathlib.Data.List.Sort
import Scaffold.Proofs.RunArtifacts

set_option relaxedAutoImplicit false
set_option autoImplicit false

namespace Scaffold

/-! ### The first artifact of a key -/

/-- Collected artifacts are told apart by which are there. -/
theorem IsCollected.ext {artifacts others : List Artifact} (h : IsCollected artifacts)
    (h' : IsCollected others) (hmem : ∀ a, a ∈ artifacts ↔ a ∈ others) : artifacts = others := by
  have : Std.Antisymm fun a b : Artifact => Artifact.keyLt a.key b.key = true :=
    ⟨fun a b hab hba => absurd (Artifact.keyLt_trans hab hba) (Artifact.keyLt_irrefl _)⟩
  have : Std.Irrefl fun a b : Artifact => Artifact.keyLt a.key b.key = true :=
    ⟨fun a => Artifact.keyLt_irrefl a.key⟩
  exact List.Pairwise.eq_of_mem_iff h h' hmem

/-- An artifact is put among collected ones unless its key is taken. -/
theorem IsCollected.mem_insertArtifact {artifacts : List Artifact} (h : IsCollected artifacts)
    {a b : Artifact} :
    b ∈ Scaffold.insertArtifact a artifacts ↔
      b ∈ artifacts ∨ (b = a ∧ a.key ∉ artifacts.map Artifact.key) := by
  induction artifacts with
  | nil => simp [Scaffold.insertArtifact]
  | cons c cs ih =>
      obtain ⟨hc, hcs⟩ := List.pairwise_cons.1 h
      simp only [Scaffold.insertArtifact]
      split
      · next hlt =>
          -- the key comes before all that are there
          have hnew : a.key ∉ (c :: cs).map Artifact.key := by
            intro hmem
            obtain ⟨x, hx, hkey⟩ := List.mem_map.1 hmem
            rcases List.mem_cons.1 hx with rfl | hx
            · exact Artifact.keyLt_irrefl _ (hkey ▸ hlt)
            · exact Artifact.keyLt_irrefl _ (hkey ▸ Artifact.keyLt_trans hlt (hc x hx))
          simp only [hnew, not_false_eq_true, and_true, List.mem_cons]
          exact or_comm
      · split
        · next heq => simp [heq]
        · next hne =>
            rw [List.mem_cons, ih hcs, List.map_cons, List.mem_cons, List.mem_cons, or_assoc]
            simp [hne]

/-- What is collected after other artifacts: these, and the first of every key that is new. -/
theorem IsCollected.mem_foldl {collected : List Artifact} (h : IsCollected collected)
    (artifacts : List Artifact) {a : Artifact} :
    a ∈ artifacts.foldl (fun acc a => Scaffold.insertArtifact a acc) collected ↔
      a ∈ collected ∨ (a.key ∉ collected.map Artifact.key ∧
        artifacts.find? (fun b => b.key == a.key) = some a) := by
  induction artifacts generalizing collected with
  | nil => simp
  | cons b artifacts ih =>
      rw [List.foldl_cons, ih (h.insertArtifact b), h.mem_insertArtifact, mem_keys_insertArtifact,
        List.find?_cons]
      by_cases hkey : b.key = a.key
      · have heq : a = b ↔ b = a := eq_comm
        simp [hkey, heq, and_comm]
      · have hne : a ≠ b := fun heq => hkey (heq ▸ rfl)
        have hkey' : ¬a.key = b.key := fun heq => hkey heq.symm
        have hbeq : (b.key == a.key) = false := by simpa using hkey
        simp [hkey', hbeq, hne]

/-- What is collected is the first artifact of its key. -/
theorem mem_collect_iff {artifacts : List Artifact} {a : Artifact} :
    a ∈ collect artifacts ↔ artifacts.find? (fun b => b.key == a.key) = some a := by
  have hnil : IsCollected [] := List.Pairwise.nil
  simp [collect, hnil.mem_foldl]

theorem mem_of_mem_collect {artifacts : List Artifact} {a : Artifact} (h : a ∈ collect artifacts) :
    a ∈ artifacts :=
  List.mem_of_find?_eq_some (mem_collect_iff.1 h)

/-- Choosing by key and collecting commute. -/
theorem filter_collect {p : Artifact → Bool} (hp : ∀ a b : Artifact, a.key = b.key → p a = p b)
    (artifacts : List Artifact) :
    (collect artifacts).filter p = collect (artifacts.filter p) := by
  refine IsCollected.ext ((isCollected_collect _).filter p) (isCollected_collect _) ?_
  intro a
  rw [List.mem_filter, mem_collect_iff, mem_collect_iff, List.find?_filter]
  cases ha : p a with
  | true =>
      -- the artifacts with the key are all chosen
      have hpred : (fun b : Artifact => decide (p b = true ∧ (b.key == a.key) = true)) =
          fun b => b.key == a.key := by
        funext b
        by_cases hkey : b.key = a.key
        · simp [hkey, hp b a hkey, ha]
        · simp [hkey]
      rw [hpred, and_iff_left rfl]
  | false =>
      refine iff_of_false (by simp) ?_
      intro hfind
      have := List.find?_some hfind
      simp [ha] at this

/-- Choosing by strategy and collecting commute. -/
theorem filter_collect_strategy (artifacts : List Artifact) (chosen : List Strategy) :
    (collect artifacts).filter (fun a => chosen.contains a.strategy) =
      collect (artifacts.filter fun a => chosen.contains a.strategy) := by
  refine filter_collect ?_ artifacts
  intro a b hab
  have hstrategy : a.strategy = b.strategy := (Artifact.key_eq_iff.1 hab).2
  rw [hstrategy]

/-- Where artifacts of one key are the same, all of them are collected. -/
theorem mem_collect_iff_mem {artifacts : List Artifact}
    (hone : ∀ a ∈ artifacts, ∀ b ∈ artifacts, a.key = b.key → a = b) {a : Artifact} :
    a ∈ collect artifacts ↔ a ∈ artifacts := by
  refine ⟨mem_of_mem_collect, ?_⟩
  intro ha
  rw [mem_collect_iff]
  cases hfind : artifacts.find? (fun b => b.key == a.key) with
  | none => exact absurd (List.find?_eq_none.1 hfind a ha) (by simp)
  | some b =>
      have hkey : b.key = a.key := by simpa using List.find?_some hfind
      rw [hone b (List.mem_of_find?_eq_some hfind) a ha hkey]

/-- **Lists with the same artifacts are collected to the same list**, if artifacts of one key are
the same. -/
theorem collect_congr {artifacts others : List Artifact}
    (hmem : ∀ a, a ∈ artifacts ↔ a ∈ others)
    (hone : ∀ a ∈ artifacts, ∀ b ∈ artifacts, a.key = b.key → a = b) :
    collect artifacts = collect others := by
  have hone' : ∀ a ∈ others, ∀ b ∈ others, a.key = b.key → a = b :=
    fun a ha b hb => hone a ((hmem a).2 ha) b ((hmem b).2 hb)
  refine IsCollected.ext (isCollected_collect _) (isCollected_collect _) ?_
  intro a
  rw [mem_collect_iff_mem hone, mem_collect_iff_mem hone', hmem]

/-! ### Tables -/

namespace NameMap

variable {α : Type}

/-- The entries of a table are what is found in it. -/
theorem mem_entries_iff {m : NameMap α} {k : String} {v : α} :
    (k, v) ∈ m.entries ↔ m.find? k = some v := by
  obtain ⟨entries, hsorted⟩ := m
  simp only [find?]
  induction entries with
  | nil => simp
  | cons e es ih =>
      obtain ⟨j, w⟩ := e
      rw [List.map_cons, List.pairwise_cons] at hsorted
      obtain ⟨hj, hes⟩ := hsorted
      rw [List.mem_cons, List.lookup_cons]
      by_cases hkey : k = j
      · subst hkey
        -- a later entry has a greater key
        have hnone : (k, v) ∉ es :=
          fun hmem => String.lt_irrefl k (hj k (List.mem_map.2 ⟨_, hmem, rfl⟩))
        simp [hnone, eq_comm]
      · have hbeq : (k == j) = false := by simpa using hkey
        simp [hkey, hbeq, ih hes]

/-- Lists of entries by increasing key are equal if they have the same entries. -/
theorem eq_of_mem_iff {es es' : List (String × α)} (h : (es.map Prod.fst).Pairwise (· < ·))
    (h' : (es'.map Prod.fst).Pairwise (· < ·)) (hmem : ∀ e, e ∈ es ↔ e ∈ es') : es = es' := by
  have : Std.Antisymm fun p q : String × α => p.1 < q.1 :=
    ⟨fun p q hpq hqp => absurd (String.lt_trans hpq hqp) (String.lt_irrefl _)⟩
  have : Std.Irrefl fun p q : String × α => p.1 < q.1 := ⟨fun p => String.lt_irrefl p.1⟩
  exact List.Pairwise.eq_of_mem_iff (List.pairwise_map.1 h) (List.pairwise_map.1 h') hmem

theorem find?_insert (m : NameMap α) (k j : String) (v : α) :
    (m.insert k v).find? j = if j = k then some v else m.find? j := by
  split
  · next heq => rw [heq, find?_insert_self]
  · next hne => exact find?_insert_of_ne m v hne

/-- A table made from entries with different keys holds these entries. -/
theorem find?_ofList {es : List (String × α)} (h : (es.map Prod.fst).Nodup) {k : String} {v : α} :
    (ofList es).find? k = some v ↔ (k, v) ∈ es := by
  have hfold : ∀ (m : NameMap α), (es.foldl (fun m e => m.insert e.1 e.2) m).find? k = some v ↔
      (k, v) ∈ es ∨ (k ∉ es.map Prod.fst ∧ m.find? k = some v) := by
    induction es with
    | nil => simp
    | cons e es ih =>
        intro m
        obtain ⟨j, w⟩ := e
        obtain ⟨hj, hes⟩ := List.nodup_cons.1 h
        rw [List.foldl_cons, ih hes, find?_insert]
        by_cases hkey : k = j
        · subst hkey
          have hmem : (k, v) ∉ es := fun hmem => hj (List.mem_map.2 ⟨_, hmem, rfl⟩)
          simp [hmem, hj, eq_comm]
        · simp [hkey]
  have hempty : (empty : NameMap α).find? k = none := rfl
  rw [ofList, hfold, hempty]
  simp

end NameMap

/-! ### Output units -/

theorem Strategy.mem_all (s : Strategy) : s ∈ all := by cases s <;> simp [all]

theorem Strategy.outputUnit_inj {s t : Strategy} : s.outputUnit = t.outputUnit ↔ s = t := by
  cases s <;> cases t <;> decide

namespace Emission

/-- The text of the unit of a strategy, if the strategy has artifacts. -/
def unit? (artifacts : List Artifact) (s : Strategy) : Option String :=
  if group artifacts s = [] then none else some (render (group artifacts s))

theorem emit_eq (artifacts : List Artifact) :
    emit artifacts = NameMap.ofList (Strategy.all.filterMap fun s =>
      (unit? artifacts s).map fun text => (s.outputUnit, text)) := by
  rw [emit]
  congr 2
  funext s
  rw [unit?]
  split
  · next hnil => simp [hnil]
  · next hne => simp [if_neg hne]

/-- **The output units and their texts**: every strategy that has artifacts has a unit, with the
text of these artifacts. -/
theorem mem_entries_emit {artifacts : List Artifact} {name text : String} :
    (name, text) ∈ (emit artifacts).entries ↔
      ∃ s : Strategy, s.outputUnit = name ∧ unit? artifacts s = some text := by
  have hkeys : ((Strategy.all.filterMap fun s =>
      (unit? artifacts s).map fun text => (s.outputUnit, text)).map Prod.fst).Nodup := by
    have hnodup : (Strategy.all.map Strategy.outputUnit).Nodup := by decide
    refine hnodup.sublist ?_
    induction Strategy.all with
    | nil => simp
    | cons s ss ih =>
        cases htext : unit? artifacts s with
        | none => simpa [htext] using ih.cons s.outputUnit
        | some text => simpa [htext] using ih
  rw [NameMap.mem_entries_iff, emit_eq, NameMap.find?_ofList hkeys, List.mem_filterMap]
  simp [Strategy.mem_all, and_comm]

/-- What is found in the unit of a strategy is its text. -/
theorem find?_emit (artifacts : List Artifact) (s : Strategy) :
    (emit artifacts).find? s.outputUnit = unit? artifacts s := by
  refine Option.ext fun text => ?_
  rw [← NameMap.mem_entries_iff, mem_entries_emit]
  simp [Strategy.outputUnit_inj]

theorem unit?_filter (artifacts : List Artifact) (chosen : List Strategy) (s : Strategy) :
    unit? (artifacts.filter fun a => chosen.contains a.strategy) s =
      if chosen.contains s then unit? artifacts s else none := by
  have hgroup : group (artifacts.filter fun a => chosen.contains a.strategy) s =
      if chosen.contains s then group artifacts s else [] := by
    rw [group, List.filter_filter]
    split
    · next hs =>
        refine List.filter_congr fun a _ => ?_
        by_cases heq : a.strategy = s
        · simpa [heq] using hs
        · simp [heq]
    · next hs =>
        rw [List.filter_eq_nil_iff]
        intro a _ ha
        simp only [Bool.and_eq_true, beq_iff_eq] at ha
        exact hs (ha.1 ▸ ha.2)
  rw [unit?, hgroup]
  split <;> simp_all [unit?]

/-- The units of the artifacts of some strategies are those of all artifacts that belong to these
strategies. -/
theorem entries_emit_filter (artifacts : List Artifact) (chosen : List Strategy) :
    (emit (artifacts.filter fun a => chosen.contains a.strategy)).entries =
      (emit artifacts).entries.filter fun e => chosen.any fun s => s.outputUnit == e.1 := by
  refine NameMap.eq_of_mem_iff (NameMap.sorted _)
    ((NameMap.sorted _).sublist (List.filter_sublist.map _)) ?_
  rintro ⟨name, text⟩
  rw [mem_entries_emit, List.mem_filter, mem_entries_emit]
  simp only [unit?_filter, List.any_eq_true, beq_iff_eq]
  constructor
  · rintro ⟨s, rfl, hs⟩
    split at hs
    · next hchosen => exact ⟨⟨s, rfl, hs⟩, s, by simpa using hchosen, rfl⟩
    · cases hs
  · rintro ⟨⟨s, rfl, hs⟩, t, ht, hunit⟩
    cases Strategy.outputUnit_inj.1 hunit
    exact ⟨s, rfl, by simpa [ht] using hs⟩

end Emission

/-! ### Reports -/

/-- Items of the chosen lists are the chosen items, if those of a list are chosen with it. -/
theorem filter_flatMap_of_forall {α β : Type} {f : α → List β} {p : β → Bool} {q : α → Bool}
    {xs : List α} (h : ∀ x ∈ xs, ∀ y ∈ f x, p y = q x) :
    (xs.flatMap f).filter p = (xs.filter q).flatMap f := by
  induction xs with
  | nil => rfl
  | cons x xs ih =>
      have hx := h x (by simp)
      rw [List.flatMap_cons, List.filter_append, ih fun y hy => h y (List.mem_cons_of_mem _ hy),
        List.filter_cons]
      split
      · next hq =>
          rw [List.flatMap_cons, List.filter_eq_self.2 fun y hy => (hx y hy).trans hq]
      · next hq =>
          rw [List.filter_eq_nil_iff.2 fun y hy => by rwa [hx y hy], List.nil_append]

/-- An artifact of a generator that yields one is all that it yields. -/
theorem Generated.IsSingle.of_mem {g : Generated} {name : String} {s : Strategy}
    (h : g.IsSingle name s) {a : Artifact} (ha : a ∈ g.artifacts) :
    g.artifacts = [a] ∧ a.declaration = name ∧ a.strategy = s := by
  cases g with
  | error => cases ha
  | ok artifacts =>
      obtain ⟨b, rfl, hkey⟩ := h
      rw [List.mem_singleton.1 ha]
      exact ⟨rfl, Artifact.key_eq_iff.1 hkey⟩

/-- All generators but that of mappings yield one artifact, or problems. -/
theorem isSingle_apply (ctx : Context) (d : Declaration) {s : Strategy} (hmapping : s ≠ .mapping)
    (hregistration : s ≠ .registration) : (apply ctx d s).IsSingle d.name s := by
  cases s with
  | failingMock => exact FailingMock.isSingle_generate ctx d
  | stub => exact Stub.isSingle_generate ctx d
  | feature => exact Feature.isSingle_generate ctx d
  | mapping => exact absurd rfl hmapping
  | registration => exact absurd rfl hregistration

section Tasks

variable {settings : Settings} {provider : FixtureProvider} {corpus : Corpus}

/-- The artifacts of a task for a mapping are those of planned pairs. -/
theorem isPlannedMapping_of_mem_apply (hcorpus : corpus.IsIndexed) {d : Declaration}
    (htask : (d, .mapping) ∈ tasks (contextOf settings provider corpus)) {a : Artifact}
    (ha : a ∈ (apply (contextOf settings provider corpus) d .mapping).artifacts) :
    Mapping.IsPlannedMapping (contextOf settings provider corpus) a := by
  obtain ⟨source, r, hpair, hr, hsource⟩ := exists_isPair_of_mem_tasks hcorpus htask
  rcases Mapping.generate_of_isPair hpair hr hsource with
    ⟨-, artifacts, hok, -, hplanned⟩ | ⟨-, misfits, herror⟩
  · simp only [apply, hok] at ha
    exact hplanned a ha
  · simp only [apply, herror] at ha
    cases ha

/-- The artifacts of a task are of its strategy. -/
theorem strategy_of_mem_apply (hcorpus : corpus.IsIndexed) {d : Declaration} {s : Strategy}
    (htask : (d, s) ∈ tasks (contextOf settings provider corpus)) {a : Artifact}
    (ha : a ∈ (apply (contextOf settings provider corpus) d s).artifacts) : a.strategy = s := by
  by_cases hmapping : s = .mapping
  · subst hmapping
    exact (isPlannedMapping_of_mem_apply hcorpus htask ha).1
  · obtain ⟨-, r, -, -, hregistration⟩ := mem_tasks.1 htask
    exact ((isSingle_apply _ d hmapping hregistration).of_mem ha).2.2

end Tasks

/-- What registering yields in a run, which is nothing if it is not asked for. -/
def Context.registered (ctx : Context) : Option Artifact × List Problem :=
  if ctx.settings.runs .registration then Registration.generate ctx else (none, [])

theorem Context.strategy_of_mem_registered {ctx : Context} {a : Artifact}
    (h : a ∈ ctx.registered.1.toList) : a.strategy = .registration := by
  simp only [registered] at h
  split at h
  · exact Registration.strategy_of_generate (Option.mem_toList.1 h)
  · cases h

section Report

variable (processors : Nat) (settings : Settings) (provider : FixtureProvider) (o : Outcome)

/-- The artifacts of a run are those of all tasks and the table. -/
theorem artifacts_generateFrom :
    (generateFrom processors settings provider o).artifacts =
      collect ((tasks (runContext settings provider o)).flatMap
          (fun t => (apply (runContext settings provider o) t.1 t.2).artifacts) ++
        (runContext settings provider o).registered.1.toList) := by
  simp only [generateFrom, Workforce.map_eq, List.flatMap_map, Context.registered, contextOf]

/-- The problems of a run are those of reading, of resolving, of all tasks and of the table. -/
theorem problems_generateFrom :
    (generateFrom processors settings provider o).problems =
      relevantProblems (Corpus.build o.entries).1 settings.naming o ++
        (Corpus.build o.entries).2 ++ (resolveAll (Corpus.build o.entries).1 settings).2 ++
        (tasks (runContext settings provider o)).flatMap
          (fun t => (apply (runContext settings provider o) t.1 t.2).problems) ++
        (runContext settings provider o).registered.2 := by
  simp only [generateFrom, Workforce.map_eq, List.flatMap_map, Context.registered, contextOf]

theorem outputs_generateFrom :
    (generateFrom processors settings provider o).outputs =
      Emission.emit (generateFrom processors settings provider o).artifacts := rfl

end Report

end Scaffold
