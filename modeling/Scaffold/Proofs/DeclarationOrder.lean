/-
**The order of declarations.**

Declarations with different names may come in any order: failing mocks, stubs and mappings look up
names, and what they find is the same wherever it stands.  A mapping may come from several tasks, as
each brings along the pairs that it relies on, and which of them is kept depends on the order; but
it is the artifact of one pair and its one plan, so all of them are the same.

Features are left out, as a child has to come before the feature that composes it, and so is the
table of dependencies, which lists its entries in order.

Main definitions:

* `Scaffold.Corpus.Rearranged` — corpora of the same declarations in another order;
* `Scaffold.Context.yields` — the artifacts of all tasks.

Main results:

* `Scaffold.Mapping.exists_plan_of_mem_generateFrom` — a mapping is the artifact of a planned pair;
* `Scaffold.eq_of_mem_yields` — **tasks yield one artifact of each key**;
* `Scaffold.Corpus.Rearranged.agrees` — rearranged corpora agree;
* `Scaffold.generateParsed_perm` — **mocks, stubs and mappings do not depend on the order of
  declarations**.
-/

import Scaffold.Proofs.OutputUnits
import Scaffold.Proofs.RunAgreement

set_option relaxedAutoImplicit false
set_option autoImplicit false

namespace Scaffold

/-! ### One artifact of each key -/

/-- A mapping is the artifact of a pair and its plan, whichever pair it was generated for. -/
theorem Mapping.exists_plan_of_mem_generateFrom {ctx : Context} {fuel : Nat} {done : List String}
    {pending : List (Declaration × Declaration)}
    (hpending : ∀ q ∈ pending, IsPair ctx.corpus ctx.settings.naming q) {a : Artifact}
    (ha : a ∈ (generateFrom ctx fuel done pending).artifacts) :
    ∃ q p, IsPair ctx.corpus ctx.settings.naming q ∧
      plan ctx.corpus ctx.settings q.1 q.2 = .ok p ∧ a = p.artifact q.1.name q.2.name := by
  induction fuel generalizing done pending with
  | zero => cases ha
  | succ fuel ih =>
      cases pending with
      | nil => cases ha
      | cons q pending =>
          obtain ⟨target, source⟩ := q
          have hrest : ∀ q ∈ pending, IsPair ctx.corpus ctx.settings.naming q :=
            fun q hq => hpending q (List.mem_cons_of_mem _ hq)
          simp only [generateFrom] at ha
          split at ha
          · exact ih hrest ha
          · split at ha
            · cases ha
            · next p hp =>
                split at ha
                · cases ha
                · next artifacts hok =>
                    rcases List.mem_cons.1 ha with rfl | ha
                    · exact ⟨(target, source), p, hpending _ (by simp), hp, rfl⟩
                    · have ha : a ∈ (generateFrom ctx fuel (target.name :: done)
                          (p.pairs ctx ++ pending)).artifacts := by
                        simpa [hok, Generated.artifacts] using ha
                      refine ih ?_ ha
                      intro q hq
                      rcases List.mem_append.1 hq with hq | hq
                      · obtain ⟨name, -, hq⟩ := List.mem_filterMap.1 hq
                        exact (isPair_of_pair? hq).2
                      · exact hrest q hq

/-- The artifacts of all tasks, in order. -/
def Context.yields (ctx : Context) : List Artifact :=
  (tasks ctx).flatMap fun t => (apply ctx t.1 t.2).artifacts

section Yields

variable {settings : Settings} {provider : FixtureProvider} {corpus : Corpus}

theorem mem_yields {ctx : Context} {a : Artifact} :
    a ∈ ctx.yields ↔ ∃ d s, (d, s) ∈ tasks ctx ∧ a ∈ (apply ctx d s).artifacts := by
  simp [Context.yields]

/-- Mappings of one declaration are the same, whichever tasks they come from. -/
theorem eq_of_mem_mappings (hcorpus : corpus.IsIndexed) {d e : Declaration}
    (hd : (d, .mapping) ∈ tasks (contextOf settings provider corpus))
    (he : (e, .mapping) ∈ tasks (contextOf settings provider corpus)) {a b : Artifact}
    (ha : a ∈ (apply (contextOf settings provider corpus) d .mapping).artifacts)
    (hb : b ∈ (apply (contextOf settings provider corpus) e .mapping).artifacts)
    (hname : a.declaration = b.declaration) : a = b := by
  have hplan : ∀ {d : Declaration} {a : Artifact},
      (d, .mapping) ∈ tasks (contextOf settings provider corpus) →
      a ∈ (apply (contextOf settings provider corpus) d .mapping).artifacts →
      ∃ q p, Mapping.IsPair corpus settings.naming q ∧
        Mapping.plan corpus settings q.1 q.2 = .ok p ∧ a = p.artifact q.1.name q.2.name := by
    intro d a hd ha
    obtain ⟨source, r, hpair, hr, hsource⟩ := exists_isPair_of_mem_tasks hcorpus hd
    rw [apply, Mapping.generate_eq_generateFrom hpair hr hsource] at ha
    refine Mapping.exists_plan_of_mem_generateFrom ?_ ha
    intro q hq
    rw [List.mem_singleton.1 hq]
    exact hpair
  obtain ⟨q, p, hq, hp, rfl⟩ := hplan hd ha
  obtain ⟨q', p', hq', hp', rfl⟩ := hplan he hb
  -- a target has one transfer object, and the pair has one plan
  obtain rfl : q = q' := hq.eq hq' (by simpa [Mapping.Plan.artifact] using hname)
  rw [hp] at hp'
  rw [Except.ok.inj hp']

/-- **Tasks yield one artifact of each key.** -/
theorem eq_of_mem_yields (hcorpus : corpus.IsIndexed) {a b : Artifact}
    (ha : a ∈ (contextOf settings provider corpus).yields)
    (hb : b ∈ (contextOf settings provider corpus).yields) (hkey : a.key = b.key) : a = b := by
  obtain ⟨d, s, hd, ha⟩ := mem_yields.1 ha
  obtain ⟨e, t, he, hb⟩ := mem_yields.1 hb
  obtain ⟨hname, hstrategy⟩ : a.declaration = b.declaration ∧ a.strategy = b.strategy :=
    Artifact.key_eq_iff.1 hkey
  obtain rfl : s = t := by
    rw [← strategy_of_mem_apply hcorpus hd ha, hstrategy, strategy_of_mem_apply hcorpus he hb]
  by_cases hmapping : s = .mapping
  · subst hmapping
    exact eq_of_mem_mappings hcorpus hd he ha hb hname
  · obtain ⟨-, r, -, -, hregistration⟩ := mem_tasks.1 hd
    have hsingle := fun x =>
      isSingle_apply (contextOf settings provider corpus) x hmapping hregistration
    obtain ⟨ha', hda, -⟩ := (hsingle d).of_mem ha
    obtain ⟨hb', heb, -⟩ := (hsingle e).of_mem hb
    -- a single artifact is that of the declaration it is named after
    obtain rfl : d = e := by
      refine hcorpus.eq_of_name (mem_tasks.1 hd).1 (mem_tasks.1 he).1 ?_
      rw [← hda, hname, heb]
    exact List.singleton_inj.1 (ha'.symm.trans hb')

end Yields

/-! ### Rearranged corpora -/

/-- Two corpora have the same declarations with the same markers, in any order. -/
def Corpus.Rearranged (c c' : Corpus) : Prop :=
  (c.entries.map (·.placed 0)).Perm (c'.entries.map (·.placed 0))

namespace Corpus

theorem rearranged_build {es es' : List Entry} (hnodup : (es.map fun e => e.declaration.name).Nodup)
    (hperm : es.Perm es') : (build es).1.Rearranged (build es').1 := by
  have hplaces : ∀ {es : List Entry}, (es.map fun e => e.declaration.name).Nodup →
      (build es).1.entries.map (·.placed 0) = es.map (·.placed 0) := by
    intro es hes
    rw [build_of_nodup hes]
    refine List.ext_getElem (by simp) ?_
    intro i _ _
    simp
  rw [Rearranged, hplaces hnodup, hplaces ((hperm.map _).nodup_iff.1 hnodup)]
  exact hperm.map _

namespace Rearranged

variable {c c' : Corpus}

theorem symm (h : c.Rearranged c') : c'.Rearranged c := List.Perm.symm h

/-- The entry of the other corpus. -/
theorem exists_entry (h : c.Rearranged c') {e : Entry} (he : e ∈ c.entries) :
    ∃ e' ∈ c'.entries, e.declaration.Alike e'.declaration ∧ e.markers = e'.markers := by
  obtain ⟨e', he', heq⟩ := List.mem_map.1 (h.subset (List.mem_map_of_mem he))
  refine ⟨e', he', ⟨?_, ?_⟩, ?_⟩
  · exact (congrArg (fun e => e.declaration.name) heq).symm
  · exact (congrArg (fun e => e.declaration.shape) heq).symm
  · exact (congrArg Entry.markers heq).symm

theorem exists_get? (h : c.Rearranged c') (hindexed' : c'.IsIndexed) {name : String}
    {d : Declaration} (hd : c.get? name = some d) : ∃ d', c'.get? name = some d' ∧ d.Alike d' := by
  obtain ⟨e, he, rfl⟩ := List.mem_map.1 (List.mem_of_find?_eq_some hd)
  obtain ⟨e', he', halike, -⟩ := h.exists_entry he
  refine ⟨e'.declaration, ?_, halike⟩
  rw [← name_of_get? hd, halike.name]
  exact hindexed'.get?_name (List.mem_map_of_mem he')

/-- **Rearranged corpora agree** on all names. -/
theorem agrees (h : c.Rearranged c') (hindexed : c.IsIndexed) (hindexed' : c'.IsIndexed)
    (naming : Naming) : c.Agrees naming Set.univ c' where
  closed := fun _ _ _ _ _ => Set.mem_univ _
  shape := by
    intro name _
    cases hd : c.get? name with
    | some d =>
        obtain ⟨d', hd', halike⟩ := h.exists_get? hindexed' hd
        rw [hd', Option.map_some, Option.map_some, halike.shape]
    | none =>
        cases hd' : c'.get? name with
        | none => rfl
        | some d' =>
            obtain ⟨d, hsome, -⟩ := h.symm.exists_get? hindexed hd'
            rw [hd] at hsome
            cases hsome

section Contexts

variable (h : c.Rearranged c') (hindexed : c.IsIndexed) (hindexed' : c'.IsIndexed)
  (settings : Settings) (provider : FixtureProvider)
include h hindexed hindexed'

/-- What a name is resolved to in one corpus it is resolved to in the other. -/
theorem resolution? {name : String} {r : Resolution}
    (hr : (contextOf settings provider c).resolution? name = some r) :
    (contextOf settings provider c').resolution? name = some r := by
  obtain ⟨e, he, hname, hfst⟩ := (resolution?_eq_some_iff hindexed).1 hr
  obtain ⟨e', he', halike, hmarkers⟩ := h.exists_entry he
  refine (resolution?_eq_some_iff hindexed').2 ⟨e', he', halike.name ▸ hname, ?_⟩
  have htwins : Corpus.Twins Set.univ c c' e.declaration e'.declaration :=
    ⟨Set.mem_univ _, hindexed.get?_name (List.mem_map_of_mem he),
      hindexed'.get?_name (List.mem_map_of_mem he'), halike⟩
  rw [← resolve_congr (h.agrees hindexed hindexed' settings.naming) htwins hmarkers, hfst]

/-- What the tasks of one corpus yield, features aside, those of the other yield. -/
theorem mem_yields {a : Artifact} (ha : a ∈ (contextOf settings provider c).yields)
    (hfeature : a.strategy ≠ .feature) : a ∈ (contextOf settings provider c').yields := by
  obtain ⟨d, s, htask, ha⟩ := Scaffold.mem_yields.1 ha
  obtain ⟨hd, r, hr, hs⟩ := mem_tasks.1 htask
  obtain ⟨d', hd', halike⟩ := h.exists_get? hindexed' (hindexed.get?_name hd)
  have htask' : (d', s) ∈ tasks (contextOf settings provider c') := by
    refine mem_tasks.2 ⟨List.mem_of_find?_eq_some hd', r, ?_, hs⟩
    rw [← halike.name]
    exact h.resolution? hindexed hindexed' settings provider hr
  have hagrees : (contextOf settings provider c).Agrees Set.univ (contextOf settings provider c') :=
    ⟨rfl, rfl, h.agrees hindexed hindexed' settings.naming⟩
  refine Scaffold.mem_yields.2 ⟨d', s, htask', ?_⟩
  rw [← apply_congr hindexed hindexed' hagrees (Set.mem_univ _) htask htask' halike.name]
  · exact ha
  · intro hs
    exact absurd ((strategy_of_mem_apply hindexed htask ha).trans hs) hfeature

/-- The artifacts of some strategies, features aside, are collected to the same list. -/
theorem collect_yields {chosen : List Strategy} (hchosen : Strategy.feature ∉ chosen) :
    collect ((contextOf settings provider c).yields.filter fun a => chosen.contains a.strategy) =
      collect ((contextOf settings provider c').yields.filter
        fun a => chosen.contains a.strategy) := by
  refine collect_congr ?_ ?_
  · intro a
    rw [List.mem_filter, List.mem_filter]
    refine and_congr_left fun ha => ?_
    have hfeature : a.strategy ≠ .feature := by
      intro heq
      exact hchosen (by simpa [heq] using ha)
    constructor
    · intro hmem
      exact h.mem_yields hindexed hindexed' settings provider hmem hfeature
    · intro hmem
      exact h.symm.mem_yields hindexed' hindexed settings provider hmem hfeature
  · intro a ha b hb
    exact eq_of_mem_yields hindexed (List.mem_filter.1 ha).1 (List.mem_filter.1 hb).1

end Contexts

end Rearranged

end Corpus

/-! ### Reports -/

/-- The artifacts of some strategies, the table aside, are collected from what the tasks yield. -/
theorem filter_artifacts_generateFrom (processors : Nat) (settings : Settings)
    (provider : FixtureProvider) (o : Outcome) {chosen : List Strategy}
    (hchosen : Strategy.registration ∉ chosen) :
    (generateFrom processors settings provider o).artifacts.filter
        (fun a => chosen.contains a.strategy) =
      collect ((runContext settings provider o).yields.filter
        fun a => chosen.contains a.strategy) := by
  have htable : (runContext settings provider o).registered.1.toList.filter
      (fun a => chosen.contains a.strategy) = [] := by
    rw [List.filter_eq_nil_iff]
    intro a ha
    rw [Context.strategy_of_mem_registered ha]
    simpa using hchosen
  rw [artifacts_generateFrom, filter_collect_strategy, List.filter_append, htable, List.append_nil]
  rfl

/-- **Mocks, stubs and mappings do not depend on the order of declarations**: whatever the order of
declarations with different names, a run has the same artifacts of these strategies and the same
texts in their units.  A mapping that several tasks bring along is the same artifact in all of
them, in either order. -/
theorem generateParsed_perm (processors : Nat) (settings : Settings) (provider : FixtureProvider)
    {es es' : List Entry} (hnodup : (es.map fun e => e.declaration.name).Nodup)
    (hperm : es.Perm es') :
    let report := generateParsed processors settings provider es
    let report' := generateParsed processors settings provider es'
    let ctx := runContext settings provider { entries := es }
    let ctx' := runContext settings provider { entries := es' }
    let chosen := [Strategy.failingMock, .stub, .mapping]
    report.artifacts.filter (fun a => chosen.contains a.strategy) =
        report'.artifacts.filter (fun a => chosen.contains a.strategy) ∧
      (∀ s ∈ chosen, report.outputs.find? s.outputUnit = report'.outputs.find? s.outputUnit) ∧
      ∀ d d', (d, .mapping) ∈ tasks ctx → (d', .mapping) ∈ tasks ctx' →
        ∀ a ∈ (apply ctx d .mapping).artifacts, ∀ a' ∈ (apply ctx' d' .mapping).artifacts,
          a.declaration = a'.declaration → a = a' := by
  have hindexed := Corpus.isIndexed_build es
  have hindexed' := Corpus.isIndexed_build es'
  have hrearranged := Corpus.rearranged_build hnodup hperm
  intro report report' ctx ctx' chosen
  have hartifacts : report.artifacts.filter (fun a => chosen.contains a.strategy) =
      report'.artifacts.filter (fun a => chosen.contains a.strategy) := by
    have hchosen : Strategy.registration ∉ chosen := by decide
    calc
      _ = collect (ctx.yields.filter fun a => chosen.contains a.strategy) :=
        filter_artifacts_generateFrom processors settings provider _ hchosen
      _ = collect (ctx'.yields.filter fun a => chosen.contains a.strategy) :=
        hrearranged.collect_yields hindexed hindexed' settings provider (by decide)
      _ = _ := (filter_artifacts_generateFrom processors settings provider _ hchosen).symm
  refine ⟨hartifacts, ?_, ?_⟩
  · intro s hs
    have hunit : ∀ artifacts : List Artifact, (Emission.emit artifacts).find? s.outputUnit =
        Emission.unit? (artifacts.filter fun a => chosen.contains a.strategy) s := by
      intro artifacts
      rw [Emission.find?_emit, Emission.unit?_filter, if_pos (by simpa using hs)]
    calc
      _ = Emission.unit? (report.artifacts.filter fun a => chosen.contains a.strategy) s :=
        hunit report.artifacts
      _ = Emission.unit? (report'.artifacts.filter fun a => chosen.contains a.strategy) s := by
        rw [hartifacts]
      _ = _ := (hunit report'.artifacts).symm
  · intro d d' hd hd' a ha a' ha' hname
    have hstrategy := strategy_of_mem_apply hindexed hd ha
    have hstrategy' := strategy_of_mem_apply hindexed' hd' ha'
    -- the mapping is yielded in the other order as well
    have hmem : a ∈ ctx'.yields := by
      refine hrearranged.mem_yields hindexed hindexed' settings provider ?_ (by simp [hstrategy])
      exact mem_yields.2 ⟨d, .mapping, hd, ha⟩
    refine eq_of_mem_yields hindexed' hmem (mem_yields.2 ⟨d', .mapping, hd', ha'⟩) ?_
    exact Artifact.key_eq_iff.2 ⟨hname, hstrategy.trans hstrategy'.symm⟩

/-- A shelf and a desk both bring along the mapping of a book.  Read backwards, the desk does so
first. -/
theorem generateParsed_perm_books :
    let struct := fun (name field : String) (type : TypeRef) =>
      ({ name, shape := .value { form := .struct, fields := [⟨field, type, none, true⟩] } } :
        Declaration)
    let es : List Entry :=
      [⟨struct "Shelf" "books" (.sequence (.named "Book" [])), ["AutoMappable"]⟩,
        ⟨struct "Desk" "book" (.named "Book" []), ["AutoMappable"]⟩,
        ⟨struct "Book" "title" (.primitive "String"), []⟩,
        ⟨struct "ShelfDTO" "books" (.sequence (.named "BookDTO" [])), []⟩,
        ⟨struct "DeskDTO" "book" (.named "BookDTO" []), []⟩,
        ⟨struct "BookDTO" "title" (.primitive "String"), []⟩]
    let report := generateParsed 4 {} ({} : NameMap String) es
    let report' := generateParsed 4 {} ({} : NameMap String) es.reverse
    let chosen := [Strategy.failingMock, .stub, .mapping]
    report.artifacts.map Artifact.declaration = ["Book", "Desk", "Shelf"] ∧
      report.artifacts.filter (fun a => chosen.contains a.strategy) =
        report'.artifacts.filter (fun a => chosen.contains a.strategy) ∧
      ∀ s ∈ chosen, report.outputs.find? s.outputUnit = report'.outputs.find? s.outputUnit := by
  intro struct es
  have hdeclarations : (generateParsed 4 {} ({} : NameMap String) es).artifacts.map
      Artifact.declaration = ["Book", "Desk", "Shelf"] := by decide +kernel
  have hnodup : (es.map fun e => e.declaration.name).Nodup := by decide
  obtain ⟨hartifacts, houtputs, -⟩ :=
    generateParsed_perm 4 {} ({} : NameMap String) hnodup es.reverse_perm.symm
  exact ⟨hdeclarations, hartifacts, houtputs⟩

end Scaffold
