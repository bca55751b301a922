/-
**Which declarations are mapped.**

Before a declaration is mapped for its own sake, it is checked to be a struct or an enumeration
without values that has a transfer object of the same form.  A pair that a mapping relies on is
planned without this check.  A plan needs two value types or two enumerations without values, so
most of the check is made up for; but value types may be classes or actors, and need not be of one
form.

Main results:

* `Scaffold.mappable_eq_ok_iff` — what is checked;
* `Scaffold.Mapping.shapes_of_mem_planned` — what a plan needs;
* `Scaffold.isPlannedMapping_of_mem_artifacts` — every mapping of a run is that of a planned pair;
* `Scaffold.mappable_or_values_of_mapping` — **every mapping passes the check, unless it is that of a
  pair of value types which are not both structs**, and which only other mappings rely on;
* `Scaffold.class_mapped_unchecked` — the mapping of a class that does not pass.
-/

import Scaffold.Proofs.OutputUnits

set_option relaxedAutoImplicit false
set_option autoImplicit false

namespace Scaffold

/-! ### What is checked -/

/-- A declaration can be mapped from its transfer object if nothing about it is in the way and both
are of one form. -/
theorem mappable_eq_ok_iff {corpus : Corpus} {naming : Naming} {d source : Declaration} :
    mappable corpus naming d = .ok source ↔
      mappingObstacle? d = none ∧ corpus.counterpart? naming d.name = some source ∧
        source.form = d.form := by
  simp only [mappable]
  cases mappingObstacle? d with
  | some o => simp
  | none =>
      cases corpus.counterpart? naming d.name with
      | none => simp
      | some s =>
          by_cases hform : s.form = d.form
          · simp only [if_pos hform, Except.ok.injEq, true_and, Option.some.injEq]
            constructor
            · rintro rfl
              exact ⟨rfl, hform⟩
            · exact And.left
          · simp only [if_neg hform, reduceCtorEq, true_and, Option.some.injEq, false_iff]
            rintro ⟨rfl, h⟩
            exact hform h

/-- A strategy that applies to a declaration has nothing in its way. -/
theorem obstacle?_of_runs {settings : Settings} {provider : FixtureProvider} {corpus : Corpus}
    (hcorpus : corpus.IsIndexed) {d : Declaration} (hd : d ∈ corpus.declarations) {s : Strategy}
    (hruns : (contextOf settings provider corpus).runs d.name s = true) :
    obstacle? corpus settings.naming d s = none := by
  obtain ⟨r, hr, hs⟩ := (Option.any_eq_true _ _).1 hruns
  obtain ⟨e, -, rfl, hresolve⟩ := exists_entry_of_resolution? hcorpus hd hr
  exact (resolve_fst_eq_some hresolve).2.1 s (by simpa [Resolution.runs] using hs)

/-! ### What a plan needs -/

/-- A pair that is planned is one of value types or one of enumerations without values. -/
theorem Mapping.shapes_of_mem_planned {corpus : Corpus} {settings : Settings}
    {d source : Declaration} (h : (d, source) ∈ planned corpus settings) :
    (∃ v w, d.shape = .value v ∧ source.shape = .value w) ∨
      ∃ t s, d.shape = .enumeration t ∧ source.shape = .enumeration s ∧
        t.hasAssociatedValues = false := by
  have hfits := (supported_nil_iff.1 supported_planned _ h).2
  rw [Fits] at hfits
  generalize d.shape = target, source.shape = origin at hfits ⊢
  cases target with
  | contract c => exact False.elim hfits
  | value v =>
      cases origin with
      | value w => exact Or.inl ⟨v, w, rfl, rfl⟩
      | contract c => exact False.elim hfits
      | enumeration s => exact False.elim hfits
  | enumeration t =>
      cases origin with
      | enumeration s => exact Or.inr ⟨t, s, rfl, rfl, hfits.targetPlain⟩
      | contract c => exact False.elim hfits
      | value w => exact False.elim hfits

/-- **Every mapping of a run is that of a planned pair.** -/
theorem isPlannedMapping_of_mem_artifacts {processors : Nat} {settings : Settings}
    {provider : FixtureProvider} {o : Outcome} {a : Artifact}
    (ha : a ∈ (generateFrom processors settings provider o).artifacts)
    (hmapping : a.strategy = .mapping) :
    Mapping.IsPlannedMapping (runContext settings provider o) a := by
  have hcorpus := Corpus.isIndexed_build o.entries
  rw [artifacts_generateFrom] at ha
  rcases List.mem_append.1 (mem_of_mem_collect ha) with ha | ha
  · obtain ⟨⟨d, s⟩, htask, ha⟩ := List.mem_flatMap.1 ha
    obtain rfl : s = .mapping := (strategy_of_mem_apply hcorpus htask ha).symm.trans hmapping
    exact isPlannedMapping_of_mem_apply hcorpus htask ha
  · have htable := Context.strategy_of_mem_registered ha
    rw [hmapping] at htable
    cases htable

/-! ### The mappings of a run -/

/-- **Every mapping of a run passes the check, but for one gap**: it belongs to a declaration that has
a transfer object.  If the declaration is mapped for its own sake it passes, and in any case unless
it and its transfer object are value types that are not both structs. -/
theorem mappable_or_values_of_mapping {processors : Nat} {settings : Settings}
    {provider : FixtureProvider} {o : Outcome} {a : Artifact}
    (ha : a ∈ (generateFrom processors settings provider o).artifacts)
    (hmapping : a.strategy = .mapping) :
    let corpus := (Corpus.build o.entries).1
    ∃ d source, corpus.get? a.declaration = some d ∧
      corpus.counterpart? settings.naming d.name = some source ∧
      ((runContext settings provider o).runs d.name .mapping = true →
        mappable corpus settings.naming d = .ok source) ∧
      (mappable corpus settings.naming d = .ok source ∨
        ∃ v w, d.shape = .value v ∧ source.shape = .value w ∧
          ¬(v.form = .struct ∧ w.form = .struct)) := by
  intro corpus
  have hcorpus := Corpus.isIndexed_build o.entries
  obtain ⟨-, ⟨d, source⟩, hp, hname⟩ := isPlannedMapping_of_mem_artifacts ha hmapping
  have hget : corpus.get? d.name = some d := hp.1.1
  have hsource : corpus.counterpart? settings.naming d.name = some source := hp.1.2
  refine ⟨d, source, hname ▸ hget, hsource, ?_, ?_⟩
  · intro hruns
    have hobstacle := obstacle?_of_runs hcorpus (List.mem_of_find?_eq_some hget) hruns
    simp only [obstacle?] at hobstacle
    split at hobstacle
    · next s hs =>
        -- the transfer object of the check is that of the pair
        have hfound := (mappable_eq_ok_iff.1 hs).2.1
        rw [hsource] at hfound
        rw [hs, Option.some.inj hfound]
    · cases hobstacle
  · rcases Mapping.shapes_of_mem_planned hp with ⟨v, w, hv, hw⟩ | ⟨t, s, ht, hs, hplain⟩
    · by_cases hstructs : v.form = .struct ∧ w.form = .struct
      · refine Or.inl (mappable_eq_ok_iff.2 ⟨?_, hsource, ?_⟩)
        · simp [mappingObstacle?, hv, hstructs.1]
        · simp [Declaration.form, hv, hw, hstructs]
      · exact Or.inr ⟨v, w, hv, hw, hstructs⟩
    · refine Or.inl (mappable_eq_ok_iff.2 ⟨?_, hsource, ?_⟩)
      · simp [mappingObstacle?, ht, hplain]
      · simp [Declaration.form, ht, hs]

/-- A shelf relies on the mapping of a book, which is a class. -/
theorem mappable_or_values_of_mapping_book :
    let value := fun (form : ValueForm) (name field : String) (type : TypeRef) =>
      ({ name, shape := .value { form, fields := [⟨field, type, none, true⟩] } } : Declaration)
    let o : Outcome :=
      { entries :=
          [⟨value .struct "Shelf" "book" (.named "Book" []), ["AutoMappable"]⟩,
            ⟨value .struct "ShelfDTO" "book" (.named "BookDTO" []), []⟩,
            ⟨value .classForm "Book" "title" (.primitive "String"), []⟩,
            ⟨value .classForm "BookDTO" "title" (.primitive "String"), []⟩] }
    let corpus := (Corpus.build o.entries).1
    (∃ a ∈ (generateFrom 4 {} ({} : NameMap String) o).artifacts,
      a.declaration = "Book" ∧ a.strategy = .mapping) ∧
    ∃ d source, corpus.get? "Book" = some d ∧ corpus.counterpart? {} d.name = some source ∧
      ((runContext {} ({} : NameMap String) o).runs d.name .mapping = true →
        mappable corpus {} d = .ok source) ∧
      (mappable corpus {} d = .ok source ∨
        ∃ v w, d.shape = .value v ∧ source.shape = .value w ∧
          ¬(v.form = .struct ∧ w.form = .struct)) := by
  intro value o
  have hbook : ∃ a ∈ (generateFrom 4 {} ({} : NameMap String) o).artifacts,
      a.declaration = "Book" ∧ a.strategy = .mapping := by decide +kernel
  refine ⟨hbook, ?_⟩
  obtain ⟨a, ha, hname, hmapping⟩ := hbook
  have h := mappable_or_values_of_mapping ha hmapping
  rw [hname] at h
  exact h

/-- A struct that holds a class, both with transfer objects and tags. -/
def structOfClass : List Source :=
  [⟨"A.swift", "// sourcery: autoMappableFromDTO\nstruct A \x7b\n  var b: B\n\x7d\n" ++
    "struct ADTO \x7b\n  var b: BDTO\n\x7d\n" ++
    "// sourcery: autoMappableFromDTO\nclass B \x7b\n  var x: Int\n\x7d\n" ++
    "class BDTO \x7b\n  var x: Int\n\x7d"⟩]

/-- A run that reports that a class cannot be mapped maps it all the same, as a struct relies on
it. -/
theorem class_mapped_unchecked :
    let report := generate 4 {} ({} : NameMap String) structOfClass
    let corpus := (Corpus.build (readUnits 4 {} structOfClass).entries).1
    report.artifacts.map Artifact.key =
        [("A", "autoMappableFromDTO"), ("B", "autoMappableFromDTO")] ∧
      report.problems = [.unresolvable "B" .mapping (.mappedReference .classForm)] ∧
      (corpus.get? "B").map (mappable corpus {}) =
        some (.error (.mappedReference .classForm)) := by
  decide +kernel

end Scaffold
