/-
**What a run resolves.**

The corpus of a run has one declaration of each name, so a resolution that is looked up for a
declaration is the one that its own markers were resolved to.  A strategy is in it only if nothing
stands in its way, and if a mapping is, then the counterpart is the transfer object.

Main definitions:

* `Scaffold.Corpus.IsIndexed` — the declarations of a corpus have different names;
* `Scaffold.Entry.placed` — a declaration at a place.

Main results:

* `Scaffold.Corpus.isIndexed_build` — those of a corpus that was built do;
* `Scaffold.Corpus.IsIndexed.get?_name` — each is found under its name;
* `Scaffold.Corpus.build_of_nodup` — declarations with different names are all kept;
* `Scaffold.resolve_fst_eq_some` — what is in the resolution of a declaration;
* `Scaffold.exists_entry_of_resolution?` — **the resolution of a name is that of the declaration**.
-/

import Mathlib.Data.List.Nodup
import Scaffold.Run

set_option relaxedAutoImplicit false
set_option autoImplicit false

namespace Scaffold

/-! ### The names of a corpus -/

namespace Corpus

/-- The declarations of a corpus have different names. -/
def IsIndexed (c : Corpus) : Prop := (c.declarations.map Declaration.name).Nodup

theorem IsIndexed.add {c : Corpus} (h : c.IsIndexed) (e : Entry) : (c.add e).IsIndexed := by
  simp only [Corpus.add]
  split
  · exact h
  · next hnone =>
      have hnew : ∀ d ∈ c.declarations, d.name ≠ e.declaration.name := by
        simpa [get?, List.find?_eq_none] using hnone
      simp only [IsIndexed, declarations, List.map_append, List.map_cons, List.map_nil]
      refine List.nodup_append.2 ⟨h, by simp, ?_⟩
      intro name hname other hother
      obtain ⟨d, hd, rfl⟩ := List.mem_map.1 hname
      rw [List.mem_singleton.1 hother]
      exact hnew d hd

theorem IsIndexed.addAll {c : Corpus} (h : c.IsIndexed) (es : List Entry) :
    (c.addAll es).1.IsIndexed := by
  induction es generalizing c with
  | nil => exact h
  | cons e es ih => exact ih (h.add e)

/-- A corpus that was built has one declaration of each name. -/
theorem isIndexed_build (es : List Entry) : (build es).1.IsIndexed :=
  @IsIndexed.addAll {} List.nodup_nil es

/-- Declarations of one name are the same. -/
theorem IsIndexed.eq_of_name {c : Corpus} (h : c.IsIndexed) {d e : Declaration}
    (hd : d ∈ c.declarations) (he : e ∈ c.declarations) (hname : d.name = e.name) : d = e :=
  List.inj_on_of_nodup_map h hd he hname

/-- A declaration is found under its name. -/
theorem IsIndexed.get?_name {c : Corpus} (h : c.IsIndexed) {d : Declaration}
    (hd : d ∈ c.declarations) : c.get? d.name = some d := by
  cases hget : c.get? d.name with
  | none => exact absurd (List.find?_eq_none.1 hget d hd) (by simp)
  | some e => rw [h.eq_of_name (List.mem_of_find?_eq_some hget) hd (name_of_get? hget)]

/-- Nothing else is found under the name of a declaration. -/
theorem IsIndexed.eq_of_get?_name {c : Corpus} (h : c.IsIndexed) {d e : Declaration}
    (hd : d ∈ c.declarations) (he : c.get? d.name = some e) : e = d :=
  Option.some.inj (he.symm.trans (h.get?_name hd))

theorem IsIndexed.eq_of_mem {c : Corpus} (h : c.IsIndexed) {e e' : Entry} (he : e ∈ c.entries)
    (he' : e' ∈ c.entries) (hname : e.declaration.name = e'.declaration.name) : e = e' := by
  rw [IsIndexed, declarations, List.map_map] at h
  exact List.inj_on_of_nodup_map h he he' hname

end Corpus

/-! ### Declarations with different names -/

/-- The declaration of an entry at a place. -/
def Entry.placed (e : Entry) (position : Nat) : Entry :=
  { e with declaration := { e.declaration with position } }

@[simp] theorem Entry.name_placed (e : Entry) (position : Nat) :
    (e.placed position).declaration.name = e.declaration.name := rfl

@[simp] theorem Entry.placed_placed (e : Entry) (i j : Nat) : (e.placed i).placed j = e.placed j :=
  rfl

namespace Corpus

/-- Declarations whose names are not taken are all added, each at its place. -/
theorem addAll_of_nodup {c : Corpus} {es : List Entry}
    (h : ((c.entries ++ es).map fun e => e.declaration.name).Nodup) :
    c.addAll es = (⟨c.entries ++ es.mapIdx fun i e => e.placed (c.size + i)⟩, []) := by
  induction es generalizing c with
  | nil => simp [addAll]
  | cons e es ih =>
      have hnone : c.get? e.declaration.name = none := by
        rw [get?, List.find?_eq_none]
        intro d hd hname
        obtain ⟨x, hx, rfl⟩ := List.mem_map.1 hd
        rw [List.map_append, List.nodup_append] at h
        exact h.2.2 _ (List.mem_map_of_mem hx) _ (List.mem_map_of_mem List.mem_cons_self)
          (by simpa using hname)
      have hadd : c.add e = ⟨c.entries ++ [e.placed c.size]⟩ := by
        rw [add, hnone]
        rfl
      have hrest : (((c.add e).entries ++ es).map fun e => e.declaration.name).Nodup := by
        simpa [hadd] using h
      have hsize : (c.add e).size = c.size + 1 := by simp [hadd, size]
      rw [addAll, ih hrest, conflict?, hnone, hsize, hadd]
      simp [List.mapIdx_cons, Nat.add_assoc, Nat.add_comm 1]

/-- **Declarations with different names are all kept**, each at its place. -/
theorem build_of_nodup {es : List Entry} (h : (es.map fun e => e.declaration.name).Nodup) :
    build es = (⟨es.mapIdx fun i e => e.placed i⟩, []) := by
  rw [build, addAll_of_nodup (by simpa using h)]
  simp [size]

end Corpus

/-! ### The resolutions of a corpus -/

/-- A declaration has the strategies that nothing stands in the way of, and its transfer object as
the counterpart of a mapping. -/
theorem resolve_fst_eq_some {corpus : Corpus} {settings : Settings} {e : Entry} {r : Resolution}
    (h : (resolve corpus settings e).1 = some r) :
    r.declaration = e.declaration.name ∧
      (∀ s ∈ r.strategies, obstacle? corpus settings.naming e.declaration s = none) ∧
      (.mapping ∈ r.strategies → r.counterpart =
        (corpus.counterpart? settings.naming e.declaration.name).map Declaration.name) := by
  simp only [resolve] at h
  split at h
  · cases h
  · cases h
    refine ⟨rfl, ?_, ?_⟩
    · intro s hs
      simpa using (List.mem_filter.1 hs).2
    · intro hs
      simp only [List.contains_iff_mem] at hs ⊢
      rw [if_pos hs]

/-- A declaration that can be mapped has a transfer object. -/
theorem exists_counterpart_of_obstacle? {corpus : Corpus} {naming : Naming} {d : Declaration}
    (h : obstacle? corpus naming d .mapping = none) :
    ∃ source, corpus.counterpart? naming d.name = some source := by
  simp only [obstacle?, mappable] at h
  split at h
  · next source hok =>
      split at hok
      · cases hok
      · split at hok
        · cases hok
        · next s hs => exact ⟨s, hs⟩
  · cases h

/-- The resolutions that are found are those of the entries. -/
theorem resolution?_eq_some_iff {settings : Settings} {provider : FixtureProvider}
    {corpus : Corpus} (hcorpus : corpus.IsIndexed) {name : String} {r : Resolution} :
    (contextOf settings provider corpus).resolution? name = some r ↔
      ∃ e ∈ corpus.entries, e.declaration.name = name ∧ (resolve corpus settings e).1 = some r := by
  have hentry : ∀ {r : Resolution},
      (contextOf settings provider corpus).resolution? name = some r →
        ∃ e ∈ corpus.entries, e.declaration.name = name ∧
          (resolve corpus settings e).1 = some r := by
    intro r h
    have hname : r.declaration = name := by simpa using List.find?_some h
    obtain ⟨result, hresult, hfst⟩ := List.mem_filterMap.1 (List.mem_of_find?_eq_some h)
    obtain ⟨e, he, rfl⟩ := List.mem_map.1 hresult
    exact ⟨e, he, (resolve_fst_eq_some hfst).1.symm.trans hname, hfst⟩
  refine ⟨hentry, ?_⟩
  rintro ⟨e, he, hname, hfst⟩
  have hmem : r ∈ (resolveAll corpus settings).1 :=
    List.mem_filterMap.2 ⟨_, List.mem_map_of_mem he, hfst⟩
  cases hfind : (contextOf settings provider corpus).resolution? name with
  | none =>
      have hdeclaration := (resolve_fst_eq_some hfst).1.trans hname
      exact absurd (List.find?_eq_none.1 hfind r hmem) (by simp [hdeclaration])
  | some q =>
      -- what is found comes from an entry of the same name
      obtain ⟨e', he', hname', hfst'⟩ := hentry hfind
      rw [hcorpus.eq_of_mem he' he (hname'.trans hname.symm), hfst] at hfst'
      exact hfst'.symm

/-- **The resolution of a declaration is that of its own entry**: of all entries only one has its
name. -/
theorem exists_entry_of_resolution? {settings : Settings} {provider : FixtureProvider}
    {corpus : Corpus} (hcorpus : corpus.IsIndexed) {d : Declaration}
    (hd : d ∈ corpus.declarations) {r : Resolution}
    (h : (contextOf settings provider corpus).resolution? d.name = some r) :
    ∃ e ∈ corpus.entries, e.declaration = d ∧ (resolve corpus settings e).1 = some r := by
  obtain ⟨e, he, hname, hfst⟩ := (resolution?_eq_some_iff hcorpus).1 h
  exact ⟨e, he, hcorpus.eq_of_name (List.mem_map_of_mem he) hd hname, hfst⟩

end Scaffold
