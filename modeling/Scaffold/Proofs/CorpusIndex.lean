/-
**The corpus and its index.**

A corpus is told here from the list that was read, entry by entry and with nothing but what stands
before it: an entry is kept if none before it has its name, and otherwise there is a problem that
cites the first entry of the name.  What is kept has its place as the position, and nothing else
about it changes, so that a corpus is built from its own entries again.

A corpus is searched from the front.  A catalogue has an index of the places instead, which grows
together with the entries.  The index never points beside the entries, neither while they are added
nor when a name is looked up, and both find the same.

Main definitions:

* `Scaffold.withEarlier` — each entry of a list with those before it;
* `Scaffold.firsts`, `Scaffold.repeats` — the entries with new names, and those with taken names;
* `Scaffold.Catalogue` — entries with an index, and what is found by it;
* `Scaffold.Catalogue.Indexes` — the index has the places of all names of a corpus, and no others.

Main results:

* `Scaffold.Corpus.build_concat` — a corpus after one more entry;
* `Scaffold.Corpus.entries_build`, `Scaffold.Corpus.conflicts_build` — what is kept, and what the
  problems are;
* `Scaffold.Catalogue.Indexes.add?`, `Scaffold.Catalogue.Indexes.addAll?` — adding keeps the index
  right;
* `Scaffold.Corpus.build_indexes` — **the corpus of a list**, what is found in it, and its index.
-/

import Mathlib.Data.List.Induction
import Scaffold.Proofs.OutputUnits

set_option relaxedAutoImplicit false
set_option autoImplicit false

namespace Scaffold

/-! ### First and later entries of a name -/

/-- The first entry of a name. -/
def firstOf? (es : List Entry) (name : String) : Option Entry :=
  es.find? fun e => e.declaration.name == name

/-- Each entry of a list with the entries before it. -/
def withEarlier (es : List Entry) : List (List Entry × Entry) := es.mapIdx fun i e => (es.take i, e)

/-- The entries whose names no entry before them has. -/
def firsts (es : List Entry) : List Entry :=
  (withEarlier es).filterMap fun (earlier, e) =>
    if (firstOf? earlier e.declaration.name).isNone then some e else none

/-- The entries whose names entries before them have, each with the first of these. -/
def repeats (es : List Entry) : List (Entry × Entry) :=
  (withEarlier es).filterMap fun (earlier, e) =>
    (firstOf? earlier e.declaration.name).map fun first => (first, e)

theorem firstOf?_eq_none_iff {es : List Entry} {name : String} :
    firstOf? es name = none ↔ ∀ e ∈ es, e.declaration.name ≠ name := by
  simp [firstOf?]

theorem firstOf?_concat (es : List Entry) (e : Entry) (name : String) :
    firstOf? (es ++ [e]) name =
      (firstOf? es name).or (if e.declaration.name = name then some e else none) := by
  rw [firstOf?, List.find?_append, List.find?_singleton, firstOf?]
  simp

theorem withEarlier_concat (es : List Entry) (e : Entry) :
    withEarlier (es ++ [e]) = withEarlier es ++ [(es, e)] := by
  have hearlier : ∀ i (h : i < es.length), (es ++ [e]).take i = es.take i := by
    intro i h
    exact List.take_append_of_le_length (Nat.le_of_lt h)
  rw [withEarlier, List.mapIdx_concat, List.take_left, withEarlier]
  congr 1
  refine List.ext_getElem (by simp) ?_
  intro i hi _
  simp [hearlier i (by simpa using hi)]

theorem firsts_concat (es : List Entry) (e : Entry) :
    firsts (es ++ [e]) =
      firsts es ++ if (firstOf? es e.declaration.name).isNone then [e] else [] := by
  rw [firsts, withEarlier_concat, List.filterMap_append, firsts]
  congr 1
  cases h : firstOf? es e.declaration.name <;> simp [h]

theorem repeats_concat (es : List Entry) (e : Entry) :
    repeats (es ++ [e]) =
      repeats es ++ ((firstOf? es e.declaration.name).map fun first => (first, e)).toList := by
  rw [repeats, withEarlier_concat, List.filterMap_append, repeats]
  cases h : firstOf? es e.declaration.name <;> simp [h]

namespace Corpus

/-! ### Adding entries -/

theorem get?_eq_none_iff {c : Corpus} {name : String} :
    c.get? name = none ↔ ∀ d ∈ c.declarations, d.name ≠ name := by
  simp [get?]

/-- What is found after one more entry. -/
theorem get?_add (c : Corpus) (e : Entry) (name : String) :
    (c.add e).get? name = (c.get? name).or
      (if e.declaration.name = name then some (e.placed c.size).declaration else none) := by
  rw [add]
  split
  · next d hd =>
      by_cases hname : e.declaration.name = name
      · rw [← hname, hd, Option.some_or]
      · rw [if_neg hname, Option.or_none]
  · next hnew =>
      rw [get?, declarations, List.map_append, List.find?_append]
      simp only [get?, declarations, List.map_cons, List.map_nil, List.find?_singleton]
      simp [Entry.placed]

theorem addAll_append (c : Corpus) (es fs : List Entry) :
    c.addAll (es ++ fs) =
      (((c.addAll es).1.addAll fs).1, (c.addAll es).2 ++ ((c.addAll es).1.addAll fs).2) := by
  induction es generalizing c with
  | nil => rfl
  | cons e es ih => simp only [List.cons_append, addAll, ih, List.append_assoc]

/-- A corpus after one more entry. -/
theorem build_concat (es : List Entry) (e : Entry) :
    build (es ++ [e]) =
      ((build es).1.add e, (build es).2 ++ ((build es).1.conflict? e).toList) := by
  rw [build, addAll_append]
  simp [addAll, build]

/-- What is found in the corpus of a list is the first entry of the name, at some place. -/
theorem exists_get?_build (es : List Entry) (name : String) :
    ∃ i, (build es).1.get? name = (firstOf? es name).map fun e => (e.placed i).declaration := by
  induction es using List.reverseRecOn with
  | nil => exact ⟨0, rfl⟩
  | append_singleton es e ih =>
      obtain ⟨i, hi⟩ := ih
      rw [build_concat, get?_add, firstOf?_concat, hi]
      cases firstOf? es name with
      | some first => exact ⟨i, rfl⟩
      | none =>
          refine ⟨(build es).1.size, ?_⟩
          by_cases hname : e.declaration.name = name <;> simp [hname]

/-- The names of a corpus are those of the list. -/
theorem isNone_get?_build (es : List Entry) (name : String) :
    ((build es).1.get? name).isNone = (firstOf? es name).isNone := by
  obtain ⟨i, hi⟩ := exists_get?_build es name
  rw [hi, Option.isNone_map]

theorem entries_add (c : Corpus) (e : Entry) :
    (c.add e).entries =
      c.entries ++ if (c.get? e.declaration.name).isNone then [e.placed c.size] else [] := by
  rw [add]
  split
  · next d hd => simp [hd]
  · next hnew => simp [hnew, Entry.placed]

/-- **What is kept**: the first entry of each name, at its place. -/
theorem entries_build (es : List Entry) :
    (build es).1.entries = (firsts es).mapIdx fun i e => e.placed i := by
  induction es using List.reverseRecOn with
  | nil => rfl
  | append_singleton es e ih =>
      have hsize : (build es).1.size = (firsts es).length := by rw [size, ih, List.length_mapIdx]
      rw [build_concat, entries_add, isNone_get?_build, firsts_concat, List.mapIdx_append, ih, hsize]
      split <;> simp

/-- **What the problems are**: one for each later entry of a name, which cites the first. -/
theorem conflicts_build (es : List Entry) :
    (build es).2 = (repeats es).map fun (first, e) => duplicate first.declaration e.declaration := by
  induction es using List.reverseRecOn with
  | nil => rfl
  | append_singleton es e ih =>
      obtain ⟨i, hi⟩ := exists_get?_build es e.declaration.name
      rw [build_concat, repeats_concat, List.map_append, ih, conflict?, hi]
      cases firstOf? es e.declaration.name <;> rfl

/-- A name is found exactly where a declaration has it. -/
theorem IsIndexed.get?_eq_some_iff {c : Corpus} (h : c.IsIndexed) {name : String}
    {d : Declaration} : c.get? name = some d ↔ d ∈ c.declarations ∧ d.name = name := by
  constructor
  · intro hd
    exact ⟨List.mem_of_find?_eq_some hd, name_of_get? hd⟩
  · rintro ⟨hd, rfl⟩
    exact h.get?_name hd

/-- A corpus is built from its own entries again. -/
theorem build_entries (es : List Entry) :
    build (build es).1.entries = ((build es).1, []) := by
  have hnodup : ((build es).1.entries.map fun e => e.declaration.name).Nodup := by
    simpa [IsIndexed, declarations, Function.comp_def] using isIndexed_build es
  have hplaces : (build es).1.entries.mapIdx (fun i e => e.placed i) = (build es).1.entries := by
    rw [entries_build, List.mapIdx_mapIdx]
    rfl
  rw [build_of_nodup hnodup, hplaces]

end Corpus

/-- Tables in which the same is found are the same. -/
theorem NameMap.ext_find? {α : Type} {m m' : NameMap α}
    (h : ∀ k v, m.find? k = some v ↔ m'.find? k = some v) : m = m' := by
  obtain ⟨entries, hsorted⟩ := m
  obtain ⟨entries', hsorted'⟩ := m'
  obtain rfl : entries = entries' := by
    refine eq_of_mem_iff hsorted hsorted' ?_
    intro (k, v)
    exact mem_entries_iff.trans ((h k v).trans mem_entries_iff.symm)
  rfl

/-! ### Catalogues -/

/-- Entries with an index of their names. -/
structure Catalogue where
  /-- The declarations with their markers. -/
  entries : List Entry := []
  /-- The places of the names. -/
  places : NameMap Nat := {}

namespace Catalogue

/-- What the index finds under a name, if anything.  There is no answer if the index points beside
the entries. -/
def lookup? (t : Catalogue) (name : String) : Option (Option Declaration) :=
  match t.places.find? name with
  | some i => t.entries[i]?.map fun e => some e.declaration
  | none => some none

/-- The catalogue with one more entry, unless the index has its name, and the problem if it has. -/
def add? (t : Catalogue) (e : Entry) : Option (Catalogue × List Problem) :=
  match t.places.find? e.declaration.name with
  | some i =>
    t.entries[i]?.map fun first => (t, [Corpus.duplicate first.declaration e.declaration])
  | none =>
    some (⟨t.entries ++ [e.placed t.entries.length],
      t.places.insert e.declaration.name t.entries.length⟩, [])

/-- The catalogue with the entries of a list, and the problems. -/
def addAll? (t : Catalogue) : List Entry → Option (Catalogue × List Problem)
  | [] => some (t, [])
  | e :: es => do
    let (next, problems) ← t.add? e
    let (last, later) ← addAll? next es
    return (last, problems ++ later)

/-- The catalogue of a list, and the problems. -/
def build? (es : List Entry) : Option (Catalogue × List Problem) := addAll? {} es

/-- A catalogue has the entries of a corpus, and its index the places of their names. -/
structure Indexes (t : Catalogue) (c : Corpus) : Prop where
  /-- The entries are the same. -/
  entries : t.entries = c.entries
  /-- A name has a place in the index exactly if the declaration at this place has the name. -/
  places : ∀ name i, t.places.find? name = some i ↔ ∃ d, c.declarations[i]? = some d ∧ d.name = name

/-- A new name is at the last place only, and the others are where they were. -/
theorem exists_named_concat {ds : List Declaration} {new : Declaration}
    (hnew : ∀ d ∈ ds, d.name ≠ new.name) {name : String} {i : Nat} :
    (∃ d, (ds ++ [new])[i]? = some d ∧ d.name = name) ↔
      if name = new.name then ds.length = i else ∃ d, ds[i]? = some d ∧ d.name = name := by
  rcases Nat.lt_trichotomy i ds.length with hlt | rfl | hgt
  · rw [List.getElem?_append_left hlt]
    split
    · next hname =>
        refine iff_of_false ?_ (by omega)
        rintro ⟨d, hd, hdname⟩
        exact hnew d (List.mem_of_getElem? hd) (hdname.trans hname)
    · exact Iff.rfl
  · simp [eq_comm]
  · have hnone : (ds ++ [new])[i]? = none :=
      List.getElem?_eq_none (by simpa using Nat.succ_le_of_lt hgt)
    have hnone' : ds[i]? = none := List.getElem?_eq_none (Nat.le_of_lt hgt)
    simp [hnone, hnone', Nat.ne_of_lt hgt]

namespace Indexes

variable {t : Catalogue} {c : Corpus}

theorem empty : Indexes {} {} where
  entries := rfl
  places := by
    intro name i
    have hnone : ({} : NameMap Nat).find? name = none := rfl
    simp [hnone, Corpus.declarations]

/-- What has a name is at the place of the name, so no other declaration has it. -/
theorem get?_of_places (h : t.Indexes c) {name : String} {i : Nat}
    (hi : t.places.find? name = some i) : c.get? name = c.declarations[i]? := by
  obtain ⟨d, hd, hname⟩ := (h.places name i).1 hi
  cases hget : c.get? name with
  | none => exact absurd hname (Corpus.get?_eq_none_iff.1 hget d (List.mem_of_getElem? hd))
  | some d' =>
      obtain ⟨j, hj⟩ := List.mem_iff_getElem?.1 (List.mem_of_find?_eq_some hget)
      have hplace := (h.places name j).2 ⟨d', hj, Corpus.name_of_get? hget⟩
      rw [hi, Option.some.injEq] at hplace
      rw [hplace, hj]

theorem get?_of_places_none (h : t.Indexes c) {name : String}
    (hnone : t.places.find? name = none) : c.get? name = none := by
  rw [Corpus.get?_eq_none_iff]
  intro d hd hname
  obtain ⟨i, hi⟩ := List.mem_iff_getElem?.1 hd
  have hplace := (h.places name i).2 ⟨d, hi, hname⟩
  rw [hnone] at hplace
  cases hplace

/-- **The index finds what the corpus finds**, and never points beside the entries. -/
theorem lookup?_eq (h : t.Indexes c) (name : String) : t.lookup? name = some (c.get? name) := by
  rw [lookup?]
  split
  · next i hi =>
      obtain ⟨d, hd, -⟩ := (h.places name i).1 hi
      rw [h.get?_of_places hi, hd, h.entries]
      rw [Corpus.declarations, List.getElem?_map, Option.map_eq_some_iff] at hd
      obtain ⟨e, he, rfl⟩ := hd
      rw [he, Option.map_some]
  · next hnone => rw [h.get?_of_places_none hnone]

/-- **One more entry**: the catalogue has a next one, which indexes the next corpus, and the problem
is the same. -/
theorem add? (h : t.Indexes c) (e : Entry) :
    ∃ next, t.add? e = some (next, (c.conflict? e).toList) ∧ next.Indexes (c.add e) := by
  have hlookup := h.lookup?_eq e.declaration.name
  rw [lookup?] at hlookup
  rw [Catalogue.add?, Corpus.conflict?]
  cases hi : t.places.find? e.declaration.name with
  | some i =>
      simp only [hi, Option.map_eq_some_iff] at hlookup
      obtain ⟨first, hfirst, hget⟩ := hlookup
      refine ⟨t, ?_, ?_⟩
      · simp [hfirst, ← hget]
      · rwa [Corpus.add, ← hget]
  | none =>
      have hget := h.get?_of_places_none hi
      have hentries := Corpus.entries_add c e
      rw [hget] at hentries
      refine ⟨⟨t.entries ++ [e.placed t.entries.length],
        t.places.insert e.declaration.name t.entries.length⟩, by simp [hget], ?_, ?_⟩
      · simp [hentries, h.entries, Corpus.size]
      · intro name i
        have hdeclarations : (c.add e).declarations =
            c.declarations ++ [(e.placed c.size).declaration] := by
          simp [Corpus.declarations, hentries]
        have hlength : t.entries.length = c.declarations.length := by
          rw [h.entries, Corpus.declarations, List.length_map]
        have hnew : ∀ d ∈ c.declarations, d.name ≠ (e.placed c.size).declaration.name :=
          Corpus.get?_eq_none_iff.1 hget
        rw [hdeclarations, exists_named_concat hnew, NameMap.find?_insert, hlength,
          Entry.name_placed]
        split
        · rw [Option.some.injEq]
        · exact h.places name i

/-- **All entries of a list**: the index is never found to point beside the entries. -/
theorem addAll? (h : t.Indexes c) (es : List Entry) :
    ∃ last, t.addAll? es = some (last, (c.addAll es).2) ∧ last.Indexes (c.addAll es).1 := by
  induction es generalizing t c with
  | nil => exact ⟨t, rfl, h⟩
  | cons e es ih =>
      obtain ⟨next, hnext, hindexes⟩ := h.add? e
      obtain ⟨last, hlast, hindexes'⟩ := ih hindexes
      refine ⟨last, ?_, hindexes'⟩
      simp [Catalogue.addAll?, hnext, hlast, Corpus.addAll]

/-- A corpus has one catalogue. -/
theorem eq {u : Catalogue} (h : t.Indexes c) (h' : u.Indexes c) : t = u := by
  obtain ⟨entries, places⟩ := t
  obtain ⟨entries', places'⟩ := u
  have hplaces : ∀ name i, places.find? name = some i ↔ places'.find? name = some i :=
    fun name i => (h.places name i).trans (h'.places name i).symm
  obtain rfl : entries = entries' := h.entries.trans h'.entries.symm
  obtain rfl : places = places' := NameMap.ext_find? hplaces
  rfl

end Indexes

end Catalogue

/-- **The corpus of a list and its index.**  The entries are the first ones of their names, in order,
and nothing about them has changed but the position, which is the place.  There is one problem for
each later entry of a name, in order, with its line and with the unit and the line of the first.  A
name leads to the one declaration that has it, and to none if no entry has it.  From its own entries
the same corpus is built without a problem.  A catalogue of the list comes to the same: it always has
an answer, its index has the places of the names, and it finds what the corpus finds. -/
theorem Corpus.build_indexes (es : List Entry) :
    let c := (build es).1
    c.entries = (firsts es).mapIdx (fun i e => e.placed i) ∧
    (build es).2 = (repeats es).map (fun (first, e) =>
      .malformed e.declaration.name none
        (.duplicate first.declaration.unit first.declaration.line) e.declaration.line) ∧
    (∀ name d, c.get? name = some d ↔ d ∈ c.declarations ∧ d.name = name) ∧
    (∀ name, c.get? name = none ↔ ∀ e ∈ es, e.declaration.name ≠ name) ∧
    build c.entries = (c, []) ∧
    ∃ t : Catalogue, Catalogue.build? es = some (t, (build es).2) ∧
      t.entries = c.entries ∧
      (∀ name i, t.places.find? name = some i ↔ ∃ d, c.declarations[i]? = some d ∧ d.name = name) ∧
      (∀ name, t.lookup? name = some (c.get? name)) ∧
      Catalogue.build? t.entries = some (t, []) := by
  intro c
  obtain ⟨t, ht, hindexes⟩ := Catalogue.Indexes.empty.addAll? es
  obtain ⟨u, hu, hindexes'⟩ := Catalogue.Indexes.empty.addAll? c.entries
  have hrebuild : addAll {} c.entries = (c, []) := build_entries es
  -- the catalogue of the entries is one of the same corpus
  rw [hrebuild] at hu hindexes'
  obtain rfl : t = u := hindexes.eq hindexes'
  refine ⟨entries_build es, conflicts_build es, ?_, ?_, build_entries es, t, ht, hindexes.entries,
    hindexes.places, hindexes.lookup?_eq, ?_⟩
  · intro name d
    exact (isIndexed_build es).get?_eq_some_iff
  · intro name
    rw [← Option.isNone_iff_eq_none, isNone_get?_build, Option.isNone_iff_eq_none,
      firstOf?_eq_none_iff]
  · rw [hindexes.entries]
    exact hu

end Scaffold
