/-
**Tables keyed by names.**

A table is a list of entries with strictly increasing keys, so that it is read in the order of its
keys and equal tables are equal values.

Main definitions:

* `Scaffold.NameMap` — the tables, with `insert`, `find?`, `alter` and `ofList`.

Main results:

* `Scaffold.NameMap.find?_insert_self`, `Scaffold.NameMap.find?_insert_of_ne` — looking up after
  an insertion.
-/

import Scaffold.Name.Set

set_option relaxedAutoImplicit false
set_option autoImplicit false

namespace Scaffold

variable {α : Type}

/-- Replaces the value under a key by `f` of the old value, putting a new key in its place. -/
def alterEntry (k : String) (f : Option α → α) : List (String × α) → List (String × α)
  | [] => [(k, f none)]
  | e :: es =>
    if k < e.1 then (k, f none) :: e :: es
    else if k = e.1 then (k, f (some e.2)) :: es
    else e :: alterEntry k f es

/-- The keys after an entry was altered. -/
theorem map_fst_alterEntry (k : String) (f : Option α → α) (es : List (String × α)) :
    (alterEntry k f es).map Prod.fst = insertName k (es.map Prod.fst) := by
  induction es with
  | nil => rfl
  | cons e es ih =>
      simp only [alterEntry, List.map_cons, insertName]
      split
      · rfl
      · split
        · next h => simp [← h]
        · simp [ih]

/-- A finite table from names to values, listed by increasing name. -/
structure NameMap (α : Type) where
  /-- The entries by increasing key. -/
  entries : List (String × α)
  /-- Every key is less than those after it. -/
  sorted : (entries.map Prod.fst).Pairwise (· < ·)

namespace NameMap

instance [DecidableEq α] : DecidableEq (NameMap α) := fun a b =>
  decidable_of_iff (a.entries = b.entries) ⟨fun h => by cases a; cases b; simp_all, fun h => h ▸ rfl⟩

/-- The table without entries. -/
def empty : NameMap α := ⟨[], sorted_nil⟩

instance : EmptyCollection (NameMap α) := ⟨empty⟩
instance : Inhabited (NameMap α) := ⟨empty⟩

/-- Replaces the value under a key by `f` of the old one. -/
def alter (m : NameMap α) (k : String) (f : Option α → α) : NameMap α :=
  ⟨alterEntry k f m.entries, by
    rw [map_fst_alterEntry]
    exact insertName_sorted k m.sorted⟩

/-- The table with `v` under the key `k`. -/
def insert (m : NameMap α) (k : String) (v : α) : NameMap α :=
  m.alter k fun _ => v

/-- The value under a key. -/
def find? (m : NameMap α) (k : String) : Option α :=
  m.entries.lookup k

/-- The table of a list of entries, in which a later entry replaces an earlier one. -/
def ofList (es : List (String × α)) : NameMap α :=
  es.foldl (fun m e => m.insert e.1 e.2) empty

/-- The number of entries. -/
def size (m : NameMap α) : Nat :=
  m.entries.length

/-- The keys in increasing order. -/
def keys (m : NameMap α) : List String :=
  m.entries.map Prod.fst

theorem lookup_alterEntry_self (k : String) (f : Option α → α) {es : List (String × α)}
    (h : (es.map Prod.fst).Pairwise (· < ·)) :
    (alterEntry k f es).lookup k = some (f (es.lookup k)) := by
  induction es with
  | nil => simp [alterEntry]
  | cons e es ih =>
      obtain ⟨a, v⟩ := e
      simp only [List.map_cons, List.pairwise_cons] at h
      simp only [alterEntry]
      split
      · next hlt =>
          have hnone : ((a, v) :: es).lookup k = none := by
            rw [List.lookup_eq_none_iff]
            intro p hp
            rcases List.mem_cons.1 hp with rfl | hp
            · simp only [bne_iff_ne, ne_eq]
              exact fun heq => String.lt_irrefl k (heq ▸ hlt)
            · simp only [bne_iff_ne, ne_eq]
              intro heq
              have := h.1 p.1 (List.mem_map_of_mem hp)
              exact String.lt_irrefl k (String.lt_trans hlt (heq ▸ this))
          simp [hnone]
      · split
        · next heq => subst heq; simp
        · next hne =>
            have hka : (k == a) = false := by simp [hne]
            simp [List.lookup_cons, hka, ih h.2]

theorem lookup_alterEntry_of_ne {k j : String} (f : Option α → α) (es : List (String × α))
    (hne : j ≠ k) : (alterEntry k f es).lookup j = es.lookup j := by
  have hjk : (j == k) = false := by simp [hne]
  induction es with
  | nil => simp [alterEntry, List.lookup_cons, hjk]
  | cons e es ih =>
      obtain ⟨a, v⟩ := e
      simp only [alterEntry]
      split
      · simp [List.lookup_cons, hjk]
      · split
        · next heq => subst heq; simp [List.lookup_cons, hjk]
        · simp [List.lookup_cons, ih]

/-- The value just put under a key is found there. -/
@[simp] theorem find?_insert_self (m : NameMap α) (k : String) (v : α) :
    (m.insert k v).find? k = some v :=
  lookup_alterEntry_self k _ m.sorted

/-- Other keys are not changed by an insertion. -/
theorem find?_insert_of_ne (m : NameMap α) {k j : String} (v : α) (h : j ≠ k) :
    (m.insert k v).find? j = m.find? j :=
  lookup_alterEntry_of_ne _ m.entries h

end NameMap

end Scaffold
