/-
**Sets of names.**

A set of names is kept as a strictly increasing list, so that equal sets are equal values and the
members come in one order.  Names are compared character by character, by code point.

Main definitions:

* `Scaffold.NameSet` — the sets, with `insert`, `ofList`, `union` and membership.

Main results:

* `Scaffold.NameSet.mem_insert`, `Scaffold.NameSet.mem_ofList` — the members after an insertion and
  of a set built from a list;
* `Scaffold.NameSet.ext` — sets with the same members are equal.
-/

set_option relaxedAutoImplicit false
set_option autoImplicit false

namespace Scaffold

/-- Puts a name in its place in an increasing list, unless it is there already. -/
def insertName (n : String) : List String → List String
  | [] => [n]
  | m :: ms => if n < m then n :: m :: ms else if n = m then m :: ms else m :: insertName n ms

theorem mem_insertName {n x : String} {ms : List String} :
    x ∈ insertName n ms ↔ x = n ∨ x ∈ ms := by
  induction ms with
  | nil => simp [insertName]
  | cons m ms ih =>
      simp only [insertName]
      split
      · simp
      · split
        · next h => subst h; simp
        · simp only [List.mem_cons, ih]
          constructor
          · rintro (h | h | h) <;> simp [h]
          · rintro (h | h | h) <;> simp [h]

/-- Of two different names one is less than the other. -/
theorem name_lt_of_not_lt {a b : String} (h : ¬ a < b) (hne : a ≠ b) : b < a := by
  apply Decidable.byContradiction
  intro hba
  exact hne (String.le_antisymm (String.not_lt.1 hba) (String.not_lt.1 h))

/-- Insertion keeps the list increasing. -/
theorem insertName_sorted (n : String) {ms : List String} (h : ms.Pairwise (· < ·)) :
    (insertName n ms).Pairwise (· < ·) := by
  induction ms with
  | nil => simp [insertName]
  | cons m ms ih =>
      rw [List.pairwise_cons] at h
      simp only [insertName]
      split
      · next hlt =>
          refine List.pairwise_cons.2 ⟨?_, List.pairwise_cons.2 h⟩
          intro x hx
          rcases List.mem_cons.1 hx with rfl | hx
          · exact hlt
          · exact String.lt_trans hlt (h.1 x hx)
      · split
        · exact List.pairwise_cons.2 h
        · next hlt hne =>
            refine List.pairwise_cons.2 ⟨?_, ih h.2⟩
            intro x hx
            rcases mem_insertName.1 hx with rfl | hx
            · exact name_lt_of_not_lt hlt hne
            · exact h.1 x hx

/-- A finite set of names, listed in increasing order. -/
structure NameSet where
  /-- The members in increasing order. -/
  toList : List String
  /-- Every member is less than those after it. -/
  sorted : toList.Pairwise (· < ·)
deriving DecidableEq

/-- The list without names is sorted. -/
theorem sorted_nil : ([] : List String).Pairwise (· < ·) := List.Pairwise.nil

namespace NameSet

/-- The set without members. -/
def empty : NameSet := ⟨[], sorted_nil⟩

instance : EmptyCollection NameSet := ⟨empty⟩
instance : Inhabited NameSet := ⟨empty⟩

/-- The set with one more member. -/
def insert (s : NameSet) (n : String) : NameSet :=
  ⟨insertName n s.toList, insertName_sorted n s.sorted⟩

/-- The members of both a set and a list. -/
def insertMany (s : NameSet) (ns : List String) : NameSet :=
  ns.foldl insert s

/-- The names of a list. -/
def ofList (ns : List String) : NameSet :=
  empty.insertMany ns

/-- Whether a name is a member. -/
def contains (s : NameSet) (n : String) : Bool :=
  s.toList.contains n

instance : Membership String NameSet := ⟨fun s n => n ∈ s.toList⟩

/-- Whether there are no members. -/
def isEmpty (s : NameSet) : Bool :=
  s.toList.isEmpty

@[simp] theorem mem_toList {s : NameSet} {n : String} : n ∈ s.toList ↔ n ∈ s := Iff.rfl

@[simp] theorem not_mem_empty {n : String} : n ∉ empty := List.not_mem_nil

@[simp] theorem contains_iff {s : NameSet} {n : String} : s.contains n = true ↔ n ∈ s := by
  simp [contains]

@[simp] theorem mem_insert {s : NameSet} {n x : String} : x ∈ s.insert n ↔ x = n ∨ x ∈ s :=
  mem_insertName

@[simp] theorem mem_insertMany {s : NameSet} {ns : List String} {x : String} :
    x ∈ s.insertMany ns ↔ x ∈ ns ∨ x ∈ s := by
  induction ns generalizing s with
  | nil => simp [insertMany]
  | cons n ns ih =>
      have := ih (s := s.insert n)
      simp only [insertMany, List.foldl_cons] at this ⊢
      rw [this, mem_insert, List.mem_cons]
      constructor
      · rintro (h | h | h) <;> simp [h]
      · rintro ((h | h) | h) <;> simp [h]

@[simp] theorem mem_ofList {ns : List String} {x : String} : x ∈ ofList ns ↔ x ∈ ns := by
  simp [ofList]

/-- Two increasing lists with the same members are equal. -/
theorem sorted_ext {xs ys : List String} (hx : xs.Pairwise (· < ·)) (hy : ys.Pairwise (· < ·))
    (h : ∀ n, n ∈ xs ↔ n ∈ ys) : xs = ys := by
  induction xs generalizing ys with
  | nil =>
      cases ys with
      | nil => rfl
      | cons y ys => exact absurd ((h y).2 (by simp)) (by simp)
  | cons x xs ih =>
      cases ys with
      | nil => exact absurd ((h x).1 (by simp)) (by simp)
      | cons y ys =>
          rw [List.pairwise_cons] at hx hy
          have hxy : x = y := by
            rcases List.mem_cons.1 ((h x).1 (by simp)) with rfl | hxy
            · rfl
            · rcases List.mem_cons.1 ((h y).2 (by simp)) with rfl | hyx
              · rfl
              · exact absurd (String.lt_trans (hy.1 x hxy) (hx.1 y hyx)) (String.lt_irrefl y)
          subst hxy
          congr 1
          refine ih hx.2 hy.2 fun n => ?_
          constructor
          · intro hn
            rcases List.mem_cons.1 ((h n).1 (by simp [hn])) with rfl | hn'
            · exact absurd (hx.1 n hn) (String.lt_irrefl n)
            · exact hn'
          · intro hn
            rcases List.mem_cons.1 ((h n).2 (by simp [hn])) with rfl | hn'
            · exact absurd (hy.1 n hn) (String.lt_irrefl n)
            · exact hn'

/-- Sets with the same members are equal. -/
theorem ext {s t : NameSet} (h : ∀ n, n ∈ s ↔ n ∈ t) : s = t := by
  cases s with
  | mk xs hx =>
      cases t with
      | mk ys hy =>
          have : xs = ys := sorted_ext hx hy h
          subst this
          rfl

end NameSet

end Scaffold
