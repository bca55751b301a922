/-
**The order of a unit.**

The artifacts of a unit are placed one by one, and each time the first of those is taken that refer
to nothing but what is placed already.  What can never be placed lies on a cycle of references or
leads to one; it comes last, in the order of keys.  As an artifact may occur more than once in a
unit, and names may, the places of the artifacts are what is ordered.

Main definitions:

* `Scaffold.IsNext`, `Scaffold.Places` — the item that is placed next, and how items are placed one
  by one;
* `Scaffold.Emission.Denotes`, `Scaffold.Emission.Refers` — the artifact that a name stands for, and
  what an artifact refers to;
* `Scaffold.Emission.Precedes` — which of two artifacts comes first where the references leave a
  choice;
* `Scaffold.Emission.IsOrdering` — the places of a unit in the order of output.

Main results:

* `Scaffold.Places.eq` — items can be placed in one way only;
* `Scaffold.Places.notMem_iff` — **an item is left over if it leads to a cycle**;
* `Scaffold.Emission.places_place` — the artifacts of a unit are placed that way;
* `Scaffold.Emission.exists_isOrdering` — **the order of a unit**.
-/

import Mathlib.Data.Set.Finite.List
import Scaffold.Proofs.FeatureOrder

set_option relaxedAutoImplicit false
set_option autoImplicit false

namespace Scaffold

/-- The last part of a list without repetitions has what is not in the first part. -/
theorem mem_right_iff_of_perm {α : Type} {xs ys zs : List α} (h : (xs ++ ys).Perm zs)
    (hnodup : zs.Nodup) {x : α} : x ∈ ys ↔ x ∈ zs ∧ x ∉ xs := by
  have hdisjoint := (List.nodup_append.1 (h.nodup_iff.2 hnodup)).2.2
  rw [← h.mem_iff, List.mem_append]
  constructor
  · exact fun hy => ⟨Or.inr hy, fun hx => hdisjoint x hx x hy rfl⟩
  · exact fun hx => hx.1.resolve_left hx.2

/-! ### Placing items one by one -/

section Placing

variable {α : Type} (items : Set α) (waits before : α → α → Prop)

/-- The item that is placed next: it is not placed and waits for nothing that is not placed, and it
comes before all others of which this holds. -/
structure IsNext (done : Set α) (x : α) : Prop where
  /-- It is one of the items. -/
  mem : x ∈ items
  /-- It is not placed yet. -/
  notMem : x ∉ done
  /-- All that it waits for is placed. -/
  ready : ∀ y, waits x y → y ∈ done
  /-- It comes before the others that could be placed. -/
  least : ∀ z ∈ items, z ∉ done → (∀ y, waits z y → y ∈ done) → z = x ∨ before x z

/-- Items that are placed one by one behind others, until none can be placed any more. -/
inductive Places : Set α → List α → Prop
  /-- Every item that is left waits for one that is left. -/
  | stop {done : Set α} : (∀ x ∈ items, x ∉ done → ∃ y, waits x y ∧ y ∉ done) → Places done []
  /-- The next item, and then the others. -/
  | next {done : Set α} {x : α} {rest : List α} : IsNext items waits before done x →
      Places (insert x done) rest → Places done (x :: rest)

variable {items waits before}

namespace Places

/-- Each place is taken by the item that is next when all before it are placed. -/
theorem isNext {done : Set α} {first rest : List α} {x : α}
    (h : Places items waits before done (first ++ x :: rest)) :
    IsNext items waits before (done ∪ {y | y ∈ first}) x := by
  induction first generalizing done with
  | nil =>
      cases h with
      | next hnext _ => simpa using hnext
  | cons y first ih =>
      cases h with
      | next _ hrest =>
          have hdone : done ∪ {z | z ∈ y :: first} = insert y done ∪ {z | z ∈ first} := by
            ext z
            simp only [Set.mem_union, Set.mem_ofPred_eq, List.mem_cons, Set.mem_insert_iff]
            tauto
          rw [hdone]
          exact ih hrest

/-- What is left over waits for something that is left over. -/
theorem exists_waits {done : Set α} {head : List α} (h : Places items waits before done head)
    {x : α} (hx : x ∈ items) (hdone : x ∉ done) (hhead : x ∉ head) :
    ∃ y, waits x y ∧ y ∉ done ∧ y ∉ head := by
  induction h with
  | stop hstuck =>
      obtain ⟨y, hwaits, hy⟩ := hstuck x hx hdone
      exact ⟨y, hwaits, hy, List.not_mem_nil⟩
  | next _ _ ih =>
      rw [List.mem_cons, not_or] at hhead
      obtain ⟨y, hwaits, hy, hrest⟩ := ih (by simp [hhead.1, hdone]) hhead.2
      rw [Set.mem_insert_iff, not_or] at hy
      exact ⟨y, hwaits, hy.2, by simp [hy.1, hrest]⟩

/-- **Items can be placed in one way only**, where no two of them come before each other. -/
theorem eq (hasymm : ∀ x y, before x y → ¬before y x) {done : Set α} {xs ys : List α}
    (hxs : Places items waits before done xs) (hys : Places items waits before done ys) :
    xs = ys := by
  induction hxs generalizing ys with
  | stop hstuck =>
      cases hys with
      | stop => rfl
      | @next _ y _ hnext _ =>
          obtain ⟨z, hwaits, hz⟩ := hstuck y hnext.mem hnext.notMem
          exact absurd (hnext.ready z hwaits) hz
  | @next _ x _ hnext _ ih =>
      cases hys with
      | stop hstuck =>
          obtain ⟨z, hwaits, hz⟩ := hstuck x hnext.mem hnext.notMem
          exact absurd (hnext.ready z hwaits) hz
      | @next _ y _ hnext' hrest =>
          have hsame : x = y := by
            rcases hnext.least y hnext'.mem hnext'.notMem hnext'.ready with rfl | hxy
            · rfl
            · rcases hnext'.least x hnext.mem hnext.notMem hnext.ready with rfl | hyx
              · rfl
              · exact absurd hyx (hasymm x y hxy)
          subst hsame
          rw [ih hrest]

/-- Items that are told apart by a function may be placed by what it says of them. -/
theorem map {β : Type} {g : α → β} {waits' before' : β → β → Prop} (hinj : Set.InjOn g items)
    (hwaits : ∀ x ∈ items, ∀ b, waits' (g x) b ↔ ∃ y ∈ items, waits x y ∧ g y = b)
    (hitems : ∀ x ∈ items, ∀ y, waits x y → y ∈ items)
    (hbefore : ∀ x ∈ items, ∀ z ∈ items, before x z → before' (g x) (g z)) {done : Set α}
    (hdone : done ⊆ items) {head : List α} (h : Places items waits before done head) :
    Places (g '' items) waits' before' (g '' done) (head.map g) := by
  have hmem : ∀ {done : Set α}, done ⊆ items → ∀ x ∈ items, g x ∈ g '' done ↔ x ∈ done :=
    fun hdone x hx => hinj.mem_image_iff hdone hx
  have hready : ∀ {done : Set α}, done ⊆ items → ∀ x ∈ items,
      (∀ b, waits' (g x) b → b ∈ g '' done) ↔ ∀ y, waits x y → y ∈ done := by
    intro done hdone x hx
    constructor
    · intro hall y hy
      exact (hmem hdone y (hitems x hx y hy)).1
        (hall _ ((hwaits x hx _).2 ⟨y, hitems x hx y hy, hy, rfl⟩))
    · intro hall b hb
      obtain ⟨y, -, hy, rfl⟩ := (hwaits x hx b).1 hb
      exact Set.mem_image_of_mem g (hall y hy)
  induction h with
  | stop hstuck =>
      refine .stop ?_
      rintro _ ⟨x, hx, rfl⟩ hnot
      obtain ⟨y, hy, hydone⟩ := hstuck x hx fun hmem' => hnot ((hmem hdone x hx).2 hmem')
      have hyitem := hitems x hx y hy
      exact ⟨g y, (hwaits x hx _).2 ⟨y, hyitem, hy, rfl⟩,
        fun hmem' => hydone ((hmem hdone y hyitem).1 hmem')⟩
  | @next done x rest hnext _ ih =>
      have hinsert : insert x done ⊆ items := Set.insert_subset hnext.mem hdone
      refine .next ⟨Set.mem_image_of_mem g hnext.mem, ?_, ?_, ?_⟩ ?_
      · exact fun hmem' => hnext.notMem ((hmem hdone x hnext.mem).1 hmem')
      · exact (hready hdone x hnext.mem).2 hnext.ready
      · rintro _ ⟨z, hz, rfl⟩ hnot hall
        refine (hnext.least z hz ?_ ((hready hdone z hz).1 hall)).imp (congrArg g) ?_
        · exact fun hmem' => hnot ((hmem hdone z hz).2 hmem')
        · exact hbefore x hnext.mem z hz
      · rw [← Set.image_insert_eq]
        exact ih hinsert

/-! ### Cycles -/

/-- What is placed waits, through others, only for finitely many things one behind the other. -/
theorem acc {done : Set α} {head : List α} (h : Places items waits before done head)
    (hdone : ∀ y ∈ done, Acc (fun a b => waits b a) y) :
    ∀ x ∈ head, Acc (fun a b => waits b a) x := by
  induction h with
  | stop => simp
  | @next done x rest hnext _ ih =>
      have hx : Acc (fun a b => waits b a) x :=
        Acc.intro x fun y hy => hdone y (hnext.ready y hy)
      refine List.forall_mem_cons.2 ⟨hx, ih ?_⟩
      rintro y (rfl | hy)
      · exact hx
      · exact hdone y hy

theorem acc_of_reflTransGen {x y : α} (h : Acc (fun a b => waits b a) x)
    (hreach : Relation.ReflTransGen waits x y) : Acc (fun a b => waits b a) y := by
  induction hreach with
  | refl => exact h
  | tail _ hstep ih => exact ih.inv hstep

theorem not_transGen_of_acc {x : α} (h : Acc (fun a b => waits b a) x) :
    ¬Relation.TransGen waits x x := by
  induction h with
  | intro x _ ih =>
      intro hcycle
      obtain ⟨y, hstep, hreach⟩ := Relation.TransGen.head'_iff.1 hcycle
      exact ih y hstep (Relation.TransGen.tail' hreach hstep)

/-- In a finite set without cycles something waits for nothing in the set. -/
theorem exists_forall_not_waits {rest : Set α} (hfinite : rest.Finite) (hnonempty : rest.Nonempty)
    (hacyclic : ∀ y ∈ rest, ¬Relation.TransGen waits y y) :
    ∃ y ∈ rest, ∀ z ∈ rest, ¬waits y z := by
  have : Finite rest := hfinite
  have : IsTrans rest fun a b => Relation.TransGen waits b.1 a.1 :=
    ⟨fun _ _ _ hab hbc => hbc.trans hab⟩
  have : Std.Irrefl fun a b : rest => Relation.TransGen waits b.1 a.1 :=
    ⟨fun a => hacyclic a.1 a.2⟩
  have hwf := Finite.wellFounded_of_trans_of_irrefl
    fun a b : rest => Relation.TransGen waits b.1 a.1
  obtain ⟨x, hx⟩ := hnonempty
  obtain ⟨y, -, hleast⟩ := hwf.has_min Set.univ ⟨⟨x, hx⟩, Set.mem_univ _⟩
  exact ⟨y.1, y.2, fun z hz hwaits => hleast ⟨z, hz⟩ (Set.mem_univ _) (.single hwaits)⟩

/-- **An item is left over if it lies on a cycle or waits, through others, for one that does.**
If it leads to no cycle, then of what it leads to and is left over something waits for nothing that
is left over. -/
theorem notMem_iff {head : List α} (h : Places items waits before ∅ head) (hfinite : items.Finite)
    (hitems : ∀ x ∈ items, ∀ y, waits x y → y ∈ items) {x : α} (hx : x ∈ items) :
    x ∉ head ↔ ∃ y, Relation.ReflTransGen waits x y ∧ Relation.TransGen waits y y := by
  constructor
  · intro hhead
    by_contra hacyclic
    push Not at hacyclic
    have hrest : {y | y ∈ items ∧ y ∉ head ∧ Relation.ReflTransGen waits x y}.Finite :=
      hfinite.subset fun y hy => hy.1
    obtain ⟨y, ⟨hy, hleft, hreach⟩, hlast⟩ := exists_forall_not_waits hrest
      ⟨x, hx, hhead, .refl⟩ fun y hy => hacyclic y hy.2.2
    obtain ⟨z, hwaits, -, hz⟩ := h.exists_waits hy (Set.notMem_empty _) hleft
    exact hlast z ⟨hitems y hy z hwaits, hz, hreach.tail hwaits⟩ hwaits
  · rintro ⟨y, hreach, hcycle⟩ hhead
    have hacc := h.acc (fun y hy => absurd hy (Set.notMem_empty y)) x hhead
    exact not_transGen_of_acc (acc_of_reflTransGen hacc hreach) hcycle

end Places

end Placing

namespace Emission

/-! ### The first of several nodes -/

theorem Node.before_iff {x y : Node} :
    x.before y = true ↔ Artifact.keyLt x.artifact.key y.artifact.key = true ∨
      (x.artifact.key = y.artifact.key ∧ x.index < y.index) := by
  simp [before]

theorem Node.before_asymm {x y : Node} (h : x.before y = true) : ¬y.before x = true := by
  rw [before_iff] at h ⊢
  rintro (hyx | ⟨hkey, hyx⟩)
  · rcases h with hxy | ⟨hkey, -⟩
    · exact Artifact.keyLt_irrefl _ (Artifact.keyLt_trans hxy hyx)
    · exact Artifact.keyLt_irrefl _ (hkey ▸ hyx)
  · rcases h with hxy | ⟨-, hxy⟩
    · exact Artifact.keyLt_irrefl _ (hkey ▸ hxy)
    · omega

theorem Node.before_trans {x y z : Node} (hxy : x.before y = true) (hyz : y.before z = true) :
    x.before z = true := by
  rw [before_iff] at hxy hyz ⊢
  rcases hxy with hxy | ⟨hkey, hxy⟩
  · rcases hyz with hyz | ⟨hkey, -⟩
    · exact Or.inl (Artifact.keyLt_trans hxy hyz)
    · exact Or.inl (hkey ▸ hxy)
  · rcases hyz with hyz | ⟨hkey', hyz⟩
    · exact Or.inl (hkey ▸ hyz)
    · exact Or.inr ⟨hkey.trans hkey', hxy.trans hyz⟩

/-- Of two nodes at different places one comes before the other. -/
theorem Node.before_of_not_before {x y : Node} (h : ¬x.before y = true)
    (hne : x.index ≠ y.index) : y.before x = true := by
  rw [before_iff, not_or, not_and] at h
  rw [before_iff]
  by_cases hkey : x.artifact.key = y.artifact.key
  · have := h.2 hkey
    exact Or.inr ⟨hkey.symm, by omega⟩
  · exact Or.inl (Artifact.keyLt_of_not_keyLt h.1 hkey)

/-- The first of a list of nodes comes before the others. -/
theorem before_of_least? {xs : List Node} (hnodup : (xs.map Node.index).Nodup) {x : Node}
    (h : least? xs = some x) : ∀ z ∈ xs, z = x ∨ x.before z = true := by
  induction xs generalizing x with
  | nil => cases h
  | cons y ys ih =>
      rw [List.map_cons, List.nodup_cons] at hnodup
      have hne : ∀ z ∈ ys, z.index ≠ y.index :=
        fun z hz heq => hnodup.1 (heq ▸ List.mem_map_of_mem hz)
      simp only [least?] at h
      split at h
      · next hnone =>
          cases h
          rw [least?_eq_none] at hnone
          simp [hnone]
      · next w hw =>
          have hleast := ih hnodup.2 hw
          have hwmem := mem_of_least? hw
          split at h
          · next hbefore =>
              cases h
              exact List.forall_mem_cons.2 ⟨Or.inr hbefore, hleast⟩
          · next hnot =>
              cases h
              have hbefore := Node.before_of_not_before hnot (hne w hwmem)
              refine List.forall_mem_cons.2 ⟨Or.inl rfl, fun z hz => Or.inr ?_⟩
              rcases hleast z hz with rfl | hz
              · exact hbefore
              · exact Node.before_trans hbefore hz

/-! ### Placing nodes -/

section Nodes

variable {all : List Node}

/-- A node waits for the nodes at the places of what it needs. -/
def Awaits (all : List Node) (x y : Node) : Prop := y ∈ all ∧ y.index ∈ x.needs

/-- What is known while nodes are placed: which of them are, and which are not. -/
structure Underway (all : List Node) (done : Set Node) (placed : List Nat) (pending : List Node) :
    Prop where
  /-- The others are pending. -/
  mem_pending : ∀ x, x ∈ pending ↔ x ∈ all ∧ x ∉ done
  /-- The places of those that are placed are known. -/
  mem_placed : ∀ x ∈ all, x.index ∈ placed ↔ x ∈ done
  /-- No place is pending twice. -/
  nodup : (pending.map Node.index).Nodup

variable {done : Set Node} {placed : List Nat} {pending : List Node}

/-- What is known after one more node is placed. -/
theorem Underway.insert (hall : (all.map Node.index).Nodup) (h : Underway all done placed pending)
    {x : Node} (hx : x ∈ pending) :
    Underway all (insert x done) (x.index :: placed)
      (pending.filter fun y => y.index != x.index) := by
  have hxall := ((h.mem_pending x).1 hx).1
  have hsame : ∀ y ∈ all, y.index = x.index ↔ y = x := fun y hy =>
    ⟨fun heq => List.inj_on_of_nodup_map hall hy hxall heq, fun heq => heq ▸ rfl⟩
  refine ⟨fun y => ?_, fun y hy => ?_, h.nodup.sublist (List.filter_sublist.map _)⟩
  · rw [List.mem_filter, h.mem_pending, Set.mem_insert_iff, bne_iff_ne, ne_eq]
    constructor
    · rintro ⟨⟨hy, hdone⟩, hne⟩
      exact ⟨hy, not_or.2 ⟨fun heq => hne ((hsame y hy).2 heq), hdone⟩⟩
    · rintro ⟨hy, hnot⟩
      rw [not_or] at hnot
      exact ⟨⟨hy, hnot.2⟩, fun heq => hnot.1 ((hsame y hy).1 heq)⟩
  · rw [List.mem_cons, h.mem_placed y hy, hsame y hy, Set.mem_insert_iff]

/-- A node is ready if all that it waits for is placed. -/
theorem Underway.isReady_iff (hneeds : ∀ x ∈ all, ∀ i ∈ x.needs, ∃ y ∈ all, y.index = i)
    (h : Underway all done placed pending) {x : Node} (hx : x ∈ all) :
    x.isReady placed = true ↔ ∀ y, Awaits all x y → y ∈ done := by
  simp only [Node.isReady, List.all_eq_true, List.contains_iff_mem]
  constructor
  · rintro hready y ⟨hy, hneed⟩
    exact (h.mem_placed y hy).1 (hready _ hneed)
  · intro hready i hi
    obtain ⟨y, hy, rfl⟩ := hneeds x hx i hi
    exact (h.mem_placed y hy).2 (hready y ⟨hy, hi⟩)

/-- **Nodes are placed one by one**, the first of those that are ready each time. -/
theorem places_place (hall : (all.map Node.index).Nodup)
    (hneeds : ∀ x ∈ all, ∀ i ∈ x.needs, ∃ y ∈ all, y.index = i) {fuel : Nat}
    (hfuel : pending.length ≤ fuel) (h : Underway all done placed pending) :
    Places {x | x ∈ all} (Awaits all) (fun x y => x.before y = true) done
      (place fuel placed pending).1 := by
  induction fuel generalizing done placed pending with
  | zero =>
      have hnil : pending = [] := List.length_eq_zero_iff.1 (Nat.le_zero.1 hfuel)
      refine .stop fun x hx hdone => absurd ((h.mem_pending x).2 ⟨hx, hdone⟩) ?_
      simp [hnil]
  | succ fuel ih =>
      simp only [place]
      split
      · next hnone =>
          rw [least?_eq_none, List.filter_eq_nil_iff] at hnone
          refine .stop fun x hx hdone => ?_
          have hwaits := hnone x ((h.mem_pending x).2 ⟨hx, hdone⟩)
          rw [h.isReady_iff hneeds hx] at hwaits
          push Not at hwaits
          exact hwaits
      · next x hx =>
          have hleast := before_of_least?
            (h.nodup.sublist (List.filter_sublist.map Node.index)) hx
          obtain ⟨hpending, hready⟩ := List.mem_filter.1 (mem_of_least? hx)
          obtain ⟨hxall, hdone⟩ := (h.mem_pending x).1 hpending
          refine .next ⟨hxall, hdone, (h.isReady_iff hneeds hxall).1 hready, ?_⟩ ?_
          · intro z hz hzdone hzready
            refine hleast z (List.mem_filter.2 ⟨(h.mem_pending z).2 ⟨hz, hzdone⟩, ?_⟩)
            exact (h.isReady_iff hneeds hz).2 hzready
          · have hlt : (pending.filter fun y => y.index != x.index).length < pending.length :=
              List.length_filter_lt_length_iff_exists.2 ⟨x, hpending, by simp⟩
            exact ih (Nat.lt_succ_iff.1 (hlt.trans_le hfuel)) (h.insert hall hpending)

/-- What is left over comes as it was. -/
theorem sublist_place_snd (fuel : Nat) (placed : List Nat) (pending : List Node) :
    List.Sublist (place fuel placed pending).2 pending := by
  induction fuel generalizing placed pending with
  | zero => exact List.Sublist.refl _
  | succ fuel ih =>
      simp only [place]
      split
      · exact List.Sublist.refl _
      · exact (ih _ _).trans List.filter_sublist

theorem keyLe_trans (x y z : Node)
    (hxy : (!Artifact.keyLt y.artifact.key x.artifact.key) = true)
    (hyz : (!Artifact.keyLt z.artifact.key y.artifact.key) = true) :
    (!Artifact.keyLt z.artifact.key x.artifact.key) = true := by
  simp only [Bool.not_eq_true', ← Bool.not_eq_true] at hxy hyz ⊢
  intro hzx
  by_cases hkey : x.artifact.key = y.artifact.key
  · exact hyz (hkey ▸ hzx)
  · exact hyz (Artifact.keyLt_trans hzx (Artifact.keyLt_of_not_keyLt hxy (Ne.symm hkey)))

theorem keyLe_total (x y : Node) :
    (!Artifact.keyLt y.artifact.key x.artifact.key ||
      !Artifact.keyLt x.artifact.key y.artifact.key) = true := by
  rw [Bool.or_eq_true, Bool.not_eq_true', Bool.not_eq_true', ← Bool.not_eq_true,
    ← Bool.not_eq_true, ← not_and_or]
  exact fun hboth => Artifact.keyLt_irrefl _ (Artifact.keyLt_trans hboth.1 hboth.2)

/-- Sorting by key keeps the order of the nodes that have the same key. -/
theorem filter_mergeSort_key (left : List Node) (k : String × String) :
    (left.mergeSort fun x y => !Artifact.keyLt y.artifact.key x.artifact.key).filter
      (fun x => x.artifact.key == k) = left.filter fun x => x.artifact.key == k := by
  have hsorted : (left.filter fun x => x.artifact.key == k).Pairwise
      fun x y => (!Artifact.keyLt y.artifact.key x.artifact.key) = true := by
    refine List.pairwise_of_forall_mem_list ?_
    intro x hx y hy
    have hxkey : x.artifact.key = k := by simpa using (List.mem_filter.1 hx).2
    have hykey : y.artifact.key = k := by simpa using (List.mem_filter.1 hy).2
    simpa [hxkey, hykey] using Artifact.keyLt_irrefl k
  have hsublist := (List.sublist_mergeSort keyLe_trans keyLe_total hsorted
    List.filter_sublist).filter fun x => x.artifact.key == k
  rw [List.filter_filter] at hsublist
  simp only [Bool.and_self] at hsublist
  refine (hsublist.eq_of_length ?_).symm
  exact ((List.mergeSort_perm left _).filter _).length_eq.symm

/-- Nodes that are sorted by key stay in the order of their places, where their keys are equal. -/
theorem pairwise_before_mergeSort {left : List Node}
    (h : left.Pairwise fun x y => x.index < y.index) :
    (left.mergeSort fun x y => !Artifact.keyLt y.artifact.key x.artifact.key).Pairwise
      fun x y => x.before y = true := by
  rw [List.pairwise_iff_forall_sublist]
  intro x y hxy
  have hle := List.pairwise_iff_forall_sublist.1
    (List.pairwise_mergeSort keyLe_trans keyLe_total left) hxy
  rw [Node.before_iff]
  by_cases hkey : x.artifact.key = y.artifact.key
  · refine Or.inr ⟨hkey, ?_⟩
    have hfilter := hxy.filter fun z => z.artifact.key == y.artifact.key
    rw [filter_mergeSort_key, List.filter_cons_of_pos (by simpa using hkey),
      List.filter_cons_of_pos (by simp), List.filter_nil] at hfilter
    exact List.pairwise_iff_forall_sublist.1 h (hfilter.trans List.filter_sublist)
  · exact Or.inl (Artifact.keyLt_of_not_keyLt (by simpa using hle) (Ne.symm hkey))

end Nodes

/-! ### Places of a unit -/

section Unit

variable {artifacts : List Artifact}

/-- Nodes of a unit are told apart by their places. -/
theorem eq_of_index {x y : Node} (hx : x ∈ nodes artifacts) (hy : y ∈ nodes artifacts)
    (h : x.index = y.index) : x = y :=
  List.inj_on_of_nodup_map (nodup_index_nodes artifacts) hx hy h

/-- The nodes of a unit come in the order of their places. -/
theorem pairwise_index_nodes (artifacts : List Artifact) :
    (nodes artifacts).Pairwise fun x y => x.index < y.index := by
  rw [← List.pairwise_map (f := Node.index) (R := (· < ·)), map_index_nodes]
  exact List.pairwise_lt_range

theorem index_lt_length {x : Node} (hx : x ∈ nodes artifacts) : x.index < artifacts.length :=
  (List.getElem?_eq_some_iff.1 (getElem?_index hx)).1

/-- A name stands for the last artifact that has it. -/
def Denotes (artifacts : List Artifact) (name : String) (i : Nat) : Prop :=
  ∃ a, artifacts[i]? = some a ∧ a.declaration = name ∧
    ∀ j b, i < j → artifacts[j]? = some b → b.declaration ≠ name

/-- The artifact at a place refers to the one at another place. -/
def Refers (artifacts : List Artifact) (i j : Nat) : Prop :=
  i ≠ j ∧ ∃ a, artifacts[i]? = some a ∧ ∃ name ∈ a.references, Denotes artifacts name j

/-- The artifact at a place comes before the one at another place: by key, then by place. -/
def Precedes (artifacts : List Artifact) (i j : Nat) : Prop :=
  ∃ a b, artifacts[i]? = some a ∧ artifacts[j]? = some b ∧
    (Artifact.keyLt a.key b.key = true ∨ (a.key = b.key ∧ i < j))

/-- The places of a unit in the order of output: first those that can be placed one by one, and then
those that lead to cycles. -/
structure IsOrdering (artifacts : List Artifact) (head tail : List Nat) : Prop where
  /-- Every place occurs once. -/
  perm : (head ++ tail).Perm (List.range artifacts.length)
  /-- An artifact refers only to those placed before it, and comes first among all that do. -/
  isNext : ∀ first i rest, head = first ++ i :: rest →
    IsNext {i | i < artifacts.length} (Refers artifacts) (Precedes artifacts) {j | j ∈ first} i
  /-- At the end are the artifacts that lie on a cycle of references or lead to one. -/
  mem_tail : ∀ i < artifacts.length, i ∈ tail ↔
    ∃ j, Relation.ReflTransGen (Refers artifacts) i j ∧ Relation.TransGen (Refers artifacts) j j
  /-- These are in the order of their keys. -/
  sorted : tail.Pairwise (Precedes artifacts)

/-- What is found is the last artifact of a name. -/
theorem denotes_of_lastIndex? {name : String} {i : Nat} (h : lastIndex? artifacts name = some i) :
    Denotes artifacts name i := by
  obtain ⟨⟨a, k⟩, hfind, rfl⟩ := Option.map_eq_some_iff.1 h
  obtain ⟨hname, later, earlier, hsplit, hnone⟩ := List.find?_eq_some_iff_append.1 hfind
  have hplaces : (artifacts.zipIdx.reverse).Pairwise fun p q => q.2 < p.2 := by
    rw [List.pairwise_reverse, ← List.pairwise_map (f := Prod.snd) (R := (· < ·)),
      List.zipIdx_map_snd]
    exact List.pairwise_lt_range'
  rw [hsplit, List.pairwise_append, List.pairwise_cons] at hplaces
  have hmem : ∀ {b : Artifact} {j : Nat}, artifacts[j]? = some b ↔
      (b, j) ∈ later ++ (a, k) :: earlier := by
    intro b j
    rw [← hsplit, List.mem_reverse, List.mem_zipIdx_iff_getElem?]
  refine ⟨a, hmem.2 (by simp), by simpa using hname, ?_⟩
  intro j b hlt hb
  -- what comes later in the unit comes sooner in the search
  rcases List.mem_append.1 (hmem.1 hb) with hb | hb
  · simpa using hnone _ hb
  · rcases List.mem_cons.1 hb with hb | hb
    · cases hb
      exact absurd hlt (Nat.lt_irrefl _)
    · have := hplaces.2.1.1 _ hb
      exact absurd hlt (Nat.lt_asymm this)

theorem Denotes.eq {name : String} {i j : Nat} (hi : Denotes artifacts name i)
    (hj : Denotes artifacts name j) : i = j := by
  obtain ⟨a, ha, haname, hlast⟩ := hi
  obtain ⟨b, hb, hbname, hlast'⟩ := hj
  rcases Nat.lt_trichotomy i j with hlt | heq | hlt
  · exact absurd hbname (hlast j b hlt hb)
  · exact heq
  · exact absurd haname (hlast' i a hlt ha)

theorem lastIndex?_eq_some_iff {name : String} {i : Nat} :
    lastIndex? artifacts name = some i ↔ Denotes artifacts name i := by
  refine ⟨denotes_of_lastIndex?, fun h => ?_⟩
  obtain ⟨a, ha, hname, -⟩ := id h
  have hsome : (lastIndex? artifacts name).isSome = true := by
    rw [lastIndex?, Option.isSome_map, List.find?_isSome]
    exact ⟨(a, i), List.mem_reverse.2 (List.mem_zipIdx_iff_getElem?.2 ha), by simpa using hname⟩
  obtain ⟨j, hj⟩ := Option.isSome_iff_exists.1 hsome
  rw [hj, (denotes_of_lastIndex? hj).eq h]

/-- What a node awaits is what its artifact refers to. -/
theorem refers_index_iff {x : Node} (hx : x ∈ nodes artifacts) {j : Nat} :
    Refers artifacts x.index j ↔
      ∃ y ∈ nodes artifacts, Awaits (nodes artifacts) x y ∧ y.index = j := by
  have hrefers : Refers artifacts x.index j ↔ j ∈ x.needs := by
    rw [mem_needs hx, Refers, getElem?_index hx]
    simp [lastIndex?_eq_some_iff, ne_comm]
  rw [hrefers]
  constructor
  · intro hneed
    obtain ⟨-, name, -, hlast⟩ := (mem_needs hx).1 hneed
    obtain ⟨b, hb, -⟩ := exists_of_lastIndex? hlast
    obtain ⟨y, hy, rfl, -⟩ := exists_mem_nodes hb
    exact ⟨y, hy, ⟨hy, hneed⟩, rfl⟩
  · rintro ⟨y, -, ⟨-, hneed⟩, rfl⟩
    exact hneed

theorem precedes_index {x y : Node} (hx : x ∈ nodes artifacts) (hy : y ∈ nodes artifacts)
    (h : x.before y = true) : Precedes artifacts x.index y.index :=
  ⟨_, _, getElem?_index hx, getElem?_index hy, Node.before_iff.1 h⟩

/-- The nodes of a unit before any of them is placed. -/
theorem underway_nodes (artifacts : List Artifact) :
    Underway (nodes artifacts) ∅ [] (nodes artifacts) :=
  ⟨by simp, by simp, nodup_index_nodes artifacts⟩

theorem exists_index_of_mem_needs {x : Node} (hx : x ∈ nodes artifacts) {i : Nat}
    (hi : i ∈ x.needs) : ∃ y ∈ nodes artifacts, y.index = i := by
  obtain ⟨-, name, -, hlast⟩ := (mem_needs hx).1 hi
  obtain ⟨b, hb, -⟩ := exists_of_lastIndex? hlast
  obtain ⟨y, hy, hindex, -⟩ := exists_mem_nodes hb
  exact ⟨y, hy, hindex⟩

/-- The nodes of a unit that are placed, and those that are left over, in order. -/
def placedNodes (artifacts : List Artifact) : List Node × List Node :=
  let result := place artifacts.length [] (nodes artifacts)
  (result.1, result.2.mergeSort fun x y => !Artifact.keyLt y.artifact.key x.artifact.key)

theorem order_eq (artifacts : List Artifact) :
    order artifacts =
      ((placedNodes artifacts).1 ++ (placedNodes artifacts).2).map Node.artifact := rfl

theorem perm_placedNodes (artifacts : List Artifact) :
    ((placedNodes artifacts).1 ++ (placedNodes artifacts).2).Perm (nodes artifacts) :=
  ((List.mergeSort_perm _ _).append_left _).trans
    (perm_place (nodup_index_nodes artifacts))

/-- The nodes of a unit are placed one by one. -/
theorem places_placedNodes (artifacts : List Artifact) :
    Places {x | x ∈ nodes artifacts} (Awaits (nodes artifacts)) (fun x y => x.before y = true) ∅
      (placedNodes artifacts).1 :=
  places_place (nodup_index_nodes artifacts) (fun _ hx _ hi => exists_index_of_mem_needs hx hi)
    (by simp [nodes]) (underway_nodes artifacts)

theorem pairwise_placedNodes (artifacts : List Artifact) :
    (placedNodes artifacts).2.Pairwise fun x y => x.before y = true :=
  pairwise_before_mergeSort
    ((pairwise_index_nodes artifacts).sublist (sublist_place_snd _ _ _))

/-- What is left over is what is not placed. -/
theorem mem_placedNodes_snd {x : Node} :
    x ∈ (placedNodes artifacts).2 ↔ x ∈ nodes artifacts ∧ x ∉ (placedNodes artifacts).1 :=
  mem_right_iff_of_perm (perm_placedNodes artifacts)
    (List.Nodup.of_map _ (nodup_index_nodes artifacts))

/-- The places of a unit are filled one by one. -/
theorem places_indices (artifacts : List Artifact) :
    Places {i | i < artifacts.length} (Refers artifacts) (Precedes artifacts) ∅
      ((placedNodes artifacts).1.map Node.index) := by
  have hitems : Node.index '' {x | x ∈ nodes artifacts} = {i | i < artifacts.length} := by
    ext i
    rw [Set.mem_image]
    simp only [Set.mem_ofPred_eq, ← List.mem_map, map_index_nodes, List.mem_range]
  have hplaces : Places (Node.index '' {x | x ∈ nodes artifacts}) (Refers artifacts)
      (Precedes artifacts) (Node.index '' ∅) ((placedNodes artifacts).1.map Node.index) :=
    (places_placedNodes artifacts).map
    (fun x hx y hy heq => eq_of_index hx hy heq)
    (fun x hx j => refers_index_iff hx) (fun x _ y hy => hy.1)
    (fun x hx z hz => precedes_index hx hz) (Set.empty_subset _)
  rwa [hitems, Set.image_empty] at hplaces

/-- An artifact refers to artifacts of the unit only. -/
theorem Refers.lt_length {i j : Nat} (h : Refers artifacts i j) : j < artifacts.length := by
  obtain ⟨-, -, -, -, -, b, hb, -⟩ := h
  exact (List.getElem?_eq_some_iff.1 hb).1

/-- **The order of a unit**, which is that of its places. -/
theorem exists_isOrdering (artifacts : List Artifact) :
    ∃ head tail, IsOrdering artifacts head tail ∧
      (order artifacts).map some = (head ++ tail).map fun i => artifacts[i]? := by
  have hperm := (perm_placedNodes artifacts).map Node.index
  rw [List.map_append, map_index_nodes] at hperm
  have hplaces := places_indices artifacts
  refine ⟨_, _, ⟨hperm, ?_, ?_, ?_⟩, ?_⟩
  · intro first i rest hsplit
    rw [hsplit] at hplaces
    simpa using hplaces.isNext
  · intro i hi
    rw [mem_right_iff_of_perm hperm List.nodup_range, List.mem_range, and_iff_right hi]
    exact hplaces.notMem_iff (Set.finite_lt_nat _) (fun _ _ _ hrefers => hrefers.lt_length) hi
  · rw [List.pairwise_map]
    refine (pairwise_placedNodes artifacts).imp_of_mem fun hx hy => ?_
    have hnodes : ∀ x ∈ (placedNodes artifacts).2, x ∈ nodes artifacts := fun x hx =>
      (perm_placedNodes artifacts).mem_iff.1 (List.mem_append_right _ hx)
    exact precedes_index (hnodes _ hx) (hnodes _ hy)
  · rw [order_eq, ← List.map_append, List.map_map, List.map_map]
    refine List.map_congr_left fun x hx => ?_
    exact (getElem?_index ((perm_placedNodes artifacts).mem_iff.1 hx)).symm

end Unit

end Emission

end Scaffold
