/-
**Counting references.**

The order of a unit can be found without asking again and again which artifacts are ready.  For each
artifact it is counted how many of its references are unmet, and whenever an artifact is placed, the
counts of all that refer to it go down, once for each reference; an artifact whose count comes to
zero is put into a queue, from which the first one is placed next.  Every step is checked here: a
place that is not in the unit, a count that would go below zero and a queue that is never empty have
no outcome.  There always is one, and it is the order of the unit.

Main definitions:

* `Scaffold.Emission.links` — the references of a unit, one by one;
* `Scaffold.Emission.Counts`, `Scaffold.Emission.Tally` — what is counted before anything is placed,
  and while artifacts are placed;
* `Scaffold.Emission.order?` — the order of a unit by counting, with every step that can fail.

Main results:

* `Scaffold.Emission.foldlM_record?` — what is counted;
* `Scaffold.Emission.foldlM_meet?` — what one artifact that is placed changes;
* `Scaffold.Emission.IsCounted.placeCounted?_eq` — placing by counting;
* `Scaffold.Emission.order?_eq` — counting never fails;
* `Scaffold.Emission.order_isOrdering` — **the order of a unit is a permutation of it**, in which
  artifacts come after those they refer to as far as references allow, and no count goes below zero.
-/

import Scaffold.Proofs.GreedyOrder

set_option relaxedAutoImplicit false
set_option autoImplicit false

namespace Scaffold.Emission

/-! ### The queue -/

/-- Puts a node into its place in a queue, unless it is there. -/
def enqueue (x : Node) : List Node → List Node
  | [] => [x]
  | y :: ys =>
    if x.before y then x :: y :: ys
    else if y.before x then y :: enqueue x ys
    else y :: ys

/-- What is in a queue of nodes at different places after one more is put into it. -/
theorem mem_enqueue {x y : Node} {ys : List Node} (h : ∀ z ∈ ys, z.index = x.index → z = x) :
    y ∈ enqueue x ys ↔ y = x ∨ y ∈ ys := by
  induction ys with
  | nil => simp [enqueue]
  | cons z ys ih =>
      rw [List.forall_mem_cons] at h
      simp only [enqueue]
      split
      · simp
      · next hxz =>
          split
          · rw [List.mem_cons, ih h.2, List.mem_cons]
            exact or_left_comm
          · next hzx =>
              have hindex : z.index = x.index := by
                by_contra hne
                exact hzx (Node.before_of_not_before hxz fun heq => hne heq.symm)
              simp [h.1 hindex]

/-- A queue stays in order. -/
theorem pairwise_enqueue {x : Node} {ys : List Node} (h : ∀ z ∈ ys, z.index = x.index → z = x)
    (hsorted : ys.Pairwise fun x y => x.before y = true) :
    (enqueue x ys).Pairwise fun x y => x.before y = true := by
  induction ys with
  | nil => simp [enqueue]
  | cons z ys ih =>
      have hrest := (List.forall_mem_cons.1 h).2
      obtain ⟨hz, hys⟩ := List.pairwise_cons.1 hsorted
      simp only [enqueue]
      split
      · next hxz =>
          refine List.pairwise_cons.2 ⟨List.forall_mem_cons.2 ⟨hxz, fun y hy => ?_⟩, hsorted⟩
          exact Node.before_trans hxz (hz y hy)
      · split
        · next hzx =>
            refine List.pairwise_cons.2 ⟨fun y hy => ?_, ih hrest hys⟩
            rcases (mem_enqueue hrest).1 hy with rfl | hy
            · exact hzx
            · exact hz y hy
        · exact hsorted

/-! ### What is counted -/

/-- The references of a unit, one by one: the place of the artifact that refers, and the place of
the one it refers to. -/
def links (artifacts : List Artifact) : List (Nat × Nat) :=
  (nodes artifacts).flatMap fun x => x.needs.map fun j => (x.index, j)

/-- What is counted before anything is placed. -/
structure Counts where
  /-- How many references of each artifact are unmet. -/
  unmet : List Nat
  /-- The places that refer to each artifact, as often as they do. -/
  dependents : List (List Nat)

/-- The counts with one more reference, if both places are counted. -/
def Counts.record? (c : Counts) (link : Nat × Nat) : Option Counts := do
  let n ← c.unmet[link.1]?
  let ds ← c.dependents[link.2]?
  return ⟨c.unmet.set link.1 (n + 1), c.dependents.set link.2 (ds ++ [link.1])⟩

/-- What is counted while artifacts are placed. -/
structure Tally where
  /-- How many references of each artifact are unmet. -/
  unmet : List Nat
  /-- The artifacts that could be placed, in order. -/
  ready : List Node

/-- The counts when one reference of the artifact at a place is met, which has to be one that was
unmet. -/
def Tally.meet? (all : List Node) (t : Tally) (i : Nat) : Option Tally := do
  let x ← all[i]?
  match ← t.unmet[i]? with
  | 0 => none
  | n + 1 => some ⟨t.unmet.set i n, if n = 0 then enqueue x t.ready else t.ready⟩

/-- Places the first artifact of the queue, each time all references to it are met, until there is
none in the queue; also the counts that are left.  At most `fuel - 1` artifacts are placed. -/
def placeCounted? (all : List Node) (dependents : List (List Nat)) :
    (fuel : Nat) → Tally → Option (List Node × List Nat)
  | 0, _ => none
  | fuel + 1, t =>
    match t.ready with
    | [] => some ([], t.unmet)
    | x :: ready => do
      let ds ← dependents[x.index]?
      let t ← ds.foldlM (Tally.meet? all) ⟨t.unmet, ready⟩
      let (placed, unmet) ← placeCounted? all dependents fuel t
      return (x :: placed, unmet)

/-- The order of a unit by counting; what still has unmet references comes last, sorted by key. -/
def order? (artifacts : List Artifact) : Option (List Artifact) := do
  let all := nodes artifacts
  let counts ← (links artifacts).foldlM Counts.record?
    ⟨List.replicate artifacts.length 0, List.replicate artifacts.length []⟩
  let ready := (all.filter fun x => counts.unmet[x.index]? == some 0).foldl
    (fun ready x => enqueue x ready) []
  let (placed, unmet) ← placeCounted? all counts.dependents (artifacts.length + 1)
    ⟨counts.unmet, ready⟩
  if placed.length < artifacts.length then
    let left := all.filter fun x => unmet[x.index]? != some 0
    return (placed ++ left.mergeSort fun x y =>
      !Artifact.keyLt y.artifact.key x.artifact.key).map Node.artifact
  else return placed.map Node.artifact

/-! ### Counting references -/

/-- Numbers by place, one of which is replaced. -/
theorem set_map_range {α : Type} (n i : Nat) (f : Nat → α) (a : α) :
    ((List.range n).map f).set i a = (List.range n).map (Function.update f i a) := by
  refine List.ext_getElem (by simp) fun j hj hj' => ?_
  simp only [List.getElem_set, List.getElem_map, List.getElem_range, Function.update_apply]
  simp only [eq_comm]

theorem getElem?_map_range {α : Type} {n i : Nat} (h : i < n) (f : Nat → α) :
    ((List.range n).map f)[i]? = some (f i) := by
  simp [h]

/-- The places that refer to a place, as often as they do. -/
def referrers (ls : List (Nat × Nat)) (j : Nat) : List Nat :=
  (ls.filter fun l => l.2 == j).map Prod.fst

/-- **What is counted**: of every place its references, and the places that refer to it. -/
theorem foldlM_record? {n : Nat} {ls : List (Nat × Nat)} (h : ∀ l ∈ ls, l.1 < n ∧ l.2 < n)
    (f : Nat → Nat) (g : Nat → List Nat) :
    ls.foldlM Counts.record? ⟨(List.range n).map f, (List.range n).map g⟩ =
      some ⟨(List.range n).map fun i => f i + ls.countP fun l => l.1 == i,
        (List.range n).map fun j => g j ++ referrers ls j⟩ := by
  induction ls generalizing f g with
  | nil => simp [referrers]
  | cons l ls ih =>
      obtain ⟨⟨hfrom, hto⟩, hrest⟩ := List.forall_mem_cons.1 h
      rw [List.foldlM_cons]
      have hrecord : Counts.record? ⟨(List.range n).map f, (List.range n).map g⟩ l =
          some ⟨(List.range n).map (Function.update f l.1 (f l.1 + 1)),
            (List.range n).map (Function.update g l.2 (g l.2 ++ [l.1]))⟩ := by
        simp only [Counts.record?, getElem?_map_range hfrom, getElem?_map_range hto, set_map_range,
          Option.bind_eq_bind, Option.bind_some]
        rfl
      rw [hrecord, Option.bind_eq_bind, Option.bind_some, ih hrest]
      congr 2
      · refine List.map_congr_left fun i _ => ?_
        rw [List.countP_cons, Function.update_apply]
        by_cases hi : l.1 = i
        · subst hi
          simp
          omega
        · simp [hi, Ne.symm hi]
      · refine List.map_congr_left fun j _ => ?_
        rw [Function.update_apply]
        by_cases hj : l.2 = j
        · subst hj
          simp [referrers]
        · simp [referrers, hj, Ne.symm hj]

/-- How many references of a place are unmet while some places are filled. -/
def unmetCount (ls : List (Nat × Nat)) (placed : List Nat) (i : Nat) : Nat :=
  ls.countP fun l => l.1 == i && !placed.contains l.2

theorem unmetCount_cons (l : Nat × Nat) (ls : List (Nat × Nat)) (placed : List Nat) (i : Nat) :
    unmetCount (l :: ls) placed i =
      unmetCount ls placed i + if l.1 = i ∧ l.2 ∉ placed then 1 else 0 := by
  simp [unmetCount, List.countP_cons]

theorem count_referrers_cons (l : Nat × Nat) (ls : List (Nat × Nat)) (j i : Nat) :
    (referrers (l :: ls) j).count i =
      (referrers ls j).count i + if l.1 = i ∧ l.2 = j then 1 else 0 := by
  by_cases hj : l.2 = j <;> simp [referrers, hj, List.count_cons]

/-- Filling one more place meets the references to it. -/
theorem unmetCount_eq_add {j : Nat} {placed : List Nat} (hnew : j ∉ placed) (ls : List (Nat × Nat))
    (i : Nat) :
    unmetCount ls placed i = unmetCount ls (j :: placed) i + (referrers ls j).count i := by
  induction ls with
  | nil => rfl
  | cons l ls ih =>
      rw [unmetCount_cons, unmetCount_cons, count_referrers_cons, ih]
      by_cases hi : l.1 = i
      · by_cases hj : l.2 = j
        · simp [hi, hj, hnew]
          omega
        · simp [hi, hj]
          omega
      · simp [hi]

theorem unmetCount_eq_zero {ls : List (Nat × Nat)} {placed : List Nat} {i : Nat} :
    unmetCount ls placed i = 0 ↔ ∀ j, (i, j) ∈ ls → j ∈ placed := by
  simp only [unmetCount, List.countP_eq_zero, Bool.and_eq_true, beq_iff_eq, Bool.not_eq_true',
    not_and]
  constructor
  · intro h j hj
    simpa using h (i, j) hj rfl
  · rintro h ⟨k, j⟩ hl rfl
    simpa using h j hl

section Update

variable {f : Nat → Nat} {d m : Nat} {ds : List Nat}

/-- Counts that allow for some references allow for the rest when one of them is met. -/
theorem count_le_update (hcount : ∀ i, (d :: ds).count i ≤ f i) (hm : f d = m + 1) (i : Nat) :
    ds.count i ≤ Function.update f d m i := by
  have hi := hcount i
  rw [Function.update_apply]
  split
  · next heq =>
      subst heq
      rw [List.count_cons_self] at hi
      omega
  · exact List.count_le_count_cons.trans hi

/-- Meeting a reference and then others is meeting all of them. -/
theorem update_sub_count (hm : f d = m + 1) (i : Nat) :
    Function.update f d m i - ds.count i = f i - (d :: ds).count i := by
  rw [Function.update_apply, List.count_cons]
  by_cases hi : i = d
  · simp [hi, hm]
  · simp [hi, Ne.symm hi]

end Update

section Meet

variable {all : List Node} {n : Nat} (hindex : all.map Node.index = List.range n)
include hindex

/-- The node at a place is found there. -/
theorem getElem?_eq_some_of_index {x : Node} {i : Nat} :
    all[i]? = some x ↔ x ∈ all ∧ x.index = i := by
  have hplace : ∀ {y : Node} {j : Nat}, all[j]? = some y → y.index = j := by
    intro y j hy
    have hj := congrArg (·[j]?) hindex
    simp only [List.getElem?_map, hy, Option.map_some] at hj
    obtain ⟨hlt, hget⟩ := List.getElem?_eq_some_iff.1 hj.symm
    rw [← hget, List.getElem_range]
  refine ⟨fun h => ⟨List.mem_of_getElem? h, hplace h⟩, ?_⟩
  rintro ⟨hx, rfl⟩
  obtain ⟨j, hj⟩ := List.mem_iff_getElem?.1 hx
  rwa [hplace hj]

/-- Every place has a node. -/
theorem exists_getElem?_eq_some {i : Nat} (h : i < n) : ∃ x, all[i]? = some x := by
  have hlength : all.length = n := by simpa using congrArg List.length hindex
  exact ⟨_, List.getElem?_eq_getElem (hlength ▸ h)⟩

/-- **What one reference that is met changes**: the count of the artifact goes down by one, and if it
comes to zero, the artifact is put into the queue. -/
theorem exists_meet? {f : Nat → Nat} {ready : List Node} {d m : Nat} {x : Node}
    (hx : all[d]? = some x) (hd : d < n) (hm : f d = m + 1) (hready : ∀ y ∈ ready, y ∈ all)
    (hsorted : ready.Pairwise fun x y => x.before y = true) :
    ∃ ready', Tally.meet? all ⟨(List.range n).map f, ready⟩ d =
        some ⟨(List.range n).map (Function.update f d m), ready'⟩ ∧
      (ready'.Pairwise fun x y => x.before y = true) ∧
      ∀ y, y ∈ ready' ↔ y ∈ ready ∨ (m = 0 ∧ y = x) := by
  have hsame : ∀ z ∈ ready, z.index = x.index → z = x := by
    intro z hz hzx
    have hzd := hzx.trans ((getElem?_eq_some_of_index hindex).1 hx).2
    exact Option.some.inj
      (((getElem?_eq_some_of_index hindex).2 ⟨hready z hz, hzd⟩).symm.trans hx)
  refine ⟨if m = 0 then enqueue x ready else ready, ?_, ?_, fun y => ?_⟩
  · simp only [Tally.meet?, hx, getElem?_map_range hd, hm, set_map_range, Option.bind_eq_bind,
      Option.bind_some]
  · split
    · exact pairwise_enqueue hsame hsorted
    · exact hsorted
  · split
    · next hzero => rw [mem_enqueue hsame, or_comm, and_iff_right hzero]
    · next hpos => simp [hpos]

/-- **What one artifact that is placed changes**: the count of every artifact goes down as often as
it refers to the one that is placed, and those whose count comes to zero are put into the queue. -/
theorem foldlM_meet? {ds : List Nat} {f : Nat → Nat} {ready : List Node} (hds : ∀ d ∈ ds, d < n)
    (hcount : ∀ i, ds.count i ≤ f i) (hready : ∀ x ∈ ready, x ∈ all)
    (hsorted : ready.Pairwise fun x y => x.before y = true) :
    ∃ ready', ds.foldlM (Tally.meet? all) ⟨(List.range n).map f, ready⟩ =
        some ⟨(List.range n).map fun i => f i - ds.count i, ready'⟩ ∧
      (ready'.Pairwise fun x y => x.before y = true) ∧
      ∀ x, x ∈ ready' ↔ x ∈ ready ∨ (x ∈ all ∧ x.index ∈ ds ∧ f x.index = ds.count x.index) := by
  induction ds generalizing f ready with
  | nil => exact ⟨ready, by simp, hsorted, by simp⟩
  | cons d ds ih =>
      obtain ⟨hd, hds⟩ := List.forall_mem_cons.1 hds
      obtain ⟨x, hx⟩ := exists_getElem?_eq_some hindex hd
      obtain ⟨hxall, hxd⟩ := (getElem?_eq_some_of_index hindex).1 hx
      have hdcount := hcount d
      rw [List.count_cons_self] at hdcount
      obtain ⟨m, hm⟩ := Nat.exists_eq_add_of_lt (Nat.zero_lt_of_lt hdcount)
      rw [Nat.zero_add] at hm
      obtain ⟨ready₁, hmeet, hsorted₁, hmem₁⟩ := exists_meet? hindex hx hd hm hready hsorted
      have hready₁ : ∀ y ∈ ready₁, y ∈ all := by
        intro y hy
        rcases (hmem₁ y).1 hy with hy | ⟨-, rfl⟩
        · exact hready y hy
        · exact hxall
      obtain ⟨ready₂, hfold, hsorted₂, hmem₂⟩ := ih hds (count_le_update hcount hm) hready₁ hsorted₁
      refine ⟨ready₂, ?_, hsorted₂, fun y => ?_⟩
      · rw [List.foldlM_cons, hmeet, Option.bind_eq_bind, Option.bind_some, hfold]
        simp only [update_sub_count hm]
      · rw [hmem₂, hmem₁, Function.update_apply, List.count_cons, List.mem_cons]
        by_cases hy : y.index = d
        · -- the node is put into the queue with the last of its unmet references
          rw [if_pos hy, hy, hm]
          simp only [BEq.rfl, if_true, true_or, true_and, Nat.add_right_cancel_iff]
          constructor
          · rintro ((hyready | ⟨hzero, rfl⟩) | ⟨hyall, -, heq⟩)
            · exact Or.inl hyready
            · exact Or.inr ⟨hxall, by omega⟩
            · exact Or.inr ⟨hyall, heq⟩
          · rintro (hyready | ⟨hyall, heq⟩)
            · exact Or.inl (Or.inl hyready)
            · by_cases hmore : d ∈ ds
              · exact Or.inr ⟨hyall, hmore, heq⟩
              · have hnone : ds.count d = 0 := List.count_eq_zero.2 hmore
                have hyx := Option.some.inj
                  (((getElem?_eq_some_of_index hindex).2 ⟨hyall, hy⟩).symm.trans hx)
                exact Or.inl (Or.inr ⟨heq.trans hnone, hyx⟩)
        · have hyx : y ≠ x := fun heq => hy (heq ▸ hxd)
          simp [hy, Ne.symm hy, hyx]

end Meet

/-! ### Placing by counting -/

variable {artifacts : List Artifact}

theorem mem_links {x : Node} (hx : x ∈ nodes artifacts) {j : Nat} :
    (x.index, j) ∈ links artifacts ↔ j ∈ x.needs := by
  rw [links, List.mem_flatMap]
  constructor
  · rintro ⟨y, hy, hlink⟩
    obtain ⟨k, hk, heq⟩ := List.mem_map.1 hlink
    obtain ⟨hindex, rfl⟩ := Prod.mk.inj heq
    rwa [← eq_of_index hy hx hindex]
  · exact fun hneed => ⟨x, hx, List.mem_map_of_mem hneed⟩

theorem lt_of_mem_links {l : Nat × Nat} (hl : l ∈ links artifacts) :
    l.1 < artifacts.length ∧ l.2 < artifacts.length := by
  obtain ⟨x, hx, hlink⟩ := List.mem_flatMap.1 hl
  obtain ⟨j, hj, rfl⟩ := List.mem_map.1 hlink
  obtain ⟨y, hy, rfl⟩ := exists_index_of_mem_needs hx hj
  exact ⟨index_lt_length hx, index_lt_length hy⟩

/-- The nodes of a unit at some places. -/
def nodesAt (artifacts : List Artifact) (placed : List Nat) : Set Node :=
  {x | x ∈ nodes artifacts ∧ x.index ∈ placed}

theorem nodesAt_cons {x : Node} (hx : x ∈ nodes artifacts) (placed : List Nat) :
    nodesAt artifacts (x.index :: placed) = insert x (nodesAt artifacts placed) := by
  ext y
  simp only [nodesAt, Set.mem_ofPred_eq, Set.mem_insert_iff, List.mem_cons, and_or_left]
  refine or_congr_left ⟨fun h => ?_, ?_⟩
  · exact eq_of_index h.1 hx h.2
  · rintro rfl
    exact ⟨hx, rfl⟩

/-- No reference of a node is unmet if all that it awaits is placed. -/
theorem unmetCount_index_eq_zero {x : Node} (hx : x ∈ nodes artifacts) {placed : List Nat} :
    unmetCount (links artifacts) placed x.index = 0 ↔
      ∀ y, Awaits (nodes artifacts) x y → y ∈ nodesAt artifacts placed := by
  simp only [unmetCount_eq_zero, mem_links hx]
  constructor
  · rintro h y ⟨hy, hneed⟩
    exact ⟨hy, h _ hneed⟩
  · intro h i hi
    obtain ⟨y, hy, rfl⟩ := exists_index_of_mem_needs hx hi
    exact (h y ⟨hy, hi⟩).2

/-- What is known while the artifacts of a unit are placed by counting. -/
structure IsCounted (artifacts : List Artifact) (placed : List Nat) (t : Tally) : Prop where
  /-- The places that are filled are places of the unit. -/
  lt_length : ∀ i ∈ placed, i < artifacts.length
  /-- No place is filled twice. -/
  nodup : placed.Nodup
  /-- What is counted are the unmet references. -/
  unmet : t.unmet = (List.range artifacts.length).map (unmetCount (links artifacts) placed)
  /-- What is placed has none. -/
  met : ∀ i ∈ placed, unmetCount (links artifacts) placed i = 0
  /-- In the queue is what has none, and is not placed yet. -/
  mem_ready : ∀ x, x ∈ t.ready ↔ x ∈ nodes artifacts ∧ x.index ∉ placed ∧
    unmetCount (links artifacts) placed x.index = 0
  /-- The queue is in order. -/
  sorted : t.ready.Pairwise fun x y => x.before y = true

namespace IsCounted

variable {placed : List Nat} {t : Tally}

/-- What is in the queue when its first artifact is placed: what was there before, and what had no
other unmet references than those to it. -/
theorem mem_ready_next {x : Node} {unmet : List Nat} {ready : List Node}
    (h : IsCounted artifacts placed ⟨unmet, x :: ready⟩) (y : Node) :
    y ∈ ready ∨ (y ∈ nodes artifacts ∧ y.index ∈ referrers (links artifacts) x.index ∧
        unmetCount (links artifacts) placed y.index =
          (referrers (links artifacts) x.index).count y.index) ↔
      y ∈ nodes artifacts ∧ y.index ∉ x.index :: placed ∧
        unmetCount (links artifacts) (x.index :: placed) y.index = 0 := by
  obtain ⟨hx, hnew, hmet⟩ := (h.mem_ready x).1 List.mem_cons_self
  have hsum := unmetCount_eq_add hnew (links artifacts) y.index
  rw [List.mem_cons, not_or]
  constructor
  · rintro (hy | ⟨hy, hrefers, hall⟩)
    · obtain ⟨hyall, hynew, hymet⟩ := (h.mem_ready y).1 (List.mem_cons_of_mem _ hy)
      refine ⟨hyall, ⟨fun hsame => ?_, hynew⟩, by omega⟩
      -- nothing is in the queue twice
      obtain rfl := eq_of_index hyall hx hsame
      have hfirst := (List.pairwise_cons.1 h.sorted).1 y hy
      exact Node.before_asymm hfirst hfirst
    · -- what had an unmet reference was neither placed nor in the queue
      have hpos := List.count_pos_iff.2 hrefers
      refine ⟨hy, ⟨fun hsame => ?_, fun hold => ?_⟩, by omega⟩
      · rw [hsame] at hall hpos
        omega
      · have := h.met _ hold
        omega
  · rintro ⟨hy, ⟨hne, hynew⟩, hzero⟩
    by_cases hrefers : y.index ∈ referrers (links artifacts) x.index
    · exact Or.inr ⟨hy, hrefers, by omega⟩
    · have hnone := List.count_eq_zero.2 hrefers
      rcases List.mem_cons.1 ((h.mem_ready y).2 ⟨hy, hynew, by omega⟩) with rfl | hready
      · exact absurd rfl hne
      · exact Or.inl hready

/-- **Placing one more artifact** fails nowhere: each reference to it was unmet before. -/
theorem step {x : Node} {unmet : List Nat} {ready : List Node}
    (h : IsCounted artifacts placed ⟨unmet, x :: ready⟩) :
    ∃ t, (referrers (links artifacts) x.index).foldlM (Tally.meet? (nodes artifacts))
        ⟨unmet, ready⟩ = some t ∧ IsCounted artifacts (x.index :: placed) t := by
  obtain ⟨hx, hnew, hmet⟩ := (h.mem_ready x).1 List.mem_cons_self
  have hsum := unmetCount_eq_add hnew (links artifacts)
  have hready : ∀ y ∈ ready, y ∈ nodes artifacts :=
    fun y hy => ((h.mem_ready y).1 (List.mem_cons_of_mem _ hy)).1
  have hreferrers : ∀ d ∈ referrers (links artifacts) x.index, d < artifacts.length := by
    intro d hd
    obtain ⟨l, hl, rfl⟩ := List.mem_map.1 hd
    exact (lt_of_mem_links (List.mem_filter.1 hl).1).1
  have hunmet : unmet = (List.range artifacts.length).map (unmetCount (links artifacts) placed) :=
    h.unmet
  obtain ⟨ready', hfold, hsorted, hmem⟩ :=
    foldlM_meet? (map_index_nodes artifacts) (f := unmetCount (links artifacts) placed)
      hreferrers (fun i => hsum i ▸ Nat.le_add_left _ _) hready (List.pairwise_cons.1 h.sorted).2
  refine ⟨_, hunmet ▸ hfold, ?_, List.nodup_cons.2 ⟨hnew, h.nodup⟩, ?_, ?_,
    fun y => (hmem y).trans (h.mem_ready_next y), hsorted⟩
  · exact List.forall_mem_cons.2 ⟨index_lt_length hx, h.lt_length⟩
  · refine List.map_congr_left fun i _ => ?_
    have := hsum i
    omega
  · -- the counts only go down
    refine List.forall_mem_cons.2 ⟨?_, fun i hi => ?_⟩
    · have := hsum x.index
      omega
    · have := hsum i
      have := h.met i hi
      omega

/-- The first of the queue is the artifact that is placed next. -/
theorem isNext {x : Node} {unmet : List Nat} {ready : List Node}
    (h : IsCounted artifacts placed ⟨unmet, x :: ready⟩) :
    IsNext {x | x ∈ nodes artifacts} (Awaits (nodes artifacts)) (fun x y => x.before y = true)
      (nodesAt artifacts placed) x := by
  obtain ⟨hx, hnew, hmet⟩ := (h.mem_ready x).1 List.mem_cons_self
  refine ⟨hx, fun hold => hnew hold.2, (unmetCount_index_eq_zero hx).1 hmet, ?_⟩
  intro z hz hzdone hzready
  have hzmem := (h.mem_ready z).2
    ⟨hz, fun hold => hzdone ⟨hz, hold⟩, (unmetCount_index_eq_zero hz).2 hzready⟩
  exact (List.mem_cons.1 hzmem).imp_right ((List.pairwise_cons.1 h.sorted).1 z)

/-- Nothing can be placed any more when the queue is empty. -/
theorem stop {unmet : List Nat} (h : IsCounted artifacts placed ⟨unmet, []⟩) :
    Places {x | x ∈ nodes artifacts} (Awaits (nodes artifacts)) (fun x y => x.before y = true)
      (nodesAt artifacts placed) [] := by
  refine .stop fun x hx hnot => ?_
  by_contra hready
  push Not at hready
  have hmem := (h.mem_ready x).2
    ⟨hx, fun hold => hnot ⟨hx, hold⟩, (unmetCount_index_eq_zero hx).2 hready⟩
  exact absurd hmem List.not_mem_nil

/-- An artifact has no unmet references when the queue is empty if it is placed. -/
theorem getElem?_unmet {unmet : List Nat} (h : IsCounted artifacts placed ⟨unmet, []⟩) {x : Node}
    (hx : x ∈ nodes artifacts) : unmet[x.index]? = some 0 ↔ x.index ∈ placed := by
  have hunmet : unmet = (List.range artifacts.length).map (unmetCount (links artifacts) placed) :=
    h.unmet
  rw [hunmet, getElem?_map_range (index_lt_length hx), Option.some_inj]
  refine ⟨fun hzero => ?_, h.met _⟩
  by_contra hnew
  exact absurd ((h.mem_ready x).2 ⟨hx, hnew, hzero⟩) List.not_mem_nil

/-- **Placing by counting** fails nowhere, and places the artifacts one by one; at the end it is
those that are left over that have unmet references. -/
theorem placeCounted?_eq {fuel : Nat} (hfuel : artifacts.length < placed.length + fuel)
    (h : IsCounted artifacts placed t) :
    ∃ xs unmet, placeCounted? (nodes artifacts)
        ((List.range artifacts.length).map (referrers (links artifacts))) fuel t =
          some (xs, unmet) ∧
      Places {x | x ∈ nodes artifacts} (Awaits (nodes artifacts)) (fun x y => x.before y = true)
        (nodesAt artifacts placed) xs ∧
      ∀ x ∈ nodes artifacts, unmet[x.index]? = some 0 ↔ x.index ∈ placed ∨ x ∈ xs := by
  induction fuel generalizing placed t with
  | zero =>
      -- no more places are filled than there are
      have hsubset : placed ⊆ List.range artifacts.length := fun i hi =>
        List.mem_range.2 (h.lt_length i hi)
      have hle := (List.subperm_of_subset h.nodup hsubset).length_le
      rw [List.length_range] at hle
      exact absurd hfuel (by omega)
  | succ fuel ih =>
      obtain ⟨unmet, ready⟩ := t
      cases ready with
      | nil => exact ⟨[], unmet, rfl, h.stop, fun x hx => by simp [h.getElem?_unmet hx]⟩
      | cons x ready =>
          have hx := h.isNext.mem
          obtain ⟨t, hfold, hnext⟩ := h.step
          obtain ⟨xs, left, hrest, hplaces, hleft⟩ :=
            ih (by rw [List.length_cons]; omega) hnext
          have hds := getElem?_map_range (index_lt_length hx) (referrers (links artifacts))
          refine ⟨x :: xs, left, ?_, .next h.isNext (nodesAt_cons hx placed ▸ hplaces), ?_⟩
          · simp only [placeCounted?, hds, hfold, hrest, Option.bind_eq_bind, Option.bind_some,
              Option.pure_def]
          · intro y hy
            have hsame : y.index = x.index ↔ y = x :=
              ⟨eq_of_index hy hx, congrArg Node.index⟩
            rw [hleft y hy, List.mem_cons, List.mem_cons, hsame]
            tauto

end IsCounted

/-! ### The order of a unit -/

/-- The queue that is filled with some of the nodes of a unit. -/
theorem foldl_enqueue {xs ready : List Node} (hxs : ∀ x ∈ xs, x ∈ nodes artifacts)
    (hready : ∀ x ∈ ready, x ∈ nodes artifacts)
    (hsorted : ready.Pairwise fun x y => x.before y = true) :
    ((xs.foldl (fun ready x => enqueue x ready) ready).Pairwise fun x y => x.before y = true) ∧
      ∀ y, y ∈ xs.foldl (fun ready x => enqueue x ready) ready ↔ y ∈ xs ∨ y ∈ ready := by
  induction xs generalizing ready with
  | nil => exact ⟨hsorted, by simp⟩
  | cons x xs ih =>
      obtain ⟨hx, hxs⟩ := List.forall_mem_cons.1 hxs
      have hsame : ∀ z ∈ ready, z.index = x.index → z = x :=
        fun z hz heq => eq_of_index (hready z hz) hx heq
      have hmem : ∀ y, y ∈ enqueue x ready ↔ y = x ∨ y ∈ ready := fun y => mem_enqueue hsame
      have hready' : ∀ y ∈ enqueue x ready, y ∈ nodes artifacts := by
        intro y hy
        rcases (hmem y).1 hy with rfl | hy
        · exact hx
        · exact hready y hy
      obtain ⟨hpairwise, hrest⟩ := ih hxs hready' (pairwise_enqueue hsame hsorted)
      refine ⟨hpairwise, fun y => ?_⟩
      rw [List.foldl_cons, hrest, hmem, List.mem_cons]
      tauto

/-- What is counted before anything is placed. -/
theorem foldlM_record?_links (artifacts : List Artifact) :
    (links artifacts).foldlM Counts.record?
        ⟨List.replicate artifacts.length 0, List.replicate artifacts.length []⟩ =
      some ⟨(List.range artifacts.length).map (unmetCount (links artifacts) []),
        (List.range artifacts.length).map (referrers (links artifacts))⟩ := by
  have hconst : ∀ {α : Type} (a : α), List.replicate artifacts.length a =
      (List.range artifacts.length).map fun _ => a := by
    intro α a
    rw [List.map_const', List.length_range]
  rw [hconst, hconst, foldlM_record? fun l => lt_of_mem_links]
  simp [unmetCount]

/-- The queue before anything is placed. -/
def initialQueue (artifacts : List Artifact) : List Node :=
  ((nodes artifacts).filter fun x =>
    ((List.range artifacts.length).map (unmetCount (links artifacts) []))[x.index]? == some 0).foldl
      (fun ready x => enqueue x ready) []

theorem isCounted_initialQueue (artifacts : List Artifact) :
    IsCounted artifacts []
      ⟨(List.range artifacts.length).map (unmetCount (links artifacts) []),
        initialQueue artifacts⟩ := by
  have hqueue : ∀ x ∈ (nodes artifacts).filter fun x => ((List.range artifacts.length).map
      (unmetCount (links artifacts) []))[x.index]? == some 0, x ∈ nodes artifacts :=
    fun x hx => (List.mem_filter.1 hx).1
  have hnil : ∀ x ∈ ([] : List Node), x ∈ nodes artifacts := by simp
  obtain ⟨hsorted, hmem⟩ := foldl_enqueue hqueue hnil List.Pairwise.nil
  refine ⟨by simp, List.nodup_nil, rfl, by simp, fun x => ?_, hsorted⟩
  rw [initialQueue, hmem, List.mem_filter]
  simp only [List.not_mem_nil, or_false, not_false_eq_true, true_and, beq_iff_eq]
  refine and_congr_right fun hx => ?_
  rw [getElem?_map_range (index_lt_length hx), Option.some_inj]

/-- Lists of nodes in which each comes before the next are equal if they have the same nodes. -/
theorem eq_of_pairwise_before {xs ys : List Node}
    (hxs : xs.Pairwise fun x y => x.before y = true)
    (hys : ys.Pairwise fun x y => x.before y = true) (hmem : ∀ x, x ∈ xs ↔ x ∈ ys) : xs = ys := by
  have : Std.Antisymm fun x y : Node => x.before y = true :=
    ⟨fun _ _ hxy hyx => absurd hyx (Node.before_asymm hxy)⟩
  have : Std.Irrefl fun x y : Node => x.before y = true := ⟨fun _ hx => Node.before_asymm hx hx⟩
  exact List.Pairwise.eq_of_mem_iff hxs hys hmem

/-- **Counting never fails**, and what it finds is the order of the unit. -/
theorem order?_eq (artifacts : List Artifact) : order? artifacts = some (order artifacts) := by
  have hfuel : artifacts.length < ([] : List Nat).length + (artifacts.length + 1) := by simp
  obtain ⟨xs, unmet, hplace, hplaces, hunmet⟩ :=
    (isCounted_initialQueue artifacts).placeCounted?_eq hfuel
  have hxs : xs = (placedNodes artifacts).1 := by
    refine hplaces.eq (fun _ _ => Node.before_asymm) ?_
    simpa [nodesAt] using places_placedNodes artifacts
  have hleft : ((nodes artifacts).filter fun x => unmet[x.index]? != some 0).mergeSort
      (fun x y => !Artifact.keyLt y.artifact.key x.artifact.key) = (placedNodes artifacts).2 := by
    refine eq_of_pairwise_before
      (pairwise_before_mergeSort ((pairwise_index_nodes artifacts).filter _))
      (pairwise_placedNodes artifacts) fun x => ?_
    rw [List.mem_mergeSort, List.mem_filter, mem_placedNodes_snd]
    refine and_congr_right fun hx => ?_
    rw [bne_iff_ne, ne_eq, hunmet x hx, ← hxs]
    simp
  simp only [order?, foldlM_record?_links, Option.bind_eq_bind, Option.bind_some]
  rw [← initialQueue, hplace]
  simp only [Option.bind_some, Option.pure_def]
  split
  · rw [order_eq, hleft, hxs]
  · next hall =>
      -- all are placed, so none is left over
      have hlength := (perm_placedNodes artifacts).length_eq
      rw [List.length_append, ← hxs, nodes, List.length_map, List.length_zipIdx] at hlength
      have hnil : (placedNodes artifacts).2 = [] := List.length_eq_zero_iff.1 (by omega)
      rw [order_eq, hnil, List.append_nil, hxs]

/-- **The order of a unit.**  It is a permutation of the artifacts, and of their places: at first
each place has the first of the artifacts that refer only to those before it, and at the end come,
sorted by key, those that lie on a cycle of references or lead to one.  It is found by counting
references, where no count goes below zero. -/
theorem order_isOrdering (artifacts : List Artifact) :
    (order artifacts).Perm artifacts ∧
    (∃ head tail, IsOrdering artifacts head tail ∧
      (order artifacts).map some = (head ++ tail).map fun i => artifacts[i]?) ∧
    order? artifacts = some (order artifacts) :=
  ⟨perm_order artifacts, exists_isOrdering artifacts, order?_eq artifacts⟩

end Scaffold.Emission
