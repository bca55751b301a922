/-
**The order in which artifacts come.**

The units do not depend on the order of the artifacts, as long as no two of them have one key.  Then
the artifacts of a unit are told apart by their declarations, so a name stands for the same artifact
wherever it comes, and which of two artifacts comes first is decided by their keys alone.  What is
placed is the same in any order then, and what is left over is sorted by key.

Main definitions:

* `Scaffold.Emission.WaitsFor` — what an artifact of a unit waits for.

Main results:

* `Scaffold.Emission.places_order` — how the artifacts of a unit are placed, without their places;
* `Scaffold.Emission.order_congr`, `Scaffold.Emission.render_congr` — the order and the text of a
  unit;
* `Scaffold.Emission.emit_eq_of_perm` — **the units do not depend on the order of the artifacts**.
-/

import Scaffold.Proofs.GreedyOrder

set_option relaxedAutoImplicit false
set_option autoImplicit false

namespace Scaffold.Emission

/-- An artifact of a unit waits for the others whose declarations it refers to. -/
def WaitsFor (artifacts : List Artifact) (a b : Artifact) : Prop :=
  b ∈ artifacts ∧ b.declaration ∈ a.references ∧ b.declaration ≠ a.declaration

/-! ### Artifacts of different declarations -/

section Unit

variable {artifacts : List Artifact} (hnodup : (artifacts.map Artifact.declaration).Nodup)
include hnodup

/-- Nodes are told apart by the declarations of their artifacts. -/
theorem node_eq_of_declaration {x y : Node} (hx : x ∈ nodes artifacts) (hy : y ∈ nodes artifacts)
    (h : x.artifact.declaration = y.artifact.declaration) : x = y :=
  eq_of_index hx hy
    (index_inj hnodup (getElem?_index hx) (getElem?_index hy) h)

/-- What a node awaits is what its artifact waits for. -/
theorem waitsFor_artifact {x : Node} (hx : x ∈ nodes artifacts) {b : Artifact} :
    WaitsFor artifacts x.artifact b ↔
      ∃ y ∈ nodes artifacts, Awaits (nodes artifacts) x y ∧ y.artifact = b := by
  constructor
  · rintro ⟨hb, href, hne⟩
    obtain ⟨i, hi⟩ := List.mem_iff_getElem?.1 hb
    obtain ⟨y, hy, rfl, rfl⟩ := exists_mem_nodes hi
    refine ⟨y, hy, ⟨hy, (mem_needs hx).2 ⟨fun heq => ?_, _, href, ?_⟩⟩, rfl⟩
    · have hsame := (getElem?_index hy).symm.trans (heq ▸ getElem?_index hx)
      exact hne (congrArg Artifact.declaration (Option.some.inj hsame))
    · exact lastIndex?_declaration hnodup hi
  · rintro ⟨y, hy, ⟨-, hneed⟩, rfl⟩
    obtain ⟨hne, name, href, hlast⟩ := (mem_needs hx).1 hneed
    obtain ⟨b, hb, rfl⟩ := exists_of_lastIndex? hlast
    obtain rfl : y.artifact = b := Option.some.inj ((getElem?_index hy).symm.trans hb)
    refine ⟨List.mem_of_getElem? hb, href, fun heq => hne ?_⟩
    exact congrArg Node.index (node_eq_of_declaration hnodup hy hx heq)

/-- Which of two nodes comes first is decided by the keys of their artifacts. -/
theorem keyLt_of_before {x y : Node} (hx : x ∈ nodes artifacts) (hy : y ∈ nodes artifacts)
    (h : x.before y = true) : Artifact.keyLt x.artifact.key y.artifact.key = true := by
  rcases Node.before_iff.1 h with hlt | ⟨hkey, hindex⟩
  · exact hlt
  · have hsame := node_eq_of_declaration hnodup hx hy (Artifact.key_eq_iff.1 hkey).1
    exact absurd hindex (hsame ▸ Nat.lt_irrefl _)

/-- **The artifacts of a unit are placed one by one**, the first by key of those that are ready. -/
theorem places_order :
    Places {a | a ∈ artifacts} (WaitsFor artifacts)
      (fun a b => Artifact.keyLt a.key b.key = true) ∅
      ((placedNodes artifacts).1.map Node.artifact) := by
  have hitems : Node.artifact '' {x | x ∈ nodes artifacts} = {a | a ∈ artifacts} := by
    ext a
    rw [Set.mem_image]
    simp only [Set.mem_ofPred_eq, ← List.mem_map, map_artifact_nodes]
  have hplaces : Places (Node.artifact '' {x | x ∈ nodes artifacts}) (WaitsFor artifacts)
      (fun a b => Artifact.keyLt a.key b.key = true) (Node.artifact '' ∅)
      ((placedNodes artifacts).1.map Node.artifact) :=
    (places_placedNodes artifacts).map
      (fun x hx y hy heq =>
        node_eq_of_declaration hnodup hx hy (congrArg Artifact.declaration heq))
      (fun x hx b => waitsFor_artifact hnodup hx) (fun x _ y hy => hy.1)
      (fun x hx y hy => keyLt_of_before hnodup hx hy) (Set.empty_subset _)
  rwa [hitems, Set.image_empty] at hplaces

/-- What is left over is sorted by key. -/
theorem isCollected_left : IsCollected ((placedNodes artifacts).2.map Node.artifact) := by
  have hnodes : ∀ x ∈ (placedNodes artifacts).2, x ∈ nodes artifacts :=
    fun x hx => (mem_placedNodes_snd.1 hx).1
  refine List.pairwise_map.2 ((pairwise_placedNodes artifacts).imp_of_mem fun hx hy => ?_)
  exact keyLt_of_before hnodup (hnodes _ hx) (hnodes _ hy)

theorem mem_left_iff {a : Artifact} :
    a ∈ (placedNodes artifacts).2.map Node.artifact ↔
      a ∈ artifacts ∧ a ∉ (placedNodes artifacts).1.map Node.artifact := by
  have hperm := (perm_placedNodes artifacts).map Node.artifact
  rw [List.map_append, map_artifact_nodes] at hperm
  exact mem_right_iff_of_perm hperm (List.Nodup.of_map _ hnodup)

/-- The order of a unit does not depend on the order in which its artifacts come. -/
theorem order_congr {others : List Artifact} (hperm : artifacts.Perm others) :
    order artifacts = order others := by
  have hnodup' : (others.map Artifact.declaration).Nodup := (hperm.map _).nodup_iff.1 hnodup
  have hmem : ∀ a, a ∈ artifacts ↔ a ∈ others := fun a => hperm.mem_iff
  have hhead : (placedNodes artifacts).1.map Node.artifact =
      (placedNodes others).1.map Node.artifact := by
    refine (places_order hnodup).eq ?_ ?_
    · exact fun a b hab hba => Artifact.keyLt_irrefl _ (Artifact.keyLt_trans hab hba)
    · have hwaits : WaitsFor artifacts = WaitsFor others := by
        funext a b
        rw [WaitsFor, WaitsFor, hmem]
      simp only [hmem, hwaits]
      exact places_order hnodup'
  have htail : (placedNodes artifacts).2.map Node.artifact =
      (placedNodes others).2.map Node.artifact := by
    refine (isCollected_left hnodup).ext (isCollected_left hnodup') fun a => ?_
    rw [mem_left_iff hnodup, mem_left_iff hnodup', hhead, hmem]
  rw [order_eq, order_eq, List.map_append, List.map_append, hhead, htail]

/-- The text of a unit does not depend on the order in which its artifacts come. -/
theorem render_congr {others : List Artifact} (hperm : artifacts.Perm others) :
    render artifacts = render others := by
  have hmodules : NameSet.ofList (artifacts.flatMap fun a => a.imports.toList) =
      NameSet.ofList (others.flatMap fun a => a.imports.toList) := by
    refine NameSet.ext fun name => ?_
    rw [NameSet.mem_ofList, NameSet.mem_ofList, (hperm.flatMap_right _).mem_iff]
  rw [render, render, hmodules, order_congr hnodup hperm]

end Unit

/-! ### All units -/

/-- Artifacts of one strategy have different declarations if their keys are different. -/
theorem nodup_declaration_group {artifacts : List Artifact}
    (hnodup : (artifacts.map Artifact.key).Nodup) (s : Strategy) :
    ((group artifacts s).map Artifact.declaration).Nodup := by
  have hstrategy : ∀ a ∈ group artifacts s, a.strategy = s := fun a ha => by
    simpa using (List.mem_filter.1 ha).2
  have hgroup : ((group artifacts s).map Artifact.key).Nodup :=
    hnodup.sublist (List.filter_sublist.map _)
  refine List.Nodup.map_on (fun a ha b hb heq => ?_) (List.Nodup.of_map _ hgroup)
  refine List.inj_on_of_nodup_map hgroup ha hb (Artifact.key_eq_iff.2 ⟨heq, ?_⟩)
  rw [hstrategy a ha, hstrategy b hb]

/-- **The units do not depend on the order of the artifacts**: lists of the same artifacts, of which
no two have the same key, make up the same units with the same texts, whatever refers to what. -/
theorem emit_eq_of_perm {artifacts others : List Artifact}
    (hnodup : (artifacts.map Artifact.key).Nodup) (hperm : artifacts.Perm others) :
    emit artifacts = emit others := by
  have hunit : ∀ s, unit? artifacts s = unit? others s := by
    intro s
    have hgroup : (group artifacts s).Perm (group others s) := hperm.filter _
    have hnil : group artifacts s = [] ↔ group others s = [] := by
      rw [← List.length_eq_zero_iff, ← List.length_eq_zero_iff, hgroup.length_eq]
    rw [unit?, unit?, render_congr (nodup_declaration_group hnodup s) hgroup]
    simp only [hnil]
  rw [emit_eq, emit_eq]
  simp only [hunit]

/-- Two nodes refer to each other, and a graph to both of them; the graph may come first or last. -/
theorem emit_eq_of_perm_graph :
    let mapping := fun (name : String) (others : List String) =>
      ({ strategy := .mapping, declaration := name, fragments := ["extension " ++ name],
         references := NameSet.ofList others } : Artifact)
    let artifacts := [mapping "Graph" ["Source", "Target"], mapping "Source" ["Target"],
      mapping "Target" ["Source"]]
    (artifacts.map Artifact.key).Nodup ∧ artifacts.reverse ≠ artifacts ∧
      (emit artifacts).find? Strategy.mapping.outputUnit ≠ none ∧
      emit artifacts = emit artifacts.reverse := by
  intro mapping artifacts
  have hnodup : (artifacts.map Artifact.key).Nodup := by decide
  refine ⟨hnodup, by decide, ?_, emit_eq_of_perm hnodup artifacts.reverse_perm.symm⟩
  rw [find?_emit]
  exact Option.some_ne_none _

end Scaffold.Emission
