/-
**Features are composed in order.**

A feature is composed only of features that are declared before it, which is checked where a field
is found to hold the state of another reducer.  The check is left out for reducers that are written
out, but these have no artifact, as an artifact is made of described features alone.  So the places
in the corpus rank the features of a run, no feature is composed of itself through others, and the
emission, which places an artifact when all it refers to is placed, never gets stuck on them.

Main definitions:

* `Scaffold.Emission.Ranks` — references between different artifacts go to smaller ranks;
* `Scaffold.Emission.lineEnd` — what stands behind the text of an artifact in a unit;
* `Scaffold.Report.features`, `Scaffold.Report.Composes` — the features of a report, and which is
  composed of which.

Main results:

* `Scaffold.Emission.perm_place`, `Scaffold.Emission.pairwise_place`,
  `Scaffold.Emission.place_snd_eq_nil` — placing loses nothing, places what is waited for before what
  waits, and leaves nothing over where waiting goes to smaller ranks;
* `Scaffold.Emission.pairwise_order` — **ranked artifacts come after those they refer to**;
* `Scaffold.Emission.exists_text_of_sublist` — where the texts of two artifacts stand in a unit;
* `Scaffold.Corpus.isPlaced_build` — the positions in a corpus that was built are the places;
* `Scaffold.Report.Composes.position_lt` — composition goes to smaller positions;
* `Scaffold.features_in_order` — **composition has no cycle, and the text of a feature comes after
  the texts of those it composes**.
-/

import Mathlib.Logic.Relation
import Mathlib.Order.WellFounded
import Scaffold.Proofs.OutputUnits

set_option relaxedAutoImplicit false
set_option autoImplicit false

namespace Scaffold

/-! ### Placing artifacts -/

namespace Emission

theorem least?_eq_none {xs : List Node} : least? xs = none ↔ xs = [] := by
  cases xs with
  | nil => simp [least?]
  | cons x xs =>
      simp only [least?, reduceCtorEq, iff_false]
      split
      · simp
      · split <;> simp

theorem mem_of_least? {xs : List Node} {x : Node} (h : least? xs = some x) : x ∈ xs := by
  induction xs with
  | nil => cases h
  | cons y ys ih =>
      simp only [least?] at h
      split at h
      · cases h
        exact List.mem_cons_self
      · next z hz =>
          split at h
          · exact List.mem_cons_of_mem _ (ih (hz.trans h))
          · cases h
            exact List.mem_cons_self

/-- One step of placing: the node that is placed was pending, and what it needs is placed. -/
theorem mem_of_least?_ready {placed : List Nat} {pending : List Node} {x : Node}
    (h : least? (pending.filter (Node.isReady placed)) = some x) :
    x ∈ pending ∧ ∀ i ∈ x.needs, i ∈ placed := by
  obtain ⟨hx, hready⟩ := List.mem_filter.1 (mem_of_least? h)
  refine ⟨hx, fun i hi => ?_⟩
  simpa using List.all_eq_true.1 hready i hi

/-- The nodes that are left when one of them is placed. -/
theorem perm_cons_filter {pending : List Node} (hnodup : (pending.map Node.index).Nodup) {x : Node}
    (hx : x ∈ pending) : (x :: pending.filter fun y => y.index != x.index).Perm pending := by
  induction pending with
  | nil => cases hx
  | cons y ys ih =>
      rw [List.map_cons, List.nodup_cons] at hnodup
      rcases List.mem_cons.1 hx with rfl | hx
      · -- none of the others is at the place of the first
        have hrest : ys.filter (fun y => y.index != x.index) = ys := by
          refine List.filter_eq_self.2 fun z hz => ?_
          have hne : z.index ≠ x.index := fun heq => hnodup.1 (heq ▸ List.mem_map_of_mem hz)
          simpa using hne
        rw [List.filter_cons_of_neg (by simp), hrest]
      · have hne : y.index ≠ x.index := fun heq => hnodup.1 (heq ▸ List.mem_map_of_mem hx)
        rw [List.filter_cons_of_pos (by simpa using hne)]
        exact (List.Perm.swap y x _).trans ((ih hnodup.2 hx).cons y)

/-- Placing loses nothing and adds nothing. -/
theorem perm_place {fuel : Nat} {placed : List Nat} {pending : List Node}
    (hnodup : (pending.map Node.index).Nodup) :
    ((place fuel placed pending).1 ++ (place fuel placed pending).2).Perm pending := by
  induction fuel generalizing placed pending with
  | zero => exact List.Perm.refl _
  | succ fuel ih =>
      simp only [place]
      split
      · exact List.Perm.refl _
      · next x hx =>
          have hrest := hnodup.sublist
            ((List.filter_sublist (p := fun y : Node => y.index != x.index)).map Node.index)
          exact ((ih hrest).cons x).trans
            (perm_cons_filter hnodup (mem_of_least?_ready hx).1)

theorem mem_pending_of_mem_place {fuel : Nat} {placed : List Nat} {pending : List Node}
    (hnodup : (pending.map Node.index).Nodup) {x : Node} (hx : x ∈ (place fuel placed pending).1) :
    x ∈ pending :=
  (perm_place hnodup).mem_iff.1 (List.mem_append_left _ hx)

/-- What is placed later is not needed by what is placed before. -/
theorem pairwise_place {fuel : Nat} {placed : List Nat} {pending : List Node}
    (hnodup : (pending.map Node.index).Nodup) (hplaced : ∀ x ∈ pending, x.index ∉ placed) :
    (place fuel placed pending).1.Pairwise fun x y => y.index ∉ x.needs := by
  induction fuel generalizing placed pending with
  | zero => exact List.Pairwise.nil
  | succ fuel ih =>
      simp only [place]
      split
      · exact List.Pairwise.nil
      · next x hx =>
          obtain ⟨-, hneeds⟩ := mem_of_least?_ready hx
          have hrest := hnodup.sublist
            ((List.filter_sublist (p := fun y : Node => y.index != x.index)).map Node.index)
          refine List.pairwise_cons.2 ⟨?_, ih hrest ?_⟩
          · intro y hy hneed
            exact hplaced y (List.mem_filter.1 (mem_pending_of_mem_place hrest hy)).1
              (hneeds _ hneed)
          · intro y hy
            obtain ⟨hy, hne⟩ := List.mem_filter.1 hy
            simpa [hplaced y hy] using hne

/-- **Nothing is left over** where all that is pending waits for what is placed, or for what is
pending and has a smaller rank: a node of the least rank is always ready. -/
theorem place_snd_eq_nil {fuel : Nat} {placed : List Nat} {pending : List Node} {rank : Node → Nat}
    (hfuel : pending.length ≤ fuel)
    (hneeds : ∀ x ∈ pending, ∀ i ∈ x.needs,
      i ∈ placed ∨ ∃ y ∈ pending, y.index = i ∧ rank y < rank x) :
    (place fuel placed pending).2 = [] := by
  induction fuel generalizing placed pending with
  | zero => exact List.length_eq_zero_iff.1 (Nat.le_zero.1 hfuel)
  | succ fuel ih =>
      simp only [place]
      split
      · next hnone =>
          rw [least?_eq_none] at hnone
          by_contra hne
          obtain ⟨x, hx, hleast⟩ := (measure rank).wf.has_min {x | x ∈ pending}
            (List.exists_mem_of_ne_nil pending hne)
          refine List.filter_eq_nil_iff.1 hnone x hx (List.all_eq_true.2 fun i hi => ?_)
          rcases hneeds x hx i hi with hplaced | ⟨y, hy, -, hlt⟩
          · simpa using hplaced
          · exact absurd hlt (hleast y hy)
      · next x hx =>
          obtain ⟨hmem, -⟩ := mem_of_least?_ready hx
          refine ih ?_ ?_
          · have hlt : (pending.filter fun y => y.index != x.index).length < pending.length :=
              List.length_filter_lt_length_iff_exists.2 ⟨x, hmem, by simp⟩
            exact Nat.lt_succ_iff.1 (hlt.trans_le hfuel)
          · intro y hy i hi
            rcases hneeds y (List.mem_filter.1 hy).1 i hi with hplaced | ⟨z, hz, hzi, hlt⟩
            · exact Or.inl (List.mem_cons_of_mem _ hplaced)
            · by_cases heq : i = x.index
              · exact Or.inl (heq ▸ List.mem_cons_self)
              · exact Or.inr ⟨z, List.mem_filter.2 ⟨hz, by simpa [hzi] using heq⟩, hzi, hlt⟩

/-! ### The order of a unit -/

@[simp] theorem map_artifact_nodes (artifacts : List Artifact) :
    (nodes artifacts).map Node.artifact = artifacts := by
  simp [nodes, Function.comp_def, List.zipIdx_map_fst]

@[simp] theorem map_index_nodes (artifacts : List Artifact) :
    (nodes artifacts).map Node.index = List.range artifacts.length := by
  simp [nodes, Function.comp_def, List.zipIdx_map_snd, List.range_eq_range']

theorem nodup_index_nodes (artifacts : List Artifact) :
    ((nodes artifacts).map Node.index).Nodup := by
  rw [map_index_nodes]
  exact List.nodup_range

/-- The order of a unit has all its artifacts. -/
theorem perm_order (artifacts : List Artifact) : (order artifacts).Perm artifacts := by
  have hplace := @perm_place artifacts.length [] _ (nodup_index_nodes artifacts)
  have hsorted := (List.mergeSort_perm (place artifacts.length [] (nodes artifacts)).2
    fun x y => !Artifact.keyLt y.artifact.key x.artifact.key).append_left
      (place artifacts.length [] (nodes artifacts)).1
  simpa [order] using (hsorted.trans hplace).map Node.artifact

/-- The artifact of a node is at its place. -/
theorem getElem?_index {artifacts : List Artifact} {x : Node} (hx : x ∈ nodes artifacts) :
    artifacts[x.index]? = some x.artifact := by
  obtain ⟨⟨a, j⟩, hmem, rfl⟩ := List.mem_map.1 hx
  exact List.mem_zipIdx_iff_getElem?.1 hmem

theorem exists_mem_nodes {artifacts : List Artifact} {i : Nat} {a : Artifact}
    (h : artifacts[i]? = some a) : ∃ x ∈ nodes artifacts, x.index = i ∧ x.artifact = a := by
  have hmem : (a, i) ∈ artifacts.zipIdx := List.mem_zipIdx_iff_getElem?.2 h
  exact ⟨_, List.mem_map.2 ⟨(a, i), hmem, rfl⟩, rfl, rfl⟩

/-- The node of an artifact waits for the other artifacts that it refers to. -/
theorem mem_needs {artifacts : List Artifact} {x : Node} (hx : x ∈ nodes artifacts) {i : Nat} :
    i ∈ x.needs ↔
      i ≠ x.index ∧ ∃ name ∈ x.artifact.references, lastIndex? artifacts name = some i := by
  obtain ⟨⟨a, j⟩, -, rfl⟩ := List.mem_map.1 hx
  simp [and_comm]

/-- A name stands for an artifact of that name. -/
theorem exists_of_lastIndex? {artifacts : List Artifact} {name : String} {i : Nat}
    (h : lastIndex? artifacts name = some i) :
    ∃ a, artifacts[i]? = some a ∧ a.declaration = name := by
  obtain ⟨⟨a, j⟩, hfind, rfl⟩ := Option.map_eq_some_iff.1 h
  have hmem := List.mem_reverse.1 (List.mem_of_find?_eq_some hfind)
  exact ⟨a, List.mem_zipIdx_iff_getElem?.1 hmem, by simpa using List.find?_some hfind⟩

section Named

variable {artifacts : List Artifact}

/-- Among artifacts of different names, places with artifacts of one name are the same. -/
theorem index_inj (hnodup : (artifacts.map Artifact.declaration).Nodup) {i j : Nat}
    {a b : Artifact} (ha : artifacts[i]? = some a) (hb : artifacts[j]? = some b)
    (hname : a.declaration = b.declaration) : i = j := by
  have hi : i < (artifacts.map Artifact.declaration).length := by
    simpa using (List.getElem?_eq_some_iff.1 ha).1
  refine (List.getElem?_inj hi hnodup).1 ?_
  rw [List.getElem?_map, List.getElem?_map, ha, hb, Option.map_some, Option.map_some, hname]

/-- Among artifacts of different names, each name stands for the place of its artifact. -/
theorem lastIndex?_declaration (hnodup : (artifacts.map Artifact.declaration).Nodup) {i : Nat}
    {a : Artifact} (ha : artifacts[i]? = some a) :
    lastIndex? artifacts a.declaration = some i := by
  have hsome : (lastIndex? artifacts a.declaration).isSome = true := by
    rw [lastIndex?, Option.isSome_map, List.find?_isSome]
    exact ⟨(a, i), List.mem_reverse.2 (List.mem_zipIdx_iff_getElem?.2 ha), by simp⟩
  obtain ⟨j, hj⟩ := Option.isSome_iff_exists.1 hsome
  obtain ⟨b, hb, hname⟩ := exists_of_lastIndex? hj
  rw [hj, index_inj hnodup hb ha hname]

/-- References between different artifacts go to smaller ranks. -/
def Ranks (rank : String → Nat) (artifacts : List Artifact) : Prop :=
  ∀ a ∈ artifacts, ∀ b ∈ artifacts, b.declaration ∈ a.references →
    b.declaration ≠ a.declaration → rank b.declaration < rank a.declaration

/-- Where references are ranked, no artifact is left over. -/
theorem place_nodes_snd (hnodup : (artifacts.map Artifact.declaration).Nodup)
    {rank : String → Nat} (hranks : Ranks rank artifacts) :
    (place artifacts.length [] (nodes artifacts)).2 = [] := by
  refine @place_snd_eq_nil _ _ _ (fun x => rank x.artifact.declaration) (by simp [nodes]) ?_
  intro x hx i hi
  obtain ⟨hne, name, hname, hlast⟩ := (mem_needs hx).1 hi
  obtain ⟨b, hb, rfl⟩ := exists_of_lastIndex? hlast
  obtain ⟨y, hy, rfl, rfl⟩ := exists_mem_nodes hb
  refine Or.inr ⟨y, hy, rfl, ?_⟩
  refine hranks _ (List.mem_of_getElem? (getElem?_index hx)) _ (List.mem_of_getElem? hb) hname ?_
  exact fun heq => hne (index_inj hnodup hb (getElem?_index hx) heq)

/-- **Ranked artifacts come after those they refer to.** -/
theorem pairwise_order (hnodup : (artifacts.map Artifact.declaration).Nodup)
    {rank : String → Nat} (hranks : Ranks rank artifacts) :
    (order artifacts).Pairwise fun a b => b.declaration ∉ a.references := by
  have hindex := nodup_index_nodes artifacts
  have hplaced : ((place artifacts.length [] (nodes artifacts)).1.map Node.index).Nodup := by
    have hall := (@perm_place artifacts.length [] _ hindex).map Node.index
    rw [place_nodes_snd hnodup hranks, List.append_nil] at hall
    exact hall.nodup_iff.2 hindex
  have hwaits : (place artifacts.length [] (nodes artifacts)).1.Pairwise
      fun x y => y.index ∉ x.needs :=
    pairwise_place hindex (by simp)
  rw [order, place_nodes_snd hnodup hranks, List.mergeSort_nil, List.append_nil, List.pairwise_map]
  refine (hwaits.and (List.pairwise_map.1 hplaced)).imp_of_mem ?_
  rintro x y hx hy ⟨hneed, hne⟩ href
  have hx := mem_pending_of_mem_place hindex hx
  have hy := mem_pending_of_mem_place hindex hy
  exact hneed ((mem_needs hx).2
    ⟨fun heq => hne heq.symm, _, href, lastIndex?_declaration hnodup (getElem?_index hy)⟩)

end Named

/-! ### The text of a unit -/

/-- What stands behind the text of an artifact in a unit: the end of its last line, if that is not
ended by the text itself. -/
def lineEnd (text : String) : String :=
  if text.isEmpty || text.toList.getLast? == some '\n' then "" else "\n"

theorem renderArtifact_eq (a : Artifact) :
    renderArtifact a =
      "\n" ++ "\n".intercalate a.fragments ++ lineEnd ("\n".intercalate a.fragments) := rfl

/-- Of two artifacts that are placed one after the other, the texts stand in the unit in this
order. -/
theorem exists_text_of_sublist {head : String} {placed : List Artifact} {f g : Artifact}
    (h : List.Sublist [g, f] placed) :
    ∃ before between after, head ++ String.join (placed.map renderArtifact) =
      before ++ "\n".intercalate g.fragments ++ between ++ "\n".intercalate f.fragments ++ after := by
  obtain ⟨front, back, rfl, hg, hf⟩ := List.cons_sublist_iff.1 h
  obtain ⟨front, inner, rfl⟩ := List.append_of_mem hg
  obtain ⟨inner', back, rfl⟩ := List.append_of_mem (List.singleton_sublist.1 hf)
  refine ⟨head ++ String.join (front.map renderArtifact) ++ "\n",
    lineEnd ("\n".intercalate g.fragments) ++ String.join (inner.map renderArtifact) ++
      String.join (inner'.map renderArtifact) ++ "\n",
    lineEnd ("\n".intercalate f.fragments) ++ String.join (back.map renderArtifact), ?_⟩
  simp only [List.map_append, List.map_cons, String.join_append, String.join_cons,
    renderArtifact_eq, String.append_assoc]

end Emission

/-! ### Positions -/

namespace Corpus

/-- The position of every declaration is its place. -/
def IsPlaced (c : Corpus) : Prop :=
  ∀ (i : Nat) (d : Declaration), c.declarations[i]? = some d → d.position = i

theorem IsPlaced.add {c : Corpus} (h : c.IsPlaced) (e : Entry) : (c.add e).IsPlaced := by
  simp only [Corpus.add]
  split
  · exact h
  · intro i d hd
    simp only [declarations, List.map_append, List.map_cons, List.map_nil] at hd
    by_cases hi : i < c.entries.length
    · rw [List.getElem?_append_left (by simpa using hi)] at hd
      exact h i d hd
    · rw [List.getElem?_append_right (by simpa using hi)] at hd
      obtain ⟨hi', rfl⟩ := List.getElem?_eq_some_iff.1 hd
      simp only [List.length_map, List.length_singleton] at hi'
      simp only [size, List.getElem_singleton]
      omega

theorem IsPlaced.addAll {c : Corpus} (h : c.IsPlaced) (es : List Entry) :
    (c.addAll es).1.IsPlaced := by
  induction es generalizing c with
  | nil => exact h
  | cons e es ih => exact ih (h.add e)

/-- The positions in a corpus that was built are the places. -/
theorem isPlaced_build (es : List Entry) : (build es).1.IsPlaced :=
  @IsPlaced.addAll {} (by simp [IsPlaced, declarations]) es

/-- The declaration of a name stands at a place, which is its position. -/
def StandsAt (c : Corpus) (name : String) (i : Nat) : Prop :=
  ∃ d, c.declarations[i]? = some d ∧ d.name = name ∧ d.position = i

/-- What is found in a placed corpus stands at its position. -/
theorem IsPlaced.standsAt {c : Corpus} (h : c.IsPlaced) {name : String} {d : Declaration}
    (hd : c.get? name = some d) : c.StandsAt name d.position := by
  obtain ⟨i, hi⟩ := List.mem_iff_getElem?.1 (List.mem_of_find?_eq_some hd)
  obtain rfl := h i d hi
  exact ⟨d, hi, name_of_get? hd, rfl⟩

end Corpus

/-! ### The references of a feature -/

theorem Artifact.mem_references_refer {a : Artifact} {name other : String} :
    other ∈ (a.refer name).references ↔
      other ∈ a.references ∨ (other = name ∧ name ≠ a.declaration) := by
  rw [refer]
  split
  · next heq => simp [heq]
  · next hne => simp [hne, or_comm]

/-- An artifact refers to what is recorded, but never to itself. -/
theorem Artifact.mem_references_referAll {a : Artifact} {names : List String} {name : String} :
    name ∈ (a.referAll names).references ↔
      name ∈ a.references ∨ (name ∈ names ∧ name ≠ a.declaration) := by
  induction names generalizing a with
  | nil => simp [referAll]
  | cons other names ih =>
      have hstep : a.referAll (other :: names) = (a.refer other).referAll names := rfl
      have hsame : (a.refer other).declaration = a.declaration := by
        rw [refer]
        split <;> rfl
      rw [hstep, ih, Artifact.mem_references_refer, hsame, List.mem_cons]
      by_cases hname : name = other
      · subst hname
        simp only [true_and, true_or]
        tauto
      · simp [hname]

namespace Feature

/-- A child that is a described feature is declared before the feature that is composed of it. -/
theorem position_lt_of_child {ctx : Context} {d e : Declaration} {f : Field} {c : Child}
    (h : child ctx d f = .ok (some c)) (hruns : ctx.runs c.reducer .feature = true)
    (hget : ctx.corpus.get? c.reducer = some e) : e.position < d.position := by
  simp only [child] at h
  split at h
  · cases h
  · next reducer isOptional _ =>
      split at h
      · next feature hfeature =>
          split at h
          · cases h
          · next hposition =>
              -- the feature that is checked is the one under the name
              simp only [Except.ok.injEq, Option.some.injEq] at h
              subst h
              simp only [described?, hruns, if_true, hget, Option.some.injEq] at hfeature
              subst hfeature
              exact Nat.not_le.1 hposition
      · next hnone =>
          -- a reducer that is written out is no feature
          split at h
          · simp only [Except.ok.injEq, Option.some.injEq] at h
            subst h
            simp [described?, hruns, hget] at hnone
          · cases h

/-- What a feature refers to are the reducers of its children. -/
theorem exists_child_of_mem_references {ctx : Context} {d : Declaration} {a : Artifact}
    (ha : a ∈ (generate ctx d).artifacts) {name : String} (hname : name ∈ a.references) :
    ∃ f c, child ctx d f = .ok (some c) ∧ c.reducer = name := by
  simp only [generate] at ha
  split at ha
  · cases ha
  · next v _ =>
      split at ha
      · split at ha
        · obtain rfl := List.mem_singleton.1 ha
          rw [Artifact.mem_references_referAll] at hname
          obtain ⟨hname, -⟩ := hname.resolve_left NameSet.not_mem_empty
          obtain ⟨c, hc, rfl⟩ := List.mem_map.1 hname
          obtain ⟨result, hresult, hjoin⟩ := List.mem_filterMap.1 hc
          obtain ⟨f, -, rfl⟩ := List.mem_map.1 hresult
          exact ⟨f, c, eq_ok_of_toOption (Option.join_eq_some_iff.1 hjoin), rfl⟩
        · cases ha
      · -- without composition there are no children
        obtain rfl := List.mem_singleton.1 ha
        rw [Artifact.mem_references_referAll] at hname
        obtain ⟨hname, -⟩ := hname.resolve_left NameSet.not_mem_empty
        cases hname

end Feature

/-! ### The features of a report -/

/-- The artifacts of features. -/
def Report.features (r : Report) : List Artifact := Emission.group r.artifacts .feature

/-- A feature of a report is composed of another one. -/
structure Report.Composes (r : Report) (f g : Artifact) : Prop where
  /-- The feature that is composed. -/
  mem_left : f ∈ r.features
  /-- The feature it is composed of. -/
  mem_right : g ∈ r.features
  /-- The first refers to the second. -/
  refers : g.declaration ∈ f.references

theorem Report.mem_features {r : Report} {a : Artifact} :
    a ∈ r.features ↔ a ∈ r.artifacts ∧ a.strategy = .feature := by
  simp [features, Emission.group]

section Run

variable {processors : Nat} {settings : Settings} {provider : FixtureProvider} {o : Outcome}

/-- The features of a run have different names. -/
theorem nodup_features :
    ((generateFrom processors settings provider o).features.map Artifact.declaration).Nodup := by
  have hcollected : IsCollected (generateFrom processors settings provider o).artifacts := by
    rw [artifacts_generateFrom]
    exact isCollected_collect _
  refine List.pairwise_map.2 ((hcollected.filter _).imp_of_mem ?_)
  intro a b ha hb hlt heq
  have hkey : a.key = b.key :=
    Artifact.key_eq_iff.2 ⟨heq, (Report.mem_features.1 ha).2.trans (Report.mem_features.1 hb).2.symm⟩
  exact Artifact.keyLt_irrefl _ (hkey ▸ hlt)

/-- A feature of a run comes from the task of its declaration. -/
theorem exists_task_of_mem_features {a : Artifact}
    (ha : a ∈ (generateFrom processors settings provider o).features) :
    ∃ d, (d, .feature) ∈ tasks (runContext settings provider o) ∧ d.name = a.declaration ∧
      a ∈ (Feature.generate (runContext settings provider o) d).artifacts := by
  obtain ⟨ha, hstrategy⟩ := Report.mem_features.1 ha
  rw [artifacts_generateFrom] at ha
  rcases List.mem_append.1 (mem_of_mem_collect ha) with ha | ha
  · obtain ⟨⟨d, s⟩, htask, ha⟩ := List.mem_flatMap.1 ha
    have hs := strategy_of_mem_apply (Corpus.isIndexed_build o.entries) htask ha
    obtain rfl : s = .feature := hs.symm.trans hstrategy
    exact ⟨d, htask, ((Feature.isSingle_generate _ d).of_mem ha).2.1.symm, ha⟩
  · exact absurd (hstrategy.symm.trans (Context.strategy_of_mem_registered ha)) (by decide)

/-- The declaration of a feature of a run is found under its name, and is to be a feature. -/
theorem exists_get?_of_mem_features {a : Artifact}
    (ha : a ∈ (generateFrom processors settings provider o).features) :
    ∃ d, (Corpus.build o.entries).1.get? a.declaration = some d ∧
      (runContext settings provider o).runs a.declaration .feature = true ∧
      a ∈ (Feature.generate (runContext settings provider o) d).artifacts := by
  obtain ⟨d, htask, hname, ha⟩ := exists_task_of_mem_features ha
  obtain ⟨hd, r, hr, hs, -⟩ := mem_tasks.1 htask
  refine ⟨d, ?_, ?_, ha⟩
  · rw [← hname]
    exact (Corpus.isIndexed_build o.entries).get?_name hd
  · rw [← hname, Context.runs, hr]
    simpa [Resolution.runs] using hs

/-- A feature is composed of features with smaller positions. -/
theorem Report.Composes.position_lt {f g : Artifact}
    (h : (generateFrom processors settings provider o).Composes f g) :
    ∃ d e, (Corpus.build o.entries).1.get? f.declaration = some d ∧
      (Corpus.build o.entries).1.get? g.declaration = some e ∧ e.position < d.position := by
  obtain ⟨d, hd, -, hf⟩ := exists_get?_of_mem_features h.mem_left
  obtain ⟨e, he, hruns, -⟩ := exists_get?_of_mem_features h.mem_right
  obtain ⟨field, c, hchild, hreducer⟩ := Feature.exists_child_of_mem_references hf h.refers
  exact ⟨d, e, hd, he, Feature.position_lt_of_child hchild (hreducer ▸ hruns) (hreducer ▸ he)⟩

/-- The position of the declaration of a name in a corpus. -/
def Corpus.rank (c : Corpus) (name : String) : Nat := ((c.get? name).map Declaration.position).getD 0

theorem Report.Composes.rank_lt {f g : Artifact}
    (h : (generateFrom processors settings provider o).Composes f g) :
    (Corpus.build o.entries).1.rank g.declaration <
      (Corpus.build o.entries).1.rank f.declaration := by
  obtain ⟨d, e, hd, he, hlt⟩ := h.position_lt
  simpa [Corpus.rank, hd, he] using hlt

/-- A chain of compositions leads to a smaller rank. -/
theorem rank_lt_of_transGen {f g : Artifact}
    (h : Relation.TransGen (generateFrom processors settings provider o).Composes f g) :
    (Corpus.build o.entries).1.rank g.declaration <
      (Corpus.build o.entries).1.rank f.declaration := by
  induction h with
  | single h => exact h.rank_lt
  | tail _ h ih => exact h.rank_lt.trans ih

/-- The features of a run are ranked. -/
theorem ranks_features :
    Emission.Ranks (Corpus.build o.entries).1.rank
      (generateFrom processors settings provider o).features :=
  fun _ ha _ hb href _ => Report.Composes.rank_lt ⟨ha, hb, href⟩

/-- In the order of the unit, a feature comes after those it is composed of. -/
theorem sublist_order_of_composes {f g : Artifact}
    (h : (generateFrom processors settings provider o).Composes f g) :
    List.Sublist [g, f]
      (Emission.order (generateFrom processors settings provider o).features) := by
  have hordered := Emission.pairwise_order nodup_features
    (@ranks_features processors settings provider o)
  have hperm := Emission.perm_order (generateFrom processors settings provider o).features
  obtain ⟨before, after, hsplit⟩ := List.append_of_mem (hperm.mem_iff.2 h.mem_left)
  have hg := hperm.mem_iff.2 h.mem_right
  rw [hsplit] at hordered hg ⊢
  rcases List.mem_append.1 hg with hg | hg
  · exact (List.singleton_sublist.2 hg).append (List.singleton_sublist.2 List.mem_cons_self)
  · rcases List.mem_cons.1 hg with rfl | hg
    · exact absurd h.rank_lt (Nat.lt_irrefl _)
    · have hlater := (List.pairwise_cons.1 (List.pairwise_append.1 hordered).2.1).1 g hg
      exact absurd h.refers hlater

end Run

/-- **Features are composed in order.**  In every run the features that a feature is composed of are
declared before it, so composition has no cycle.  The unit of features, which is written if there
are any, is made of their texts, one of each, and the text of a feature stands behind the texts of
those it is composed of. -/
theorem features_in_order (processors : Nat) (settings : Settings) (provider : FixtureProvider)
    (o : Outcome) :
    (∀ f g, (generateFrom processors settings provider o).Composes f g →
      ∃ i j, (Corpus.build o.entries).1.StandsAt f.declaration i ∧
        (Corpus.build o.entries).1.StandsAt g.declaration j ∧ j < i) ∧
    (∀ f, ¬Relation.TransGen (generateFrom processors settings provider o).Composes f f) ∧
    ((generateFrom processors settings provider o).outputs.find? Strategy.feature.outputUnit = none ↔
      (generateFrom processors settings provider o).features = []) ∧
    ∀ text,
      (generateFrom processors settings provider o).outputs.find? Strategy.feature.outputUnit =
        some text →
      ∃ (modules : List String) (placed : List Artifact),
        text = Emission.banner ++ "\n" ++ Emission.renderImports modules ++
          String.join (placed.map fun a => "\n" ++ "\n".intercalate a.fragments ++
            Emission.lineEnd ("\n".intercalate a.fragments)) ∧
        placed.Perm (generateFrom processors settings provider o).features ∧ placed.Nodup ∧
        ∀ f g, (generateFrom processors settings provider o).Composes f g →
          List.Sublist [g, f] placed ∧
          ∃ before between after, text = before ++ "\n".intercalate g.fragments ++ between ++
            "\n".intercalate f.fragments ++ after := by
  have hunit : (generateFrom processors settings provider o).outputs.find?
      Strategy.feature.outputUnit =
        if (generateFrom processors settings provider o).features = [] then none
        else some (Emission.render (generateFrom processors settings provider o).features) := by
    rw [outputs_generateFrom, Emission.find?_emit]
    rfl
  refine ⟨?_, ?_, ?_, ?_⟩
  · intro f g h
    obtain ⟨d, e, hd, he, hlt⟩ := h.position_lt
    have hplaced := Corpus.isPlaced_build o.entries
    exact ⟨d.position, e.position, hplaced.standsAt hd, hplaced.standsAt he, hlt⟩
  · exact fun f h => Nat.lt_irrefl _ (rank_lt_of_transGen h)
  · rw [hunit]
    split <;> simp_all
  · intro text htext
    rw [hunit] at htext
    split at htext
    · cases htext
    · cases htext
      have hperm := Emission.perm_order (generateFrom processors settings provider o).features
      refine ⟨_, _, rfl, hperm, hperm.nodup_iff.2 (List.Nodup.of_map _ nodup_features), ?_⟩
      intro f g h
      have hsublist := sublist_order_of_composes h
      exact ⟨hsublist, Emission.exists_text_of_sublist hsublist⟩

/-- A counter is declared before the page that scopes it, and its text comes first in the unit of
features, although its name is the greater one. -/
theorem features_in_order_counter :
    let struct := fun (name : String) (fields : List Field) =>
      ({ name, shape := .value { form := .struct, fields } } : Declaration)
    let o : Outcome :=
      { entries :=
          [⟨struct "Counter" [⟨"count", .primitive "Int", none, true⟩], ["describesFeature"]⟩,
            ⟨struct "App" [⟨"counter", .named "Counter.State" [], none, true⟩],
              ["describesFeature", "containsComposition"]⟩] }
    let report := generateFrom 2 {} ({} : NameMap String) o
    let counterText :=
      "struct Counter: Reducer \x7b\n" ++
      "    struct State \x7b\n" ++
      "        var count: Int\n" ++
      "    \x7d\n\n" ++
      "    enum Action: Equatable \x7b\x7d\n\n" ++
      "    var body: some ReducerOf<Self> \x7b\n" ++
      "        Reduce \x7b state, action in\n" ++
      "            .none\n" ++
      "        \x7d\n" ++
      "    \x7d\n" ++
      "\x7d\n"
    let appText :=
      "struct App: Reducer \x7b\n" ++
      "    struct State \x7b\n" ++
      "        var counter: Counter.State\n" ++
      "    \x7d\n\n" ++
      "    enum Action: Equatable \x7b\n" ++
      "        case counter(Counter.Action)\n" ++
      "    \x7d\n\n" ++
      "    var body: some ReducerOf<Self> \x7b\n" ++
      "        Scope(state: \\.counter, action: /Action.counter) \x7b\n" ++
      "            Counter()\n" ++
      "        \x7d\n" ++
      "        Reduce \x7b state, action in\n" ++
      "            .none\n" ++
      "        \x7d\n" ++
      "    \x7d\n" ++
      "\x7d\n"
    ∃ app counter text, report.Composes app counter ∧ app.declaration = "App" ∧
      counter.declaration = "Counter" ∧ ¬Relation.TransGen report.Composes app app ∧
      (∃ i j, (Corpus.build o.entries).1.StandsAt "App" i ∧
        (Corpus.build o.entries).1.StandsAt "Counter" j ∧ j < i) ∧
      report.outputs.find? Strategy.feature.outputUnit = some text ∧
      ∃ before between after, text = before ++ counterText ++ between ++ appText ++ after := by
  intro struct o report counterText appText
  have hfeatures : report.features.map (fun a =>
      (a.declaration, a.references.toList, "\n".intercalate a.fragments)) =
        [("App", ["Counter"], appText), ("Counter", [], counterText)] := by
    decide +kernel
  obtain ⟨app, rest, hlist, happ, hrest⟩ := List.map_eq_cons_iff.1 hfeatures
  obtain ⟨counter, _, rfl, hcounter, -⟩ := List.map_eq_cons_iff.1 hrest
  simp only [Prod.mk.injEq] at happ hcounter
  obtain ⟨happ, hrefers, happText⟩ := happ
  obtain ⟨hcounter, -, hcounterText⟩ := hcounter
  have hcomposes : report.Composes app counter := by
    refine ⟨by simp [hlist], by simp [hlist], ?_⟩
    rw [← NameSet.mem_toList, hrefers, hcounter]
    exact List.mem_singleton_self _
  obtain ⟨hplaces, hacyclic, hnone, htext⟩ :=
    features_in_order 2 {} ({} : NameMap String) o
  have hsome : report.outputs.find? Strategy.feature.outputUnit ≠ none := by
    intro h
    have hempty : report.features = [] := hnone.1 h
    rw [hlist] at hempty
    cases hempty
  obtain ⟨text, hfound⟩ := Option.ne_none_iff_exists'.1 hsome
  obtain ⟨_, _, -, -, -, hordered⟩ := htext text hfound
  obtain ⟨-, before, between, after, hcut⟩ := hordered app counter hcomposes
  rw [happText, hcounterText] at hcut
  exact ⟨app, counter, text, hcomposes, happ, hcounter, hacyclic app,
    happ ▸ hcounter ▸ hplaces app counter hcomposes, hfound, before, between, after, hcut⟩

end Scaffold
