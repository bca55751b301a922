/-
**Artifact or problem.**

What a run reports about a declaration and a strategy of it is either one artifact or the problems
of the strategy, never both and never neither.  An artifact may come from several tasks, as a mapping
brings along those it relies on; but it relies on pairs that are planned only, and for these the
task of the declaration itself succeeds.

Main definitions:

* `Scaffold.IsCollected` — artifacts in the order of different keys;
* `Scaffold.Context.IsDue` — the tasks that an artifact answers succeed;
* `Scaffold.Context.Settles` — what a task yields settles it;
* `Scaffold.runContext` — what the generators of a run see.

Main results:

* `Scaffold.isCollected_collect`, `Scaffold.mem_keys_collect` — collecting keeps one artifact of each
  key;
* `Scaffold.settles_apply` — every task is settled by what its generator yields;
* `Scaffold.isDue_of_mem_artifacts` — every artifact of a run is due;
* `Scaffold.artifact_or_problems` — **every task of a run has one artifact, or it has problems which
  are reported**.
-/

import Mathlib.Data.List.Count
import Scaffold.Proofs.MappingExactness
import Scaffold.Proofs.Resolutions

set_option relaxedAutoImplicit false
set_option autoImplicit false

namespace Scaffold

/-! ### The order of keys -/

namespace Artifact

theorem keyLt_iff {j k : String × String} :
    keyLt j k = true ↔ j.1 < k.1 ∨ (j.1 = k.1 ∧ j.2 < k.2) := by
  simp [keyLt]

theorem keyLt_irrefl (k : String × String) : ¬ keyLt k k = true := by
  rw [keyLt_iff]
  rintro (h | ⟨-, h⟩)
  · exact String.lt_irrefl _ h
  · exact String.lt_irrefl _ h

theorem keyLt_trans {i j k : String × String} (hij : keyLt i j = true) (hjk : keyLt j k = true) :
    keyLt i k = true := by
  rw [keyLt_iff] at hij hjk ⊢
  rcases hij with hij | ⟨hij, hij'⟩
  · rcases hjk with hjk | ⟨hjk, -⟩
    · exact Or.inl (String.lt_trans hij hjk)
    · exact Or.inl (hjk ▸ hij)
  · rcases hjk with hjk | ⟨hjk, hjk'⟩
    · exact Or.inl (hij ▸ hjk)
    · exact Or.inr ⟨hij.trans hjk, String.lt_trans hij' hjk'⟩

/-- Of two different keys one comes before the other. -/
theorem keyLt_of_not_keyLt {j k : String × String} (h : ¬ keyLt j k = true) (hne : j ≠ k) :
    keyLt k j = true := by
  rw [keyLt_iff] at h ⊢
  by_cases hfst : j.1 = k.1
  · refine Or.inr ⟨hfst.symm, name_lt_of_not_lt (fun hlt => h (Or.inr ⟨hfst, hlt⟩)) ?_⟩
    exact fun hsnd => hne (Prod.ext hfst hsnd)
  · exact Or.inl (name_lt_of_not_lt (fun hlt => h (Or.inl hlt)) hfst)

theorem key_eq_iff {a : Artifact} {name : String} {s : Strategy} :
    a.key = (name, s.word) ↔ a.declaration = name ∧ a.strategy = s := by
  simp [key, Strategy.word_inj]

end Artifact

/-! ### Collecting artifacts -/

/-- Artifacts in the order of their keys, one of each. -/
def IsCollected (artifacts : List Artifact) : Prop :=
  artifacts.Pairwise fun a b => Artifact.keyLt a.key b.key = true

theorem mem_keys_insertArtifact {a : Artifact} {artifacts : List Artifact} {k : String × String} :
    k ∈ (insertArtifact a artifacts).map Artifact.key ↔
      k = a.key ∨ k ∈ artifacts.map Artifact.key := by
  induction artifacts with
  | nil => simp [insertArtifact]
  | cons b bs ih =>
      simp only [insertArtifact]
      split
      · simp
      · split
        · next heq => simp [heq]
        · simp only [List.map_cons, List.mem_cons, ih]
          exact or_left_comm

/-- Insertion keeps the order of the keys. -/
theorem IsCollected.insertArtifact {artifacts : List Artifact} (h : IsCollected artifacts)
    (a : Artifact) : IsCollected (insertArtifact a artifacts) := by
  induction artifacts with
  | nil => simp [IsCollected, Scaffold.insertArtifact]
  | cons b bs ih =>
      obtain ⟨hb, hbs⟩ := List.pairwise_cons.1 h
      simp only [Scaffold.insertArtifact]
      split
      · next hlt =>
          refine List.pairwise_cons.2 ⟨?_, h⟩
          intro c hc
          rcases List.mem_cons.1 hc with rfl | hc
          · exact hlt
          · exact Artifact.keyLt_trans hlt (hb c hc)
      · split
        · exact h
        · next hlt hne =>
            refine List.pairwise_cons.2 ⟨?_, ih hbs⟩
            intro c hc
            rcases mem_keys_insertArtifact.1 (List.mem_map_of_mem hc) with hkey | hkey
            · rw [hkey]
              exact Artifact.keyLt_of_not_keyLt hlt hne
            · obtain ⟨x, hx, hxkey⟩ := List.mem_map.1 hkey
              rw [← hxkey]
              exact hb x hx

/-- What is collected after some artifacts is in order, and has their keys and those of the rest. -/
theorem isCollected_foldl {collected : List Artifact} (h : IsCollected collected)
    (artifacts : List Artifact) :
    IsCollected (artifacts.foldl (fun acc a => insertArtifact a acc) collected) := by
  induction artifacts generalizing collected with
  | nil => exact h
  | cons a artifacts ih => exact ih (h.insertArtifact a)

theorem mem_keys_foldl {collected artifacts : List Artifact} {k : String × String} :
    k ∈ (artifacts.foldl (fun acc a => insertArtifact a acc) collected).map Artifact.key ↔
      k ∈ collected.map Artifact.key ∨ k ∈ artifacts.map Artifact.key := by
  induction artifacts generalizing collected with
  | nil => simp
  | cons a artifacts ih =>
      rw [List.foldl_cons, ih, mem_keys_insertArtifact, List.map_cons, List.mem_cons, or_assoc]
      exact or_left_comm

/-- Collected artifacts are in the order of their keys. -/
theorem isCollected_collect (artifacts : List Artifact) : IsCollected (collect artifacts) :=
  isCollected_foldl List.Pairwise.nil artifacts

/-- No key is lost by collecting, and none is added. -/
theorem mem_keys_collect {artifacts : List Artifact} {k : String × String} :
    k ∈ (collect artifacts).map Artifact.key ↔ k ∈ artifacts.map Artifact.key := by
  simp only [collect, mem_keys_foldl, List.map_nil, List.not_mem_nil, false_or]

/-- Collected artifacts have different keys. -/
theorem IsCollected.nodup_keys {artifacts : List Artifact} (h : IsCollected artifacts) :
    (artifacts.map Artifact.key).Nodup := by
  refine List.pairwise_map.2 (h.imp ?_)
  intro a b hlt heq
  exact Artifact.keyLt_irrefl b.key (heq ▸ hlt)

/-- There is one artifact of each collected key. -/
theorem IsCollected.countP_key {artifacts : List Artifact} (h : IsCollected artifacts)
    {k : String × String} (hk : k ∈ artifacts.map Artifact.key) :
    artifacts.countP (fun a => a.key = k) = 1 := by
  have hcount := List.count_eq_one_of_mem h.nodup_keys hk
  rw [List.count, List.countP_map] at hcount
  rw [← hcount]
  exact List.countP_congr fun a _ => by simp

/-! ### What generators yield -/

/-- One artifact of a strategy for a declaration, or problems of this declaration. -/
def Generated.IsSingle (name : String) (s : Strategy) : Generated → Prop
  | .ok artifacts => ∃ a, artifacts = [a] ∧ a.key = (name, s.word)
  | .error problems => problems ≠ [] ∧ ∀ p ∈ problems, p.about = name

theorem FailingMock.isSingle_generate (ctx : Context) (d : Declaration) :
    (FailingMock.generate ctx d).IsSingle d.name .failingMock :=
  ⟨_, rfl, by simp [Artifact.key]⟩

theorem Stub.isSingle_generate (ctx : Context) (d : Declaration) :
    (Stub.generate ctx d).IsSingle d.name .stub := by
  simp only [Stub.generate]
  split
  · exact ⟨_, rfl, by simp [Artifact.key]⟩
  · next hproblems =>
      refine ⟨hproblems, ?_⟩
      intro p hp
      obtain ⟨m, -, hm⟩ := List.mem_filterMap.1 hp
      simp only [missing?] at hm
      split at hm
      · cases hm
        rfl
      · cases hm

/-- The problems of composing a feature are its own. -/
theorem Feature.about_of_mem_children {ctx : Context} {d : Declaration} {v : ValueType} {p : Problem}
    (h : p ∈ (children ctx d v).2) : p.about = d.name := by
  obtain ⟨result, hresult, hp⟩ := List.mem_filterMap.1 h
  obtain ⟨f, -, rfl⟩ := List.mem_map.1 hresult
  split at hp
  · next q hq =>
      cases hp
      simp only [child] at hq
      split at hq
      · cases hq
      · split at hq
        · split at hq
          · cases hq
            rfl
          · cases hq
        · cases hq
  · cases hp

theorem Feature.isSingle_generate (ctx : Context) (d : Declaration) :
    (Feature.generate ctx d).IsSingle d.name .feature := by
  simp only [Feature.generate]
  split
  · exact ⟨by simp, by simp [Problem.about]⟩
  · next v _ =>
      split
      · split
        · exact ⟨_, rfl, by simp [Artifact.key]⟩
        · next hproblems =>
            refine ⟨by simpa using hproblems, ?_⟩
            intro p hp
            exact about_of_mem_children hp
      · exact ⟨_, rfl, by simp [Artifact.key]⟩

/-! ### Tasks -/

theorem mem_tasks {ctx : Context} {d : Declaration} {s : Strategy} :
    (d, s) ∈ tasks ctx ↔ d ∈ ctx.corpus.declarations ∧
      ∃ r, ctx.resolution? d.name = some r ∧ s ∈ r.strategies ∧ s ≠ .registration := by
  simp only [tasks, List.mem_flatMap]
  constructor
  · rintro ⟨e, he, htask⟩
    split at htask
    · next r hr =>
        obtain ⟨t, ht, heq⟩ := List.mem_map.1 htask
        cases heq
        exact ⟨he, r, hr, by simpa using ht⟩
    · cases htask
  · rintro ⟨hd, r, hr, hs⟩
    refine ⟨d, hd, ?_⟩
    simp only [hr]
    exact List.mem_map_of_mem (by simpa using hs)

/-- The tasks that an artifact answers succeed. -/
def Context.IsDue (ctx : Context) (a : Artifact) : Prop :=
  ∀ d s, (d, s) ∈ tasks ctx → a.key = (d.name, s.word) → (apply ctx d s).isOk = true

/-- What a task yields settles it: there is an artifact that answers it and none that another task
fails to give, or there are problems, all of them of the declaration. -/
def Context.Settles (ctx : Context) (d : Declaration) (s : Strategy) : Generated → Prop
  | .ok artifacts => (∃ a ∈ artifacts, a.key = (d.name, s.word)) ∧ ∀ a ∈ artifacts, ctx.IsDue a
  | .error problems => problems ≠ [] ∧ ∀ p ∈ problems, p.about = d.name

section Tasks

variable {settings : Settings} {provider : FixtureProvider} {corpus : Corpus}

/-- A single artifact answers the task that it comes from, and no other. -/
theorem settles_of_isSingle {ctx : Context} (hcorpus : ctx.corpus.IsIndexed) {d : Declaration}
    {s : Strategy} (htask : (d, s) ∈ tasks ctx) (h : (apply ctx d s).IsSingle d.name s) :
    ctx.Settles d s (apply ctx d s) := by
  cases hyield : apply ctx d s with
  | error problems =>
      rw [hyield] at h
      exact h
  | ok artifacts =>
      rw [hyield] at h
      obtain ⟨a, rfl, hkey⟩ := h
      refine ⟨⟨a, by simp, hkey⟩, ?_⟩
      intro b hb e t htask' hkey'
      -- a task with this key has the same strategy and the same declaration
      rw [List.mem_singleton.1 hb, hkey, Prod.mk.injEq, Strategy.word_inj] at hkey'
      obtain ⟨hname, rfl⟩ := hkey'
      rw [← hcorpus.eq_of_name (mem_tasks.1 htask).1 (mem_tasks.1 htask').1 hname, hyield]
      rfl

/-- A mapping is asked for where there is a transfer object, which is the counterpart. -/
theorem exists_isPair_of_mem_tasks (hcorpus : corpus.IsIndexed) {d : Declaration}
    (htask : (d, .mapping) ∈ tasks (contextOf settings provider corpus)) :
    ∃ source r, Mapping.IsPair corpus settings.naming (d, source) ∧
      (contextOf settings provider corpus).resolution? d.name = some r ∧
      r.counterpart = some source.name := by
  obtain ⟨hd, r, hr, hmapping, -⟩ := mem_tasks.1 htask
  obtain ⟨e, -, rfl, hresolve⟩ := exists_entry_of_resolution? hcorpus hd hr
  obtain ⟨-, hobstacle, hcounterpart⟩ := resolve_fst_eq_some hresolve
  obtain ⟨source, hsource⟩ := exists_counterpart_of_obstacle? (hobstacle _ hmapping)
  refine ⟨source, r, ⟨hcorpus.get?_name hd, hsource⟩, hr, ?_⟩
  rw [hcounterpart hmapping, hsource, Option.map_some]

/-- A mapping answers the tasks of planned pairs only, so the pairs it relies on cannot bring in one
that fails. -/
theorem isDue_of_isPlannedMapping (hcorpus : corpus.IsIndexed) {a : Artifact}
    (h : Mapping.IsPlannedMapping (contextOf settings provider corpus) a) :
    (contextOf settings provider corpus).IsDue a := by
  intro d s htask hkey
  obtain ⟨hstrategy, p, hp, hname⟩ := h
  obtain ⟨hdeclaration, rfl⟩ := Artifact.key_eq_iff.1 hkey
  rw [hstrategy] at htask ⊢
  obtain ⟨source, r, hpair, hr, hsource⟩ := exists_isPair_of_mem_tasks hcorpus htask
  -- a target has one transfer object, so the pair of the artifact is that of the task
  have heq : p = (d, source) := hp.1.eq hpair (hname.trans hdeclaration)
  rcases Mapping.generate_of_isPair hpair hr hsource with ⟨-, artifacts, hok, -⟩ | ⟨hnot, -⟩
  · simp [apply, hok]
  · exact absurd (heq ▸ hp) hnot

theorem settles_mapping (hcorpus : corpus.IsIndexed) {d : Declaration}
    (htask : (d, .mapping) ∈ tasks (contextOf settings provider corpus)) :
    (contextOf settings provider corpus).Settles d .mapping
      (Mapping.generate (contextOf settings provider corpus) d) := by
  obtain ⟨source, r, hpair, hr, hsource⟩ := exists_isPair_of_mem_tasks hcorpus htask
  rcases Mapping.generate_of_isPair hpair hr hsource with
    ⟨-, artifacts, hok, ⟨a, ha, hname⟩, hplanned⟩ | ⟨-, misfits, herror⟩
  · rw [hok]
    refine ⟨⟨a, ha, Artifact.key_eq_iff.2 ⟨hname, (hplanned a ha).1⟩⟩, ?_⟩
    exact fun b hb => isDue_of_isPlannedMapping hcorpus (hplanned b hb)
  · rw [herror]
    exact ⟨by simp, by simp [Problem.about]⟩

/-- **Every task is settled** by what its generator yields. -/
theorem settles_apply (hcorpus : corpus.IsIndexed) {d : Declaration} {s : Strategy}
    (htask : (d, s) ∈ tasks (contextOf settings provider corpus)) :
    (contextOf settings provider corpus).Settles d s
      (apply (contextOf settings provider corpus) d s) := by
  cases s with
  | failingMock => exact settles_of_isSingle hcorpus htask (FailingMock.isSingle_generate _ d)
  | stub => exact settles_of_isSingle hcorpus htask (Stub.isSingle_generate _ d)
  | mapping => exact settles_mapping hcorpus htask
  | feature => exact settles_of_isSingle hcorpus htask (Feature.isSingle_generate _ d)
  | registration =>
      obtain ⟨-, r, -, -, hne⟩ := mem_tasks.1 htask
      exact absurd rfl hne

end Tasks

/-! ### Runs -/

theorem Registration.strategy_of_generate {ctx : Context} {a : Artifact}
    (h : (Registration.generate ctx).1 = some a) : a.strategy = .registration := by
  simp only [Registration.generate] at h
  split at h
  · cases h
  · cases h
    simp

/-- The context of the generators in a run. -/
abbrev runContext (settings : Settings) (provider : FixtureProvider) (o : Outcome) : Context :=
  contextOf settings provider (Corpus.build o.entries).1

/-- What is collected in a run: the artifacts of all tasks, and perhaps the table. -/
theorem exists_artifacts_eq (processors : Nat) (settings : Settings) (provider : FixtureProvider)
    (o : Outcome) :
    ∃ table : List Artifact, (∀ a ∈ table, a.strategy = .registration) ∧
      (generateFrom processors settings provider o).artifacts =
        collect ((tasks (runContext settings provider o)).flatMap
          (fun t => (apply (runContext settings provider o) t.1 t.2).artifacts) ++ table) := by
  refine ⟨(if settings.runs .registration then
    (Registration.generate (runContext settings provider o)).1 else none).toList, ?_, ?_⟩
  · intro a ha
    split at ha
    · exact Registration.strategy_of_generate (Option.mem_toList.1 ha)
    · cases ha
  · simp only [generateFrom, Workforce.map_eq, List.flatMap_map]
    split <;> rfl

section Run

variable {processors : Nat} {settings : Settings} {provider : FixtureProvider} {o : Outcome}

theorem mem_problems_generateFrom {d : Declaration} {s : Strategy} {p : Problem}
    (htask : (d, s) ∈ tasks (runContext settings provider o))
    (hp : p ∈ (apply (runContext settings provider o) d s).problems) :
    p ∈ (generateFrom processors settings provider o).problems := by
  simp only [generateFrom, Workforce.map_eq, List.flatMap_map, List.mem_append, List.mem_flatMap]
  exact Or.inl (Or.inr ⟨(d, s), htask, hp⟩)

/-- Every artifact of a run is due: the task of its declaration and its strategy, if there is one,
succeeds. -/
theorem isDue_of_mem_artifacts {a : Artifact}
    (ha : a ∈ (generateFrom processors settings provider o).artifacts) :
    (runContext settings provider o).IsDue a := by
  obtain ⟨table, htable, hartifacts⟩ := exists_artifacts_eq processors settings provider o
  rw [hartifacts] at ha
  obtain ⟨b, hb, hbkey⟩ := List.mem_map.1 (mem_keys_collect.1 (List.mem_map_of_mem ha))
  intro d s htask hkey
  rw [← hbkey] at hkey
  rcases List.mem_append.1 hb with hb | hb
  · obtain ⟨⟨e, t⟩, htask', hb⟩ := List.mem_flatMap.1 hb
    have hsettles := settles_apply (Corpus.isIndexed_build o.entries) htask'
    cases happly : apply (runContext settings provider o) e t with
    | ok artifacts =>
        simp only [happly, Context.Settles, Generated.artifacts] at hsettles hb
        exact hsettles.2 b hb d s htask hkey
    | error problems => simp [happly, Generated.artifacts] at hb
  · -- no task is for the table
    obtain ⟨-, r, -, -, hne⟩ := mem_tasks.1 htask
    exact absurd ((Artifact.key_eq_iff.1 hkey).2.symm.trans (htable b hb)) hne

/-- **Artifact or problems**: in every run, a strategy that applies to a declaration has exactly one
artifact if its generator yields any, although other tasks may yield it too.  If the generator fails
there is none, whatever other tasks rely on, and the report has all its problems, which are about the
declaration. -/
theorem artifact_or_problems {d : Declaration} {r : Resolution} {s : Strategy}
    (hd : d ∈ (Corpus.build o.entries).1.declarations)
    (hr : (runContext settings provider o).resolution? d.name = some r) (hs : s ∈ r.strategies)
    (hne : s ≠ .registration) :
    (∀ artifacts, apply (runContext settings provider o) d s = .ok artifacts →
      (generateFrom processors settings provider o).artifacts.countP
        (fun a => a.key = (d.name, s.word)) = 1) ∧
    ∀ problems, apply (runContext settings provider o) d s = .error problems →
      (∀ a ∈ (generateFrom processors settings provider o).artifacts, a.key ≠ (d.name, s.word)) ∧
      problems ≠ [] ∧
      ∀ p ∈ problems, p ∈ (generateFrom processors settings provider o).problems ∧
        p.about = d.name := by
  have htask : (d, s) ∈ tasks (runContext settings provider o) :=
    mem_tasks.2 ⟨hd, r, hr, hs, hne⟩
  have hsettles := settles_apply (Corpus.isIndexed_build o.entries) htask
  constructor
  · intro artifacts happly
    rw [happly] at hsettles
    obtain ⟨⟨a, ha, hkey⟩, -⟩ := hsettles
    obtain ⟨table, -, hartifacts⟩ := exists_artifacts_eq processors settings provider o
    rw [hartifacts]
    refine (isCollected_collect _).countP_key (mem_keys_collect.2 (List.mem_map.2 ⟨a, ?_, hkey⟩))
    refine List.mem_append_left _ (List.mem_flatMap.2 ⟨(d, s), htask, ?_⟩)
    simpa [happly, Generated.artifacts] using ha
  · intro problems happly
    rw [happly] at hsettles
    refine ⟨?_, hsettles.1, ?_⟩
    · intro a ha hkey
      -- whichever task it came from, this one would have to succeed
      have hok := isDue_of_mem_artifacts ha d s htask hkey
      simp [happly] at hok
    · intro p hp
      refine ⟨mem_problems_generateFrom htask ?_, hsettles.2 p hp⟩
      simpa [happly, Generated.problems] using hp

/-- A book is mapped once, although the shelf that holds it brings it along; a draft is not mapped,
although a desk that holds it asks for it. -/
theorem artifact_or_problems_books :
    let struct := fun (position : Nat) (name field : String) (type : TypeRef) =>
      ({ name, position, shape := .value
          { form := .struct, fields := [⟨field, type, none, true⟩] } } : Declaration)
    let book := struct 1 "Book" "title" (.primitive "String")
    let draft := struct 3 "Draft" "title" (.primitive "String")
    let o : Outcome :=
      { entries :=
          [⟨struct 0 "Shelf" "books" (.sequence (.named "Book" [])), ["AutoMappable"]⟩,
            ⟨book, ["AutoMappable"]⟩,
            ⟨struct 2 "Desk" "drafts" (.sequence (.named "Draft" [])), ["AutoMappable"]⟩,
            ⟨draft, ["AutoMappable"]⟩,
            ⟨struct 4 "ShelfDTO" "books" (.sequence (.named "BookDTO" [])), []⟩,
            ⟨struct 5 "BookDTO" "title" (.primitive "String"), []⟩,
            ⟨struct 6 "DeskDTO" "drafts" (.sequence (.named "DraftDTO" [])), []⟩,
            ⟨struct 7 "DraftDTO" "title" (.primitive "Int"), []⟩] }
    let report := generateFrom 4 {} ({} : NameMap String) o
    report.artifacts.countP (fun a => a.key = ("Book", "autoMappableFromDTO")) = 1 ∧
      (∀ a ∈ report.artifacts, a.key ≠ ("Draft", "autoMappableFromDTO")) ∧
      .incompatible "Draft" "DraftDTO" ["title"] ∈ report.problems := by
  intro struct book draft o report
  have hbook : book ∈ (Corpus.build o.entries).1.declarations := by decide +kernel
  have hbook' : (runContext {} ({} : NameMap String) o).resolution? book.name =
      some ⟨"Book", [.mapping], [.mapping], some "BookDTO"⟩ := by decide +kernel
  have hdraft : draft ∈ (Corpus.build o.entries).1.declarations := by decide +kernel
  have hdraft' : (runContext {} ({} : NameMap String) o).resolution? draft.name =
      some ⟨"Draft", [.mapping], [.mapping], some "DraftDTO"⟩ := by decide +kernel
  have herror : apply (runContext {} ({} : NameMap String) o) draft .mapping =
      .error [.incompatible "Draft" "DraftDTO" ["title"]] := by decide +kernel
  have hok : (apply (runContext {} ({} : NameMap String) o) book .mapping).isOk = true := by
    decide +kernel
  obtain ⟨artifacts, hok⟩ := isOk_iff_exists.1 hok
  have hmapped := @artifact_or_problems 4 _ _ _ _ _ .mapping hbook hbook' (by decide) (by decide)
  have hfailed := @artifact_or_problems 4 _ _ _ _ _ .mapping hdraft hdraft' (by decide) (by decide)
  obtain ⟨hnone, -, hproblems⟩ := hfailed.2 _ herror
  exact ⟨hmapped.1 _ hok, hnone, (hproblems _ (by simp)).1⟩

end Run

end Scaffold
