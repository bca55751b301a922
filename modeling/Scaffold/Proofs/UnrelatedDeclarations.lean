/-
**Declarations that make no difference.**

A declaration without tags has no task of its own, so it can only matter by being found.  Names are
looked up if they are mentioned, if they are where a transfer object is looked for, or if they belong
to the reducer of a state that is mentioned.  A declaration with no such name is never found, and all
that it does is to move those behind it by one place, which keeps their order.

Main definitions:

* `Scaffold.Entry.IsUnrelated` — a declaration has no tags and no name that is looked up;
* `Scaffold.Entry.moved` — a declaration at a place that depends on its old one;
* `Scaffold.Corpus.Extends` — a corpus with one more declaration than another.

Main results:

* `Scaffold.Corpus.extends_build` — inserting a declaration moves those behind it;
* `Scaffold.Corpus.Extends.resolveAll_eq`, `Scaffold.Corpus.Extends.tasks_eq` — the resolutions and
  the tasks stay;
* `Scaffold.generateParsed_unrelated` — **an unrelated declaration has no effect on a run**.
-/

import Scaffold.Proofs.OutputUnits
import Scaffold.Proofs.RunAgreement

set_option relaxedAutoImplicit false
set_option autoImplicit false

namespace Scaffold

/-- A declaration has no tags, and none of some declarations leads to its name. -/
structure Entry.IsUnrelated (naming : Naming) (es : List Entry) (e : Entry) : Prop where
  /-- It has no tags. -/
  untagged : tagsOf e.markers = []
  /-- It is not declared. -/
  undeclared : ∀ x ∈ es, e.declaration.name ≠ x.declaration.name
  /-- It is not mentioned. -/
  unmentioned : ∀ x ∈ es, e.declaration.name ∉ x.declaration.mentionedNames
  /-- It is not the transfer object of what is declared. -/
  noTransfer : ∀ x ∈ es, e.declaration.name ∉ naming.counterparts x.declaration.name
  /-- It is not the transfer object of what is mentioned. -/
  noMentionedTransfer : ∀ x ∈ es, ∀ name ∈ x.declaration.mentionedNames,
    e.declaration.name ∉ naming.counterparts name
  /-- It is no part of a reducer whose state is mentioned. -/
  noReducer : ∀ x ∈ es, ∀ reducer, reducer ++ ".State" ∈ x.declaration.mentionedNames →
    e.declaration.name ≠ reducer ∧ e.declaration.name ≠ reducer ++ ".State" ∧
      e.declaration.name ≠ reducer ++ ".Action"

/-- An unrelated declaration is not looked up. -/
theorem Entry.IsUnrelated.ne_of_consults {naming : Naming} {es : List Entry} {e x : Entry}
    (h : e.IsUnrelated naming es) (hx : x ∈ es) {name : String}
    (hconsults : x.declaration.Consults naming name) : name ≠ e.declaration.name := by
  intro heq
  cases hconsults with
  | mention hmention => exact h.unmentioned x hx (heq ▸ hmention)
  | counterpart hcounterpart => exact h.noTransfer x hx (heq ▸ hcounterpart)
  | reducer hstate => exact (h.noReducer x hx _ hstate).1 heq.symm
  | action hstate => exact (h.noReducer x hx _ hstate).2.2 heq.symm

/-- With an unrelated declaration the names are still different. -/
theorem Entry.IsUnrelated.nodup {naming : Naming} {before after : List Entry} {e : Entry}
    (h : e.IsUnrelated naming (before ++ after))
    (hnodup : ((before ++ after).map fun x => x.declaration.name).Nodup) :
    ((before ++ e :: after).map fun x => x.declaration.name).Nodup := by
  rw [List.map_append, List.map_cons, List.nodup_middle, ← List.map_append]
  refine List.nodup_cons.2 ⟨?_, hnodup⟩
  intro hmem
  obtain ⟨x, hx, hname⟩ := List.mem_map.1 hmem
  exact h.undeclared x hx hname.symm

/-! ### One more declaration -/

/-- A declaration at a place that depends on its old one. -/
def Declaration.moved (move : Nat → Nat) (d : Declaration) : Declaration :=
  { d with position := move d.position }

theorem Declaration.alike_moved (move : Nat → Nat) (d : Declaration) : (d.moved move).Alike d :=
  ⟨rfl, rfl⟩

/-- An entry at a place that depends on its old one. -/
def Entry.moved (move : Nat → Nat) (e : Entry) : Entry :=
  { e with declaration := e.declaration.moved move }

/-- Lists without items contribute nothing. -/
theorem flatMap_filter_of_nil {α β : Type} {f : α → List β} {p : α → Bool} {xs : List α}
    (h : ∀ x ∈ xs, p x = false → f x = []) : (xs.filter p).flatMap f = xs.flatMap f := by
  rw [← filter_flatMap_of_forall (p := fun _ => true), List.filter_true]
  intro x hx y hy
  by_contra hp
  rw [h x hx (by simpa using Ne.symm hp)] at hy
  cases hy

namespace Corpus

/-- A corpus has the declarations of another, moved but in the same order, and one more, which has
no tags and which none of the others leads to. -/
structure Extends (naming : Naming) (extra : String) (move : Nat → Nat) (c c' : Corpus) : Prop where
  /-- The names in the larger corpus are different. -/
  indexed : c.IsIndexed
  /-- The names in the smaller corpus are different. -/
  indexed' : c'.IsIndexed
  /-- The larger corpus without the extra declaration is the smaller one. -/
  others : c.entries.filter (fun e => e.declaration.name != extra) = c'.entries.map (Entry.moved move)
  /-- The order stays. -/
  strictMono : StrictMono move
  /-- The extra declaration has no tags. -/
  untagged : ∀ e ∈ c.entries, e.declaration.name = extra → tagsOf e.markers = []
  /-- The extra declaration is not declared in the smaller corpus. -/
  undeclared : ∀ d ∈ c'.declarations, d.name ≠ extra
  /-- Nothing in the smaller corpus leads to the extra declaration. -/
  consults : ∀ d ∈ c'.declarations, ∀ name, d.Consults naming name → name ≠ extra

/-- What is built from declarations with different names is these declarations. -/
theorem exists_alike_of_mem_build {es : List Entry}
    (hnodup : (es.map fun x => x.declaration.name).Nodup) {y : Entry}
    (hy : y ∈ (build es).1.entries) :
    ∃ x ∈ es, y.declaration.Alike x.declaration ∧ y.markers = x.markers := by
  rw [build_of_nodup hnodup] at hy
  obtain ⟨i, hi, rfl⟩ := List.mem_mapIdx.1 hy
  exact ⟨_, List.getElem_mem hi, ⟨rfl, rfl⟩, rfl⟩

/-- The place of a declaration after another was inserted. -/
def placeAfter (inserted position : Nat) : Nat :=
  if position < inserted then position else position + 1

theorem strictMono_placeAfter (inserted : Nat) : StrictMono (placeAfter inserted) := by
  intro i j hij
  simp only [placeAfter]
  split <;> split <;> omega

/-- Without the declaration that was inserted, those behind it are moved by one place. -/
theorem filter_entries_build {naming : Naming} {before after : List Entry} {e : Entry}
    (hnodup : ((before ++ after).map fun x => x.declaration.name).Nodup)
    (he : e.IsUnrelated naming (before ++ after)) :
    (build (before ++ e :: after)).1.entries.filter
        (fun x => x.declaration.name != e.declaration.name) =
      (build (before ++ after)).1.entries.map (Entry.moved (placeAfter before.length)) := by
  have hkept : ∀ {xs : List Entry} {f : Nat → Nat}, (∀ x ∈ xs, x ∈ before ++ after) →
      ∀ y ∈ xs.mapIdx (fun i x => x.placed (f i)),
        (y.declaration.name != e.declaration.name) = true := by
    intro xs f hxs y hy
    obtain ⟨i, hi, rfl⟩ := List.mem_mapIdx.1 hy
    simpa using (he.undeclared _ (hxs _ (List.getElem_mem hi))).symm
  rw [build_of_nodup (he.nodup hnodup), build_of_nodup hnodup, List.mapIdx_append,
    List.mapIdx_append, List.mapIdx_cons, List.filter_append, List.filter_cons_of_neg (by simp),
    List.filter_eq_self.2 (hkept fun x hx => List.mem_append_left _ hx),
    List.filter_eq_self.2 (hkept fun x hx => List.mem_append_right _ hx), List.map_append]
  congr 1
  · refine List.ext_getElem (by simp) ?_
    intro i hi _
    have hi : i < before.length := by simpa using hi
    simp [Entry.moved, Entry.placed, Declaration.moved, placeAfter, hi]
  · refine List.ext_getElem (by simp) ?_
    intro i _ _
    simp [Entry.moved, Entry.placed, Declaration.moved, placeAfter, Nat.add_right_comm]

/-- **Inserting an unrelated declaration** extends the corpus by it. -/
theorem extends_build {naming : Naming} {before after : List Entry} {e : Entry}
    (hnodup : ((before ++ after).map fun x => x.declaration.name).Nodup)
    (he : e.IsUnrelated naming (before ++ after)) :
    Extends naming e.declaration.name (placeAfter before.length)
      (build (before ++ e :: after)).1 (build (before ++ after)).1 where
  indexed := isIndexed_build _
  indexed' := isIndexed_build _
  others := filter_entries_build hnodup he
  strictMono := strictMono_placeAfter _
  untagged := by
    intro y hy hname
    obtain ⟨x, hx, halike, hmarkers⟩ := exists_alike_of_mem_build (he.nodup hnodup) hy
    rw [halike.name] at hname
    rw [hmarkers]
    rcases List.mem_append.1 hx with hx | hx
    · exact absurd hname.symm (he.undeclared x (List.mem_append_left _ hx))
    · rcases List.mem_cons.1 hx with rfl | hx
      · exact he.untagged
      · exact absurd hname.symm (he.undeclared x (List.mem_append_right _ hx))
  undeclared := by
    intro d hd
    obtain ⟨y, hy, rfl⟩ := List.mem_map.1 hd
    obtain ⟨x, hx, halike, -⟩ := exists_alike_of_mem_build hnodup hy
    rw [halike.name]
    exact (he.undeclared x hx).symm
  consults := by
    intro d hd name hconsults
    obtain ⟨y, hy, rfl⟩ := List.mem_map.1 hd
    obtain ⟨x, hx, halike, -⟩ := exists_alike_of_mem_build hnodup hy
    exact he.ne_of_consults hx (hconsults.of_alike halike)

namespace Extends

variable {naming : Naming} {extra : String} {move : Nat → Nat} {c c' : Corpus}

theorem declarations_filter (h : Extends naming extra move c c') :
    c.declarations.filter (fun d => d.name != extra) =
      c'.declarations.map (Declaration.moved move) := by
  have hothers := congrArg (List.map Entry.declaration) h.others
  rw [List.map_map] at hothers
  rw [declarations, declarations, List.filter_map, List.map_map]
  exact hothers

/-- What is found under another name is what the smaller corpus has, moved. -/
theorem get?_eq (h : Extends naming extra move c c') {name : String} (hname : name ≠ extra) :
    c.get? name = (c'.get? name).map (Declaration.moved move) := by
  have hfilter : c.get? name =
      (c.declarations.filter fun d => d.name != extra).find? fun d => d.name == name := by
    rw [get?, List.find?_filter]
    congr 1
    funext d
    by_cases hd : d.name = name
    · simp [hd, hname]
    · simp [hd]
  rw [hfilter, h.declarations_filter, List.find?_map]
  rfl

/-- Declarations of the smaller corpus are twins of what they became. -/
theorem twins (h : Extends naming extra move c c') {d : Declaration} (hd : d ∈ c'.declarations) :
    Twins {name | name ≠ extra} c c' (d.moved move) d := by
  have hget := h.indexed'.get?_name hd
  refine ⟨h.undeclared d hd, ?_, hget, d.alike_moved move⟩
  have hname : (d.moved move).name = d.name := rfl
  rw [hname, h.get?_eq (h.undeclared d hd), hget, Option.map_some]

/-- Twins are what the declarations of the smaller corpus became. -/
theorem eq_moved_of_twins (h : Extends naming extra move c c') {d d' : Declaration}
    (htwins : Twins {name | name ≠ extra} c c' d d') : d = d'.moved move := by
  have hleft := htwins.left
  rw [h.get?_eq htwins.mem, htwins.alike.name, htwins.right, Option.map_some] at hleft
  exact (Option.some.inj hleft).symm

/-- **Both corpora agree** on all names but the extra one. -/
theorem agrees (h : Extends naming extra move c c') : c.Agrees naming {name | name ≠ extra} c' where
  shape := by
    intro name hname
    rw [h.get?_eq hname, Option.map_map]
    rfl
  closed := by
    intro d hname hd name hconsults
    rw [h.get?_eq hname] at hd
    obtain ⟨d', hd', rfl⟩ := Option.map_eq_some_iff.1 hd
    exact h.consults d' (List.mem_of_find?_eq_some hd') name
      (hconsults.of_alike (d'.alike_moved move))

/-- What the entries contribute to a list stays, if the extra one contributes nothing. -/
theorem flatMap_entries (h : Extends naming extra move c c') {β : Type} {f f' : Entry → List β}
    (hextra : ∀ e ∈ c.entries, e.declaration.name = extra → f e = [])
    (hsame : ∀ e ∈ c'.entries, f (e.moved move) = f' e) :
    c.entries.flatMap f = c'.entries.flatMap f' := by
  calc
    c.entries.flatMap f
      = (c.entries.filter fun e => e.declaration.name != extra).flatMap f :=
        (flatMap_filter_of_nil fun e he hname => hextra e he (by simpa using hname)).symm
    _ = c'.entries.flatMap fun e => f (e.moved move) := by rw [h.others, List.flatMap_map]
    _ = c'.entries.flatMap f' := List.flatMap_congr hsame

/-! ### Resolutions and tasks -/

section Contexts

variable {settings : Settings} (h : Extends settings.naming extra move c c')
  (provider : FixtureProvider)
include h

/-- **The resolutions stay**, and so do the problems of resolving. -/
theorem resolveAll_eq : resolveAll c settings = resolveAll c' settings := by
  have hextra : ∀ e ∈ c.entries, e.declaration.name = extra →
      resolve c settings e = (none, []) := by
    intro e he hname
    simp [resolve, h.untagged e he hname]
  have hsame : ∀ e ∈ c'.entries, resolve c settings (e.moved move) = resolve c' settings e := by
    intro e he
    exact resolve_congr h.agrees (h.twins (List.mem_map_of_mem he)) rfl
  simp only [resolveAll, List.flatMap_map, List.filterMap_eq_flatMap_toList]
  rw [Prod.mk.injEq]
  constructor
  · refine h.flatMap_entries ?_ ?_
    · intro e he hname
      simp [hextra e he hname]
    · intro e he
      simp [hsame e he]
  · refine h.flatMap_entries ?_ ?_
    · intro e he hname
      simp [hextra e he hname]
    · intro e he
      simp [hsame e he]

theorem resolution?_eq (name : String) :
    (contextOf settings provider c).resolution? name =
      (contextOf settings provider c').resolution? name := by
  simp only [Context.resolution?, contextOf, h.resolveAll_eq]

/-- The extra declaration is not resolved to anything. -/
theorem resolution?_extra : (contextOf settings provider c).resolution? extra = none := by
  rw [h.resolution?_eq, Option.eq_none_iff_forall_ne_some]
  intro r hr
  obtain ⟨e, he, hname, -⟩ := (resolution?_eq_some_iff h.indexed').1 hr
  exact h.undeclared e.declaration (List.mem_map_of_mem he) hname

theorem runs_eq (name : String) (s : Strategy) :
    (contextOf settings provider c).runs name s = (contextOf settings provider c').runs name s := by
  rw [Context.runs, Context.runs, h.resolution?_eq]

/-- **The tasks stay**, with the declarations where they were moved. -/
theorem tasks_eq :
    tasks (contextOf settings provider c) =
      (tasks (contextOf settings provider c')).map fun t => (t.1.moved move, t.2) := by
  rw [tasks, tasks, List.map_flatMap]
  simp only [contextOf, declarations, List.flatMap_map]
  refine h.flatMap_entries ?_ ?_
  · intro e _ hname
    have hnone := h.resolution?_extra provider
    rw [← hname] at hnone
    simp only [contextOf] at hnone
    rw [hnone]
  · intro e _
    have hname : (e.moved move).declaration.name = e.declaration.name := rfl
    have hresolution := h.resolution?_eq provider e.declaration.name
    simp only [contextOf] at hresolution
    rw [hname, hresolution]
    split
    · rw [List.map_map]
      rfl
    · rfl

theorem contexts_agree :
    (contextOf settings provider c).Agrees {name | name ≠ extra} (contextOf settings provider c') :=
  ⟨rfl, rfl, h.agrees⟩

theorem agreesOnFeatures :
    (contextOf settings provider c).AgreesOnFeatures {name | name ≠ extra}
      (contextOf settings provider c') where
  composes := fun name _ => by rw [h.resolution?_eq]
  runs := fun name _ => h.runs_eq provider name .feature
  order := by
    intro d d' e e' hd he
    obtain rfl := h.eq_moved_of_twins hd
    obtain rfl := h.eq_moved_of_twins he
    exact h.strictMono.le_iff_le

/-- **What the tasks yield stays.** -/
theorem results_eq :
    (tasks (contextOf settings provider c)).map
        (fun t => apply (contextOf settings provider c) t.1 t.2) =
      (tasks (contextOf settings provider c')).map
        fun t => apply (contextOf settings provider c') t.1 t.2 := by
  have htasks := h.tasks_eq provider
  rw [htasks, List.map_map]
  refine List.map_congr_left fun t ht => ?_
  have htask : (t.1.moved move, t.2) ∈ tasks (contextOf settings provider c) := by
    rw [htasks]
    exact List.mem_map_of_mem ht
  exact apply_congr h.indexed h.indexed' (h.contexts_agree provider)
    (h.undeclared t.1 (mem_tasks.1 ht).1) htask ht rfl fun _ => h.agreesOnFeatures provider

/-- The table stays. -/
theorem registered_eq :
    (contextOf settings provider c).registered = (contextOf settings provider c').registered := by
  have hannotated : Registration.annotated (contextOf settings provider c) =
      (Registration.annotated (contextOf settings provider c')).map (Declaration.moved move) := by
    have hextra : ∀ d ∈ c.declarations, (contextOf settings provider c).runs d.name .registration =
        ((contextOf settings provider c).runs d.name .registration && d.name != extra) := by
      intro d _
      by_cases hname : d.name = extra
      · simp [hname, Context.runs, h.resolution?_extra provider]
      · simp [hname]
    calc
      _ = c.declarations.filter (fun d =>
            (contextOf settings provider c).runs d.name .registration && d.name != extra) :=
        List.filter_congr hextra
      _ = (c'.declarations.map (Declaration.moved move)).filter fun d =>
            (contextOf settings provider c).runs d.name .registration := by
        rw [← List.filter_filter, h.declarations_filter]
      _ = (c'.declarations.filter fun d =>
            (contextOf settings provider c').runs d.name .registration).map
              (Declaration.moved move) := by
        rw [List.filter_map]
        exact congrArg _ (List.filter_congr fun d _ => h.runs_eq provider d.name .registration)
  have htable : Registration.generate (contextOf settings provider c) =
      Registration.generate (contextOf settings provider c') := by
    refine Registration.generate_congr (h.contexts_agree provider) ?_
    rw [hannotated, List.forall₂_map_left_iff, List.forall₂_same]
    intro d hd
    exact h.twins (List.mem_filter.1 hd).1
  have hsettings : (contextOf settings provider c).settings =
      (contextOf settings provider c').settings := rfl
  rw [Context.registered, Context.registered, htable, hsettings]

end Contexts

end Extends

end Corpus

/-! ### Reports -/

/-- **An unrelated declaration has no effect on a run**: if it has no tags and none of the others
leads to its name, then the report with it, wherever it is inserted, is the report without it. -/
theorem generateParsed_unrelated (processors : Nat) (settings : Settings)
    (provider : FixtureProvider) {before after : List Entry} {e : Entry}
    (hnodup : ((before ++ after).map fun x => x.declaration.name).Nodup)
    (he : e.IsUnrelated settings.naming (before ++ after)) :
    let report := generateParsed processors settings provider (before ++ e :: after)
    let report' := generateParsed processors settings provider (before ++ after)
    report.artifacts = report'.artifacts ∧ report.outputs = report'.outputs ∧
      report.problems = report'.problems := by
  have h := Corpus.extends_build hnodup he
  have hresults := h.results_eq provider
  have htable := h.registered_eq provider
  have hartifacts : (generateParsed processors settings provider (before ++ e :: after)).artifacts =
      (generateParsed processors settings provider (before ++ after)).artifacts := by
    have hyields := congrArg (List.flatMap Generated.artifacts) hresults
    rw [List.flatMap_map, List.flatMap_map] at hyields
    rw [generateParsed, generateParsed, artifacts_generateFrom, artifacts_generateFrom, hyields,
      htable]
  have houtputs : (generateParsed processors settings provider (before ++ e :: after)).outputs =
      (generateParsed processors settings provider (before ++ after)).outputs := by
    rw [generateParsed, generateParsed] at hartifacts
    rw [generateParsed, generateParsed, outputs_generateFrom, outputs_generateFrom, hartifacts]
  have hproblems : (generateParsed processors settings provider (before ++ e :: after)).problems =
      (generateParsed processors settings provider (before ++ after)).problems := by
    have hyields := congrArg (List.flatMap Generated.problems) hresults
    rw [List.flatMap_map, List.flatMap_map] at hyields
    -- no name is taken, and nothing is wrong with what was read
    have hconflicts : (Corpus.build (before ++ e :: after)).2 =
        (Corpus.build (before ++ after)).2 := by
      rw [Corpus.build_of_nodup hnodup, Corpus.build_of_nodup (he.nodup hnodup)]
    have hread : ∀ es, relevantProblems (Corpus.build es).1 settings.naming { entries := es } = [] :=
      fun _ => rfl
    rw [generateParsed, generateParsed, problems_generateFrom, problems_generateFrom, hread, hread,
      h.resolveAll_eq, hconflicts, hyields, htable]
  exact ⟨hartifacts, houtputs, hproblems⟩

/-- A clock between a counter and the tabs that compose it makes no difference, although it moves the
tabs. -/
theorem generateParsed_unrelated_clock :
    let struct := fun (name field : String) (type : TypeRef) =>
      ({ name, shape := .value { form := .struct, fields := [⟨field, type, none, true⟩] } } :
        Declaration)
    let counter : Entry := ⟨struct "Counter" "count" (.primitive "Int"), ["describesFeature"]⟩
    let tabs : Entry := ⟨struct "Tabs" "counter" (.named "Counter.State" []),
      ["describesFeature", "containsComposition"]⟩
    let clock : Entry := ⟨struct "Clock" "time" (.primitive "Int"), ["describes nothing"]⟩
    let report := generateParsed 4 {} ({} : NameMap String) ([counter] ++ clock :: [tabs])
    let report' := generateParsed 4 {} ({} : NameMap String) ([counter] ++ [tabs])
    clock.IsUnrelated {} ([counter] ++ [tabs]) ∧
      report'.artifacts.map Artifact.declaration = ["Counter", "Tabs"] ∧
      report.artifacts = report'.artifacts ∧ report.outputs = report'.outputs ∧
      report.problems = report'.problems := by
  intro struct counter tabs clock
  have hmentions : ∀ x ∈ [counter] ++ [tabs], ∀ name ∈ x.declaration.mentionedNames,
      name = "Counter.State" := by
    decide
  have hunrelated : clock.IsUnrelated {} ([counter] ++ [tabs]) := by
    refine ⟨by decide, by decide, ?_, by decide, ?_, ?_⟩
    · intro x hx hmention
      exact absurd (hmentions x hx _ hmention) (by decide)
    · intro x hx name hname
      rw [hmentions x hx name hname]
      decide
    · intro x hx reducer hstate
      have hreducer : reducer = "Counter" := by
        have happend : reducer.toList ++ ".State".toList = "Counter".toList ++ ".State".toList := by
          rw [← String.toList_append, hmentions x hx _ hstate]
          rfl
        exact String.toList_inj.1 (List.append_cancel_right happend)
      rw [hreducer]
      decide
  have hdeclarations : (generateParsed 4 {} ({} : NameMap String)
      ([counter] ++ [tabs])).artifacts.map Artifact.declaration = ["Counter", "Tabs"] := by
    decide +kernel
  have hnodup : (([counter] ++ [tabs]).map fun x => x.declaration.name).Nodup := by decide
  exact ⟨hunrelated, hdeclarations,
    generateParsed_unrelated 4 {} ({} : NameMap String) hnodup hunrelated⟩

end Scaffold
