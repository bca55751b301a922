/-
**Runs over corpora that look alike.**

What a run does for a declaration is decided by the resolution of the declaration and by what the
generators find in the corpus.  In corpora that agree both are the same.  Only features also look
at places, as a child has to come before the feature that composes it, so for these the declarations
have to stand in the same order; and only the table of dependencies looks at all declarations that
it registers, so for it these have to be alike one by one.

Main definitions:

* `Scaffold.Context.AgreesOnFeatures` — the same features are described, in the same order.

Main results:

* `Scaffold.resolve_congr` — alike declarations are resolved alike;
* `Scaffold.Feature.generate_congr` — the reducers of alike features are the same;
* `Scaffold.Registration.generate_congr` — the tables of alike declarations are the same;
* `Scaffold.apply_congr` — **tasks for alike declarations yield the same**.
-/

import Scaffold.Proofs.MappingAgreement
import Scaffold.Proofs.RunArtifacts

set_option relaxedAutoImplicit false
set_option autoImplicit false

namespace Scaffold

/-! ### Resolutions -/

section Resolutions

variable {naming : Naming} {names : Set String} {c c' : Corpus}

/-- Where a transfer object is found is the same in both corpora. -/
theorem Corpus.Agrees.map_name_counterpart? (h : c.Agrees naming names c') {d : Declaration}
    (hname : d.name ∈ names) (hd : c.get? d.name = some d) :
    (c.counterpart? naming d.name).map Declaration.name =
      (c'.counterpart? naming d.name).map Declaration.name := by
  rcases h.counterpart?_cases hname hd with ⟨hs, hs'⟩ | ⟨s, s', hs, hs', halike⟩
  · rw [hs, hs']
  · rw [hs, hs', Option.map_some, Option.map_some, halike.name]

theorem mappingObstacle?_congr {d d' : Declaration} (halike : d.Alike d') :
    mappingObstacle? d = mappingObstacle? d' := by
  rw [mappingObstacle?, mappingObstacle?, halike.shape]

/-- The same stands in the way of a strategy for alike declarations. -/
theorem obstacle?_congr (h : c.Agrees naming names c') {d d' : Declaration}
    (htwins : Corpus.Twins names c c' d d') (s : Strategy) :
    obstacle? c naming d s = obstacle? c' naming d' s := by
  have halike := htwins.alike
  cases s with
  | failingMock | stub => simp only [obstacle?, halike.contract?, halike.form]
  | registration => simp only [obstacle?, halike.enumeration?]
  | feature => simp only [obstacle?, halike.form]
  | mapping =>
      simp only [obstacle?, mappable, mappingObstacle?_congr halike, ← halike.name, ← halike.form]
      cases mappingObstacle? d' with
      | some o => rfl
      | none =>
          rcases h.counterpart?_cases htwins.mem htwins.left with
            ⟨hs, hs'⟩ | ⟨s, s', hs, hs', hsalike⟩
          · rw [hs, hs']
          · simp only [hs, hs', ← hsalike.form, ← hsalike.name]
            by_cases hform : s.form = d.form
            · simp only [if_pos hform]
            · simp only [if_neg hform]

/-- **Alike declarations with the same markers are resolved alike.** -/
theorem resolve_congr {settings : Settings} (h : c.Agrees settings.naming names c') {e e' : Entry}
    (htwins : Corpus.Twins names c c' e.declaration e'.declaration)
    (hmarkers : e.markers = e'.markers) :
    resolve c settings e = resolve c' settings e' := by
  have hobstacle : obstacle? c settings.naming e.declaration =
      obstacle? c' settings.naming e'.declaration :=
    funext fun s => obstacle?_congr h htwins s
  have hcounterpart := h.map_name_counterpart? htwins.mem htwins.left
  simp only [resolve, hobstacle, hcounterpart, ← htwins.alike.name, ← hmarkers]

end Resolutions

/-! ### Features -/

/-- The same features of a set of names are described, with the same composition and in the same
order. -/
structure Context.AgreesOnFeatures (names : Set String) (ctx ctx' : Context) : Prop where
  /-- The same declarations compose others. -/
  composes : ∀ name ∈ names, (ctx.resolution? name).any (·.has .composition) =
    (ctx'.resolution? name).any (·.has .composition)
  /-- The same declarations are features. -/
  runs : ∀ name ∈ names, ctx.runs name .feature = ctx'.runs name .feature
  /-- The declarations stand in the same order. -/
  order : ∀ d d' e e' : Declaration, Corpus.Twins names ctx.corpus ctx'.corpus d d' →
    Corpus.Twins names ctx.corpus ctx'.corpus e e' →
    (d.position ≤ e.position ↔ d'.position ≤ e'.position)

namespace Feature

/-- A reducer is taken from the mention of its state. -/
theorem mem_mentions_of_reducer? {t : TypeRef} {reducer : String} {isOptional : Bool}
    (h : reducer? t = some (reducer, isOptional)) : reducer ++ ".State" ∈ t.mentions := by
  have hnamed : ∀ {name : String} {r : String},
      Text.dropSuffix? ".State" name = some r → r ++ ".State" = name := by
    intro name r hdrop
    rw [← String.toList_inj, String.toList_append]
    exact Text.append_of_dropSuffix? hdrop
  simp only [reducer?] at h
  split at h
  · split at h
    · obtain ⟨r, hdrop, heq⟩ := Option.map_eq_some_iff.1 h
      cases heq
      simp [TypeRef.mentions, hnamed hdrop]
    · cases h
  · split at h
    · obtain ⟨r, hdrop, heq⟩ := Option.map_eq_some_iff.1 h
      cases heq
      simp [TypeRef.mentions, hnamed hdrop]
    · cases h

variable {names : Set String} {ctx ctx' : Context}

theorem isWrittenOut_congr (h : ctx.Agrees names ctx') {name : String}
    (hstate : name ++ ".State" ∈ names) (haction : name ++ ".Action" ∈ names) :
    isWrittenOut ctx.corpus name = isWrittenOut ctx'.corpus name := by
  have hnested : ∀ part : String, name ++ ("." ++ part) ∈ names →
      (ctx.corpus.nested? name part).isSome = (ctx'.corpus.nested? name part).isSome := by
    intro part hpart
    rw [Corpus.nested?, Corpus.nested?, String.append_assoc]
    exact h.corpus.contains_eq hpart
  rw [isWrittenOut, isWrittenOut, hnested "State" hstate, hnested "Action" haction]

/-- A field makes the same child, or the same problem, in both contexts. -/
theorem child_congr (h : ctx.Agrees names ctx') (hfeatures : ctx.AgreesOnFeatures names ctx')
    {d d' : Declaration} (htwins : Corpus.Twins names ctx.corpus ctx'.corpus d d') {f : Field}
    (hf : ∀ name ∈ f.type.mentions, name ∈ d.mentionedNames) :
    child ctx d f = child ctx' d' f := by
  simp only [child]
  split
  · rfl
  · next reducer isOptional hreducer =>
      have hstate := hf _ (mem_mentions_of_reducer? hreducer)
      have hconsulted := h.corpus.closed d htwins.mem htwins.left
      have hmem : reducer ∈ names := hconsulted _ (.reducer hstate)
      have hwritten := isWrittenOut_congr h (hconsulted _ (.mention hstate))
        (hconsulted _ (.action hstate))
      simp only [described?, ← hfeatures.runs reducer hmem]
      cases ctx.runs reducer .feature with
      | false => simp only [Bool.false_eq_true, if_false, hwritten]
      | true =>
          simp only [if_true]
          rcases h.corpus.get?_cases hmem with ⟨he, he'⟩ | ⟨e, e', he, he', hfeature⟩
          · simp only [he, he', hwritten]
          · simp only [he, he', hfeatures.order d d' e e' htwins hfeature, htwins.alike.name]

/-- **The reducers of alike features are the same**, and so are the problems of composing them. -/
theorem generate_congr (h : ctx.Agrees names ctx') (hfeatures : ctx.AgreesOnFeatures names ctx')
    {d d' : Declaration} (htwins : Corpus.Twins names ctx.corpus ctx'.corpus d d') :
    generate ctx d = generate ctx' d' := by
  have halike := htwins.alike
  simp only [generate, ← halike.value?, ← halike.name, ← halike.form, ← halike.simpleName,
    ← hfeatures.composes d.name htwins.mem]
  split
  · rfl
  · next v hvalue =>
      have hshape : d.shape = .value v := by
        simp only [Declaration.value?] at hvalue
        split at hvalue
        · next hshape => rw [hshape, Option.some.inj hvalue]
        · cases hvalue
      have hchildren : children ctx d v = children ctx' d' v := by
        have hresults : v.fields.map (child ctx d) = v.fields.map (child ctx' d') := by
          refine List.map_congr_left fun f hf => ?_
          refine child_congr h hfeatures htwins ?_
          intro name hmention
          exact Declaration.mem_mentionedNames_of_value hshape (Or.inr ⟨f, hf, hmention⟩)
        rw [children, children, hresults]
      rw [hchildren]

end Feature

/-! ### The table of dependencies -/

/-- Lists whose items correspond have the same image if corresponding items have. -/
theorem map_eq_map_of_forall₂ {α β γ : Type} {R : α → β → Prop} {f : α → γ} {g : β → γ}
    {xs : List α} {ys : List β} (h : List.Forall₂ R xs ys) (hfg : ∀ x y, R x y → f x = g y) :
    xs.map f = ys.map g := by
  have hmap : List.Forall₂ Eq (xs.map f) (ys.map g) := List.rel_map (fun x y hxy => hfg x y hxy) h
  rwa [List.forall₂_eq_eq_eq] at hmap

namespace Registration

/-- Which candidate is chosen depends on the names only. -/
theorem name_preferred (stem : String) (first : Declaration) (others : List Declaration) :
    (preferred stem first others).name = (((first :: others).map Declaration.name).find?
      fun name => Text.startsWith stem (Text.lastSegment name)).getD first.name := by
  rw [preferred, List.find?_map, Option.getD_map]
  rfl

section Table

variable {names : Set String} {ctx ctx' : Context} (h : ctx.Agrees names ctx')
  (hannotated : List.Forall₂ (Corpus.Twins names ctx.corpus ctx'.corpus) (annotated ctx)
    (annotated ctx'))
include hannotated

/-- The value types to register are the same. -/
theorem forall₂_concretes :
    List.Forall₂ (fun p p' => p.1.Alike p'.1 ∧ p.2 = p'.2) (concretes ctx) (concretes ctx') := by
  refine List.rel_filterMap ?_ hannotated
  intro d d' htwins
  simp only [← htwins.alike.value?]
  cases d.value? with
  | none => exact .none
  | some v => exact .some ⟨htwins.alike, rfl⟩

/-- The contracts to register are alike. -/
theorem forall₂_contracts :
    List.Forall₂ (Corpus.Twins names ctx.corpus ctx'.corpus) (contracts ctx) (contracts ctx') := by
  refine List.rel_filter ?_ hannotated
  intro d d' htwins
  simp only [htwins.alike.contract?]

theorem unclaimed_congr (claimed : List String) : unclaimed ctx claimed = unclaimed ctx' claimed := by
  refine map_eq_map_of_forall₂ (List.rel_filter ?_ (forall₂_concretes hannotated)) ?_
  · rintro p p' ⟨halike, -⟩
    simp only [halike.name]
  · rintro p p' ⟨halike, -⟩
    simp only [halike.name, halike.simpleName]

include h

/-- The value types that implement a contract are alike. -/
theorem forall₂_candidates {d d' : Declaration}
    (htwins : Corpus.Twins names ctx.corpus ctx'.corpus d d') :
    List.Forall₂ Declaration.Alike (candidates ctx d) (candidates ctx' d') := by
  simp only [candidates, ← h.corpus.requirements_eq htwins]
  refine List.rel_map (fun p p' hp => hp.1) (List.rel_filter ?_ (forall₂_concretes hannotated))
  rintro p p' ⟨-, hvalue⟩
  simp only [hvalue, implements, declares, htwins.alike.name, htwins.alike.simpleName]

/-- A contract is paired with the same type. -/
theorem pair_congr {d d' : Declaration}
    (htwins : Corpus.Twins names ctx.corpus ctx'.corpus d d') : pair ctx d = pair ctx' d' := by
  have hcandidates := forall₂_candidates h hannotated htwins
  have hfail : ctx'.settings.failOnAmbiguousRegistration =
      ctx.settings.failOnAmbiguousRegistration := by
    simpa using congrArg Settings.failOnAmbiguousRegistration h.settings
  simp only [pair, h.naming, hfail, ← htwins.alike.name, ← htwins.alike.simpleName]
  generalize candidates ctx d = cs, candidates ctx' d' = cs' at hcandidates
  cases hcandidates with
  | nil => rfl
  | @cons first first' others others' hfirst hothers =>
      have hnames : (first :: others).map Declaration.name =
          (first' :: others').map Declaration.name :=
        map_eq_map_of_forall₂ (.cons hfirst hothers) fun x y hxy => hxy.name
      have hpreferred : ∀ stem, (preferred stem first others).name =
          (preferred stem first' others').name := by
        intro stem
        rw [name_preferred, name_preferred, hnames, hfirst.name]
      cases hothers with
      | nil => simp only [hfirst.name]
      | cons hsecond hrest => simp only [hnames, hpreferred]

/-- **The tables of alike declarations are the same**, and so are the problems of registering
them. -/
theorem generate_congr : generate ctx = generate ctx' := by
  have hpairings : (contracts ctx).map (pair ctx) = (contracts ctx').map (pair ctx') :=
    map_eq_map_of_forall₂ (forall₂_contracts hannotated) fun d d' => pair_congr h hannotated
  have hplan : plan ctx = plan ctx' := by
    simp only [plan, hpairings, unclaimed_congr hannotated]
  simp only [generate, hplan]

end Table

end Registration

/-! ### Tasks -/

section Tasks

variable {settings settings' : Settings} {provider : FixtureProvider} {corpus corpus' : Corpus}

/-- **Tasks for alike declarations yield the same.** -/
theorem apply_congr (hcorpus : corpus.IsIndexed) (hcorpus' : corpus'.IsIndexed) {names : Set String}
    (h : (contextOf settings provider corpus).Agrees names (contextOf settings' provider corpus'))
    {d d' : Declaration} {s : Strategy} (hname : d.name ∈ names)
    (htask : (d, s) ∈ tasks (contextOf settings provider corpus))
    (htask' : (d', s) ∈ tasks (contextOf settings' provider corpus')) (heq : d.name = d'.name)
    (hfeature : s = .feature → (contextOf settings provider corpus).AgreesOnFeatures names
      (contextOf settings' provider corpus')) :
    apply (contextOf settings provider corpus) d s =
      apply (contextOf settings' provider corpus') d' s := by
  have htwins : Corpus.Twins names corpus corpus' d d' :=
    h.corpus.twins hname (hcorpus.get?_name (mem_tasks.1 htask).1)
      (hcorpus'.get?_name (mem_tasks.1 htask').1) heq
  cases s with
  | failingMock => exact FailingMock.generate_congr h htwins
  | stub => exact Stub.generate_congr h htwins
  | feature => exact Feature.generate_congr h (hfeature rfl) htwins
  | registration => rfl
  | mapping =>
      obtain ⟨source, r, hpair, hr, hsource⟩ := exists_isPair_of_mem_tasks hcorpus htask
      obtain ⟨source', r', hpair', hr', hsource'⟩ := exists_isPair_of_mem_tasks hcorpus' htask'
      exact Mapping.generate_congr h hname hpair hpair' hr hsource hr' hsource' heq

end Tasks

end Scaffold
