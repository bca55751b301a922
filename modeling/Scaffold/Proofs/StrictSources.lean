/-
**Using all of the source.**

A mapping may be asked to use every field of the transfer object.  This is asked of every pair that
is planned, and what a pair may rely on is the plans of others, so the answers are related level by
level: if not everything is to be used, more pairs are accepted, a plan stays as it was, and a pair
that does not fit has fewer fields in the way.

Main definitions:

* `Scaffold.Context.usingAll` — what generators see if all of the source is, or is not, to be used;
* `Scaffold.Mapping.Relaxes` — how two answers of the planner are related.

Main results:

* `Scaffold.Mapping.planFrom_relaxes` — the two plans of a pair;
* `Scaffold.Mapping.generateFrom_usingAll` — what goes through stays as it is;
* `Scaffold.Mapping.generate_usingAll` — **asking less of a mapping gives the same mappings and
  fewer misfits**.
-/

import Scaffold.Proofs.MappingClosure
import Scaffold.Proofs.Resolutions

set_option relaxedAutoImplicit false
set_option autoImplicit false

namespace Scaffold

/-- Settings by which all of the source is, or is not, to be used. -/
def Settings.usingAll (settings : Settings) (all : Bool) : Settings :=
  { settings with strictSourceFields := all }

/-- What generators see if all of the source is, or is not, to be used. -/
def Context.usingAll (ctx : Context) (all : Bool) : Context :=
  { ctx with settings := ctx.settings.usingAll all }

/-- Resolutions do not look at the fields. -/
theorem contextOf_usingAll (settings : Settings) (provider : FixtureProvider) (corpus : Corpus)
    (all : Bool) :
    contextOf (settings.usingAll all) provider corpus =
      (contextOf settings provider corpus).usingAll all :=
  rfl

namespace Mapping

/-! ### More nested pairs -/

section Maps

variable {maps maps' : String → String → Bool}

/-- A conversion stays as it is if more nested pairs fit. -/
theorem convert?_mono (h : ∀ s t, maps s t = true → maps' s t = true) {expr : String}
    {source target : TypeRef} {c : Conversion} (hc : convert? maps expr source target = some c) :
    convert? maps' expr source target = some c := by
  fun_induction convert? maps expr source target generalizing c with
  | case1 | case4 | case7 | case11 =>
      rw [convert?_self]
      exact hc
  | case2 expr t s hne ih | case5 expr t s hne ih | case8 expr t j s hne ih =>
      obtain ⟨inner, hinner, rfl⟩ := Option.map_eq_some_iff.1 hc
      simp only [convert?, if_neg hne, ih hinner, Option.map_some, if_true]
  | case3 expr t source hoptional hne ih =>
      simp only [convert?, if_neg hne]
      exact ih hc
  | case12 expr t s hmaps hne =>
      simp only [convert?, if_neg hne, h _ _ hmaps, if_true]
      exact hc
  | case15 => simpa [convert?] using hc
  | case6 | case9 | case10 | case13 | case14 | case16 => cases hc

/-- What becomes of a field that fits stays as it is if more nested pairs fit. -/
theorem fieldStep_mono (h : ∀ s t, maps s t = true → maps' s t = true) {source : ValueType}
    {f : Field} (hfits : fieldStep maps source f ≠ .misfit) :
    fieldStep maps' source f = fieldStep maps source f := by
  simp only [fieldStep] at hfits ⊢
  split
  · rfl
  · next hkept =>
      rw [if_neg hkept] at hfits
      split
      · next s hs =>
          rw [hs] at hfits
          cases hconvert : convert? maps ("dto." ++ f.name) s.type f.type with
          | none => simp [hconvert] at hfits
          | some c => rw [convert?_mono h hconvert]
      · rfl

/-! ### Two answers of the planner -/

/-- How an answer is related to that of a planner that asks less: the plan is the same, or there is
one now, or some of the misfits are left. -/
inductive Relaxes : (strict lenient : Except (List String) Plan) → Prop
  /-- The pair fits in the same way. -/
  | same (p : Plan) : Relaxes (.ok p) (.ok p)
  /-- The pair did not fit, and does now. -/
  | accepted (misfits : List String) (p : Plan) : Relaxes (.error misfits) (.ok p)
  /-- The pair does not fit, with no more misfits than before. -/
  | fewer {misfits misfits' : List String} :
      misfits'.Sublist misfits → Relaxes (.error misfits) (.error misfits')

theorem Relaxes.refl (answer : Except (List String) Plan) : Relaxes answer answer := by
  cases answer with
  | ok p => exact .same p
  | error misfits => exact .fewer (List.Sublist.refl misfits)

theorem Relaxes.isOk {strict lenient : Except (List String) Plan} (h : Relaxes strict lenient)
    (hok : strict.isOk = true) : lenient.isOk = true := by
  cases h with
  | same p => rfl
  | accepted misfits p => rfl
  | fewer hsublist => cases hok

theorem Relaxes.eq_ok {strict lenient : Except (List String) Plan} (h : Relaxes strict lenient)
    {p : Plan} (hp : strict = .ok p) : lenient = .ok p := by
  cases h with
  | same q => exact hp
  | accepted misfits q => cases hp
  | fewer hsublist => cases hp

theorem Relaxes.exists_error {strict lenient : Except (List String) Plan}
    (h : Relaxes strict lenient) {misfits : List String} (hm : lenient = .error misfits) :
    ∃ more, strict = .error more ∧ misfits.Sublist more := by
  cases h with
  | same q => cases hm
  | accepted more q => cases hm
  | @fewer more _ hsublist =>
      cases hm
      exact ⟨more, rfl, hsublist⟩

/-- The target fields that do not fit are some of those before. -/
theorem targetMisfits_sublist (h : ∀ s t, maps s t = true → maps' s t = true)
    (target source : ValueType) :
    (targetMisfits (fieldSteps maps' target source)).Sublist
      (targetMisfits (fieldSteps maps target source)) := by
  simp only [targetMisfits, fieldSteps, List.filter_map, List.map_map]
  refine List.Sublist.map _ (List.monotone_filter_right _ ?_)
  intro f hf
  simp only [Function.comp_apply, decide_eq_true_eq] at hf ⊢
  by_contra hfits
  exact hfits ((fieldStep_mono h hfits).symm.trans hf)

/-- Fields that all fit become the same if more nested pairs fit. -/
theorem fieldSteps_mono (h : ∀ s t, maps s t = true → maps' s t = true) {target source : ValueType}
    (hfits : targetMisfits (fieldSteps maps target source) = []) :
    fieldSteps maps' target source = fieldSteps maps target source := by
  refine List.map_congr_left fun f hf => ?_
  have hfield : fieldStep maps source f ≠ .misfit := by
    intro hmisfit
    have hmem : f.name ∈ targetMisfits (fieldSteps maps target source) := by
      simp only [targetMisfits, fieldSteps, List.mem_map, List.mem_filter, decide_eq_true_eq]
      exact ⟨_, ⟨⟨f, hf, rfl⟩, hmisfit⟩, rfl⟩
    rw [hfits] at hmem
    cases hmem
  rw [fieldStep_mono h hfield]

theorem planFields_relaxes (h : ∀ s t, maps s t = true → maps' s t = true)
    (target source : ValueType) :
    Relaxes (planFields maps true target source) (planFields maps' false target source) := by
  have hfewer := targetMisfits_sublist h target source
  simp only [planFields, if_true, Bool.false_eq_true, if_false, List.append_nil]
  split
  · next hnone =>
      -- nothing was in the way, so the fields become what they became
      obtain ⟨hfits, -⟩ := List.append_eq_nil_iff.1 hnone
      rw [fieldSteps_mono h hfits, hfits]
      exact .same _
  · split
    · exact .accepted _ _
    · exact .fewer (hfewer.trans (List.sublist_append_left _ _))

/-- **One level of planning**: if more nested pairs fit and not all of the source is to be used, the
answer is relaxed. -/
theorem planShapes_relaxes (h : ∀ s t, maps s t = true → maps' s t = true)
    (target source : Shape) :
    Relaxes (planShapes maps true target source) (planShapes maps' false target source) := by
  match target, source with
  | .value t, .value s => exact planFields_relaxes h t s
  | .enumeration t, .enumeration s => exact Relaxes.refl (planCases t s)
  | .contract _, _ | .value _, .contract _ | .value _, .enumeration _ | .enumeration _, .contract _
  | .enumeration _, .value _ => exact Relaxes.refl (.error [])

end Maps

/-! ### Plans at every depth -/

/-- Whether a nested pair is taken to fit depends on what is accepted below. -/
theorem mapsNested_mono {corpus : Corpus} {naming : Naming} {visiting : List String}
    {accepts accepts' : Declaration → Declaration → Bool}
    (h : ∀ t s, accepts t s = true → accepts' t s = true) {source target : String}
    (hmaps : mapsNested corpus naming visiting accepts source target = true) :
    mapsNested corpus naming visiting accepts' source target = true := by
  obtain ⟨q, hq, hpair⟩ := mapsNested_iff.1 hmaps
  exact mapsNested_iff.2 ⟨q, hq.imp id (h q.1 q.2), hpair⟩

/-- **The two plans of a pair**, below any targets that are being planned. -/
theorem planFrom_relaxes (corpus : Corpus) (settings : Settings) (room : Nat)
    (visiting : List String) (target source : Declaration) :
    Relaxes (planFrom corpus (settings.usingAll true) room visiting target source)
      (planFrom corpus (settings.usingAll false) room visiting target source) := by
  induction room generalizing visiting target source with
  | zero => exact Relaxes.refl (.error [])
  | succ room ih =>
      rw [planFrom, planFrom]
      refine planShapes_relaxes ?_ target.shape source.shape
      intro s t
      exact mapsNested_mono fun t s hok => (ih _ t s).isOk hok

theorem plan_relaxes (ctx : Context) (target source : Declaration) :
    Relaxes (plan (ctx.usingAll true).corpus (ctx.usingAll true).settings target source)
      (plan (ctx.usingAll false).corpus (ctx.usingAll false).settings target source) :=
  planFrom_relaxes ctx.corpus ctx.settings (ctx.corpus.size + 1) [] target source

/-! ### Generating -/

/-- **What goes through stays as it is** if less is asked for: the same pairs are pending, and they
have the same plans. -/
theorem generateFrom_usingAll {ctx : Context} {fuel : Nat} {done : List String}
    {pending : List (Declaration × Declaration)} {artifacts : List Artifact}
    (h : generateFrom (ctx.usingAll true) fuel done pending = .ok artifacts) :
    generateFrom (ctx.usingAll false) fuel done pending = .ok artifacts := by
  induction fuel generalizing done pending artifacts with
  | zero => exact h
  | succ fuel ih =>
      match pending, h with
      | [], h => exact h
      | (target, source) :: pending, h =>
          simp only [generateFrom] at h ⊢
          split
          · next hdone =>
              rw [if_pos hdone] at h
              exact ih h
          · next hnew =>
              rw [if_neg hnew] at h
              split at h
              · cases h
              · next p hp =>
                  rw [(plan_relaxes ctx target source).eq_ok hp]
                  split at h
                  · cases h
                  · next rest hrest =>
                      have hpairs : p.pairs (ctx.usingAll false) =
                          p.pairs (ctx.usingAll true) := rfl
                      simp only [hpairs, ih hrest]
                      exact h

/-- A mapping is generated from the pair of a declaration and its resolved transfer object. -/
theorem generate_eq (ctx : Context) (d : Declaration) :
    generate ctx d =
      match resolvedSource? ctx d with
      | none => .error [.unresolvable d.name .mapping .unresolvedCounterpart]
      | some source =>
        generateFrom ctx ((ctx.corpus.size + 2) * (ctx.corpus.size + 2)) [] [(d, source)] :=
  rfl

/-- The first pair is planned first: if it does not fit, this is the problem. -/
theorem generate_of_error {ctx : Context} {d source : Declaration} {misfits : List String}
    (hsource : resolvedSource? ctx d = some source)
    (hplan : plan ctx.corpus ctx.settings d source = .error misfits) :
    generate ctx d = .error [.incompatible d.name source.name misfits] := by
  have hfuel : (ctx.corpus.size + 2) * (ctx.corpus.size + 2) =
      (ctx.corpus.size + 2) * (ctx.corpus.size + 2) - 1 + 1 :=
    (Nat.sub_add_cancel (Nat.mul_pos (by omega) (by omega))).symm
  rw [generate_eq, hsource, hfuel]
  simp [generateFrom, hplan]

/-- The mapping of a declaration depends on its name and its shape. -/
theorem generate_of_shape_eq {ctx : Context} {d e : Declaration} (hname : d.name = e.name)
    (hshape : d.shape = e.shape) : generate ctx d = generate ctx e := by
  have hsource : resolvedSource? ctx d = resolvedSource? ctx e := by
    simp only [resolvedSource?, hname]
  have hplan : ∀ source, plan ctx.corpus ctx.settings d source =
      plan ctx.corpus ctx.settings e source := by
    intro source
    simp only [plan, planFrom, hname, hshape]
  cases hfrom : resolvedSource? ctx e with
  | none => rw [generate_eq, generate_eq, hsource, hfrom, hname]
  | some source =>
      obtain ⟨fuel, hfuel⟩ := Nat.exists_eq_succ_of_ne_zero
        (Nat.mul_ne_zero (Nat.succ_ne_zero (ctx.corpus.size + 1)) (Nat.succ_ne_zero _))
      rw [generate_eq, generate_eq, hsource, hfrom, hfuel]
      simp only [generateFrom, hname, hplan]

/-- What a declaration was resolved to is the transfer object of what is declared under its name. -/
theorem exists_isPair_of_resolvedSource? {settings : Settings} {provider : FixtureProvider}
    {corpus : Corpus} {d source : Declaration}
    (h : resolvedSource? (contextOf settings provider corpus) d = some source) :
    ∃ e r, corpus.get? d.name = some e ∧ IsPair corpus settings.naming (e, source) ∧
      (contextOf settings provider corpus).resolution? e.name = some r ∧
      r.counterpart = some source.name := by
  simp only [resolvedSource?, Option.bind_eq_bind, Option.bind_eq_some_iff] at h
  obtain ⟨r, hr, name, hcounterpart, hget⟩ := h
  have hdeclared : r.declaration = d.name := by simpa using List.find?_some hr
  obtain ⟨result, hresult, hresolve⟩ := List.mem_filterMap.1 (List.mem_of_find?_eq_some hr)
  obtain ⟨entry, hentry, rfl⟩ := List.mem_map.1 hresult
  obtain ⟨hname, -, hmapped⟩ := resolve_fst_eq_some hresolve
  obtain ⟨e, he⟩ : ∃ e, corpus.get? d.name = some e := by
    refine Option.isSome_iff_exists.1 (List.find?_isSome.2 ⟨entry.declaration, ?_, ?_⟩)
    · exact List.mem_map_of_mem hentry
    · simp [← hname, hdeclared]
  -- there is a counterpart only where a mapping is asked for
  have hmapping : Strategy.mapping ∈ r.strategies := by
    simp only [resolve] at hresolve
    split at hresolve
    · cases hresolve
    · cases hresolve
      by_contra hnot
      simp [hnot] at hcounterpart
  have hsource : corpus.counterpart? settings.naming d.name = some source := by
    rw [hmapped hmapping, ← hname, hdeclared] at hcounterpart
    obtain ⟨found, hfound, rfl⟩ := Option.map_eq_some_iff.1 hcounterpart
    obtain ⟨candidate, -, hcandidate⟩ := List.exists_of_findSome?_eq_some hfound
    have hself : corpus.get? found.name = some found := by
      rw [Corpus.name_of_get? hcandidate, hcandidate]
    rw [hfound, ← hself]
    exact hget
  have hedeclared := Corpus.name_of_get? he
  refine ⟨e, r, he, ⟨by rw [hedeclared, he], by rw [hedeclared, hsource]⟩, ?_, ?_⟩
  · rw [hedeclared, hr]
  · rw [hcounterpart, Corpus.name_of_get? hget]

/-- If generating fails for a declaration with its shape in the corpus, the pair of the declaration
itself does not fit. -/
theorem exists_plan_error {settings : Settings} {provider : FixtureProvider} {corpus : Corpus}
    {d source : Declaration}
    (hd : ∀ e, corpus.get? d.name = some e → e.shape = d.shape)
    (hsource : resolvedSource? (contextOf settings provider corpus) d = some source)
    {problems : List Problem}
    (h : generate (contextOf settings provider corpus) d = .error problems) :
    ∃ misfits, plan corpus settings d source = .error misfits ∧
      problems = [.incompatible d.name source.name misfits] := by
  cases hplan : plan corpus settings d source with
  | error misfits =>
      refine ⟨misfits, rfl, ?_⟩
      rw [generate_of_error hsource hplan] at h
      exact (Except.error.inj h).symm
  | ok p =>
      obtain ⟨e, r, he, hpair, hr, hcounterpart⟩ := exists_isPair_of_resolvedSource? hsource
      have hname := Corpus.name_of_get? he
      rw [generate_of_shape_eq hname.symm (hd e he).symm] at h
      have hok : plan corpus settings e source = .ok p := by
        rw [← hplan]
        simp only [plan, planFrom, hname, hd e he]
      let ctx := contextOf settings provider corpus
      have hctx : IsPair ctx.corpus ctx.settings.naming (e, source) := hpair
      rcases generate_of_isPair hctx hr hcounterpart with
        ⟨-, artifacts, hgenerate, -⟩ | ⟨hnot, -⟩
      · rw [hgenerate] at h
        cases h
      · exact absurd ⟨hpair, isOk_iff_exists.2 ⟨p, hok⟩⟩ hnot

/-- **Asking less of a mapping gives the same mappings and fewer misfits.**  What is generated if
all of the source is to be used is generated, too, if it is not.  If the latter fails because fields do
not fit, the former fails for the same pair, and the fields are among those of the former, in the
same order.  The declaration is any of the corpus, or one of which the corpus has nothing under the
name, or a declaration of the same shape. -/
theorem generate_usingAll (settings : Settings) (provider : FixtureProvider) (corpus : Corpus)
    (d : Declaration) :
    (∀ artifacts,
      generate (contextOf (settings.usingAll true) provider corpus) d = .ok artifacts →
        generate (contextOf (settings.usingAll false) provider corpus) d = .ok artifacts) ∧
    ((corpus.IsIndexed ∧ d ∈ corpus.declarations) ∨
      (∀ e, corpus.get? d.name = some e → e.shape = d.shape) → ∀ problems target source misfits,
      generate (contextOf (settings.usingAll false) provider corpus) d = .error problems →
      .incompatible target source misfits ∈ problems →
        ∃ more, generate (contextOf (settings.usingAll true) provider corpus) d =
            .error [.incompatible target source more] ∧ misfits.Sublist more) := by
  simp only [contextOf_usingAll]
  constructor
  · intro artifacts h
    rw [generate_eq] at h ⊢
    split at h
    · cases h
    · next source hsource =>
        have hsame : resolvedSource? ((contextOf settings provider corpus).usingAll false) d =
            some source := hsource
        rw [hsame]
        exact generateFrom_usingAll h
  · intro hd problems target source misfits h hmem
    cases hsource : resolvedSource? ((contextOf settings provider corpus).usingAll false) d with
    | none =>
        rw [generate_eq, hsource] at h
        cases h
        simp at hmem
    | some s =>
        have hd : ∀ e, corpus.get? d.name = some e → e.shape = d.shape := by
          rcases hd with ⟨hindexed, hmem⟩ | hd
          · exact fun e he => congrArg Declaration.shape (hindexed.eq_of_get?_name hmem he)
          · exact hd
        let lenient := settings.usingAll false
        have hlenient : generate (contextOf lenient provider corpus) d = .error problems := h
        obtain ⟨fewer, hplan, rfl⟩ := exists_plan_error hd hsource hlenient
        simp only [List.mem_singleton, Problem.incompatible.injEq] at hmem
        obtain ⟨rfl, rfl, rfl⟩ := hmem
        obtain ⟨more, hmore, hsublist⟩ :=
          (plan_relaxes (contextOf settings provider corpus) d s).exists_error hplan
        exact ⟨more, generate_of_error hsource hmore, hsublist⟩

/-- The corpus of an album and its cover, whose transfer objects have more fields.  The title of the
album has another type. -/
def albums : Corpus :=
  let struct := fun (name : String) (fields : List Field) (markers : List String) =>
    (⟨{ name, shape := .value { form := .struct, fields } }, markers⟩ : Entry)
  ⟨[struct "Album" [⟨"title", .primitive "String", none, false⟩,
      ⟨"cover", .named "Cover" [], none, false⟩] ["autoMappableFromDTO"],
    struct "Cover" [⟨"url", .primitive "URL", none, false⟩] [],
    struct "AlbumDTO" [⟨"title", .primitive "Int", none, false⟩,
      ⟨"cover", .named "CoverDTO" [], none, false⟩, ⟨"tracks", .primitive "Int", none, false⟩] [],
    struct "CoverDTO" [⟨"url", .primitive "URL", none, false⟩,
      ⟨"size", .primitive "Int", none, false⟩] []]⟩

/-- The title is in the way of the mapping of an album. -/
theorem generate_usingAll_album :
    ∃ album, albums.get? "Album" = some album ∧
      (∀ e, albums.get? album.name = some e → e.shape = album.shape) ∧
      generate (contextOf (({} : Settings).usingAll false) {} albums) album =
        .error [.incompatible "Album" "AlbumDTO" ["title"]] ∧
      ∃ more, generate (contextOf (({} : Settings).usingAll true) {} albums) album =
        .error [.incompatible "Album" "AlbumDTO" more] ∧ ["title"].Sublist more := by
  have hd : ∀ e, albums.get? "Album" = some e → e.shape = albums.entries[0].declaration.shape := by
    intro e he
    obtain rfl : _ = e := Option.some.inj he
    rfl
  have hlenient : generate (contextOf (({} : Settings).usingAll false) {} albums)
      albums.entries[0].declaration = .error [.incompatible "Album" "AlbumDTO" ["title"]] := by
    decide +kernel
  refine ⟨albums.entries[0].declaration, by decide, hd, hlenient, ?_⟩
  exact (generate_usingAll {} {} albums _).2 (.inr hd) _ _ _ _ hlenient (by simp)

/-- If all of the transfer object is to be used, the cover does not fit either, as its own transfer
object has a field too many. -/
example :
    generate (contextOf (({} : Settings).usingAll true) {} albums)
      albums.entries[0].declaration =
        .error [.incompatible "Album" "AlbumDTO" ["title", "cover", "tracks"]] := by
  decide +kernel

end Mapping

end Scaffold
