/-
**Mappings in corpora that look alike.**

The plan of a pair follows the types of its target's fields into other pairs, and generating a
mapping follows the plans into all pairs that they rely on.  Both look up mentioned names and their
transfer objects only, so in corpora that agree they find the same, in the same order.  The fuel of
generating is a bound on the pairs that are looked at: a target that is planned adds at most one pair
for each declaration, and it is planned once, so the fuel is never used up.

Main definitions:

* `Scaffold.Mapping.AlikePairs` — pairs of two corpora that are alike;
* `Scaffold.Mapping.HasFuel` — the fuel is enough for what is pending and for what it can add.

Main results:

* `Scaffold.Mapping.planFrom_congr` — alike pairs have the same plan;
* `Scaffold.Mapping.mem_mentionedNames_of_nested` — a plan relies on mentioned types only;
* `Scaffold.Mapping.generate_congr` — **the mappings of alike declarations are the same**, those
  they rely on included.
-/

import Mathlib.Data.List.Forall2
import Mathlib.Tactic.Ring
import Scaffold.Proofs.Agreement

set_option relaxedAutoImplicit false
set_option autoImplicit false

namespace Scaffold.Mapping

/-! ### Plans -/

section Maps

variable {maps maps' : String → String → Bool}

/-- A conversion depends on how the declared types that its target mentions are mapped. -/
theorem convert?_congr {target : TypeRef}
    (h : ∀ s, ∀ t ∈ target.mentions, maps s t = maps' s t) (expr : String) (source : TypeRef) :
    convert? maps expr source target = convert? maps' expr source target := by
  induction target using TypeRef.induction generalizing expr source with
  | optional t ih =>
      have ih := ih fun s u hu => h s u (by simpa [TypeRef.mentions] using hu)
      cases source <;> simp only [convert?, ih]
  | sequence t ih =>
      have ih := ih fun s u hu => h s u (by simpa [TypeRef.mentions] using hu)
      cases source <;> simp only [convert?, ih]
  | mapping k t _ ih =>
      have ih := ih fun s u hu => h s u (by simp [TypeRef.mentions, hu])
      cases source <;> simp only [convert?, ih]
  | named t args _ =>
      cases args with
      | nil =>
          have hmaps := fun s => h s t (by simp [TypeRef.mentions])
          simp only [convert?, hmaps]
      | cons a as => simp only [convert?]
  | primitive name => simp only [convert?]
  | function attributes params effects result _ _ => simp only [convert?]
  | existential constraint _ => simp only [convert?]

/-- A plan depends on how the declared types that the target's fields mention are mapped. -/
theorem planShapes_congr (strict : Bool) {target : Shape} (source : Shape)
    (h : ∀ v, target = .value v → ∀ f ∈ v.fields, ∀ s, ∀ t ∈ f.type.mentions,
      maps s t = maps' s t) :
    planShapes maps strict target source = planShapes maps' strict target source := by
  match target, source with
  | .value v, .value w =>
      have hsteps : fieldSteps maps v w = fieldSteps maps' v w := by
        refine List.map_congr_left fun f hf => ?_
        simp only [fieldStep, convert?_congr (h v rfl f hf)]
      simp only [planShapes, planFields, hsteps]
  | .enumeration _, .enumeration _ => rfl
  | .contract _, _ | .value _, .contract _ | .value _, .enumeration _ | .enumeration _, .contract _
  | .enumeration _, .value _ => rfl

/-- A plan relies on types that the fields of its target mention. -/
theorem exists_field_of_nested {strict : Bool} {target source : Shape} {p : Plan}
    (h : planShapes maps strict target source = .ok p) {name : String} (hname : name ∈ p.nested) :
    ∃ v, target = .value v ∧ ∃ f ∈ v.fields, name ∈ f.type.mentions := by
  classical
  -- nothing changes if only what is mentioned is mapped
  let mentioned := fun t => ∃ v, target = .value v ∧ ∃ f ∈ v.fields, t ∈ f.type.mentions
  have hsame : planShapes (fun s t => maps s t && decide (mentioned t)) strict target source =
      .ok p := by
    rw [← h]
    refine planShapes_congr strict source ?_
    intro v hv f hf s t ht
    have hmentioned : mentioned t := ⟨v, hv, f, hf, ht⟩
    simp [hmentioned]
  obtain ⟨s, hmaps⟩ := maps_of_planShapes hsame name hname
  rw [Bool.and_eq_true, decide_eq_true_iff] at hmaps
  exact hmaps.2

end Maps

/-- A plan relies on types that its target mentions. -/
theorem mem_mentionedNames_of_nested {corpus : Corpus} {settings : Settings}
    {target source : Declaration} {p : Plan} (h : plan corpus settings target source = .ok p)
    {name : String} (hname : name ∈ p.nested) : name ∈ target.mentionedNames := by
  rw [plan, planFrom] at h
  obtain ⟨v, hv, hfield⟩ := exists_field_of_nested h hname
  exact Declaration.mem_mentionedNames_of_value hv (Or.inr hfield)

/-- Whether a declared type is mapped from another below a pair is the same in both corpora, if the
pairs that are alike are accepted alike. -/
theorem mapsNested_congr {naming : Naming} {names : Set String} {c c' : Corpus}
    (h : c.Agrees naming names c') {visiting : List String}
    {accepts accepts' : Declaration → Declaration → Bool} (source : String) {target : String}
    (htarget : target ∈ names)
    (haccepts : ∀ t t' s s', Corpus.Twins names c c' t t' → t.name = target → s.Alike s' →
      target ∉ visiting → accepts t s = accepts' t' s') :
    mapsNested c naming visiting accepts source target =
      mapsNested c' naming visiting accepts' source target := by
  rw [mapsNested, mapsNested]
  rcases h.get?_cases htarget with ⟨ht, ht'⟩ | ⟨t, t', ht, ht', htwins⟩
  · rw [ht, ht']
  · obtain rfl := Corpus.name_of_get? ht
    simp only [ht, ht', ← htwins.alike.name]
    rcases h.counterpart?_cases htarget ht with ⟨hs, hs'⟩ | ⟨s, s', hs, hs', hsalike⟩
    · rw [hs, hs']
    · simp only [hs, hs', ← hsalike.name]
      by_cases hvisiting : t.name ∈ visiting
      · simp [hvisiting]
      · rw [haccepts t t' s s' htwins rfl hsalike hvisiting]

section Contexts

variable {names : Set String} {ctx ctx' : Context}

/-- **Alike pairs have the same plan**, or the same misfits. -/
theorem planFrom_congr (h : ctx.Agrees names ctx') {room room' : Nat} {visiting : List String}
    (hroom : ctx.corpus.HasRoom room visiting) (hroom' : ctx'.corpus.HasRoom room' visiting)
    {target target' source source' : Declaration}
    (htarget : Corpus.Twins names ctx.corpus ctx'.corpus target target')
    (hsource : source.Alike source') (hnew : target.name ∉ visiting) :
    planFrom ctx.corpus ctx.settings room visiting target source =
      planFrom ctx'.corpus ctx'.settings room' visiting target' source' := by
  induction room generalizing room' visiting target target' source source' with
  | zero => simpa using hroom.exists_eq_succ
  | succ room ih =>
      obtain ⟨room', rfl⟩ := hroom'.exists_eq_succ
      have hcons' : ctx'.corpus.HasRoom room' (target.name :: visiting) := by
        rw [htarget.alike.name] at hnew ⊢
        exact hroom'.cons htarget.right hnew
      simp only [planFrom, ← htarget.alike.name, ← htarget.alike.shape, ← hsource.shape, h.naming,
        h.strict]
      refine planShapes_congr _ _ ?_
      intro v hv f hf s t ht
      have hmem : t ∈ names := h.corpus.mem_of_mention htarget.mem htarget.left
        (Declaration.mem_mentionedNames_of_value hv (Or.inr ⟨f, hf, ht⟩))
      refine mapsNested_congr h.corpus s hmem ?_
      intro inner inner' s s' hinner hname hsalike hvisiting
      subst hname
      rw [ih (hroom.cons htarget.left hnew) hcons' hinner hsalike hvisiting]

/-! ### Pairs -/

/-- Pairs of two corpora whose targets are twins and whose transfer objects are alike. -/
structure AlikePairs (names : Set String) (ctx ctx' : Context) (q q' : Declaration × Declaration) :
    Prop where
  /-- The targets are twins. -/
  target : Corpus.Twins names ctx.corpus ctx'.corpus q.1 q'.1
  /-- The transfer objects are alike. -/
  source : q.2.Alike q'.2

/-- Two pairs are alike if their targets have one name. -/
theorem alikePairs_of_name (h : ctx.Agrees names ctx') {q q' : Declaration × Declaration}
    (hmem : q.1.name ∈ names) (hq : IsPair ctx.corpus ctx.settings.naming q)
    (hq' : IsPair ctx'.corpus ctx'.settings.naming q') (hname : q.1.name = q'.1.name) :
    AlikePairs names ctx ctx' q q' := by
  refine ⟨h.corpus.twins hmem hq.1 hq'.1 hname, ?_⟩
  have hsource' := hq'.2
  rw [h.naming, ← hname] at hsource'
  rcases h.corpus.counterpart?_cases hmem hq.1 with ⟨hs, -⟩ | ⟨s, s', hs, hs', halike⟩
  · rw [hq.2] at hs
    cases hs
  · rw [hq.2] at hs
    rw [hsource'] at hs'
    cases hs
    cases hs'
    exact halike

theorem AlikePairs.plan_eq (h : ctx.Agrees names ctx') {q q' : Declaration × Declaration}
    (hq : AlikePairs names ctx ctx' q q') :
    plan ctx.corpus ctx.settings q.1 q.2 = plan ctx'.corpus ctx'.settings q'.1 q'.2 :=
  planFrom_congr h ctx.corpus.hasRoom_nil ctx'.corpus.hasRoom_nil hq.target hq.source (by simp)

/-- The target of a name and its transfer object, if there are both. -/
def pair? (ctx : Context) (name : String) : Option (Declaration × Declaration) := do
  let target ← ctx.corpus.get? name
  let source ← ctx.corpus.counterpart? ctx.settings.naming target.name
  return (target, source)

theorem pairs_eq (p : Plan) (ctx : Context) :
    p.pairs ctx = (NameSet.ofList p.nested).toList.filterMap (pair? ctx) := rfl

theorem isPair_of_pair? {ctx : Context} {name : String} {q : Declaration × Declaration}
    (h : pair? ctx name = some q) :
    q.1.name = name ∧ IsPair ctx.corpus ctx.settings.naming q := by
  simp only [pair?, Option.bind_eq_bind, Option.bind_eq_some_iff, Option.pure_def,
    Option.some.injEq] at h
  obtain ⟨target, htarget, source, hsource, rfl⟩ := h
  have hname := Corpus.name_of_get? htarget
  exact ⟨hname, by rw [hname, htarget], hsource⟩

/-- Under a name of the set there is no pair in both contexts, or there are pairs that are alike. -/
theorem pair?_cases (h : ctx.Agrees names ctx') {name : String} (hname : name ∈ names) :
    (pair? ctx name = none ∧ pair? ctx' name = none) ∨
      ∃ q q', pair? ctx name = some q ∧ pair? ctx' name = some q' ∧
        AlikePairs names ctx ctx' q q' := by
  rcases h.corpus.get?_cases hname with ⟨ht, ht'⟩ | ⟨t, t', ht, ht', htwins⟩
  · exact Or.inl (by simp [pair?, ht, ht'])
  · obtain rfl := Corpus.name_of_get? ht
    rcases h.corpus.counterpart?_cases hname ht with ⟨hs, hs'⟩ | ⟨s, s', hs, hs', -⟩
    · exact Or.inl (by simp [pair?, ht, ht', h.naming, ← htwins.alike.name, hs, hs'])
    · have hq : pair? ctx t.name = some (t, s) := by simp [pair?, ht, hs]
      have hq' : pair? ctx' t.name = some (t', s') := by
        simp [pair?, ht', h.naming, ← htwins.alike.name, hs']
      refine Or.inr ⟨(t, s), (t', s'), hq, hq', ?_⟩
      exact alikePairs_of_name h hname (isPair_of_pair? hq).2 (isPair_of_pair? hq').2
        htwins.alike.name

/-- The pairs that a plan relies on are alike. -/
theorem alikePairs_pairs (h : ctx.Agrees names ctx') {p : Plan}
    (hnested : ∀ name ∈ p.nested, name ∈ names) :
    List.Forall₂ (AlikePairs names ctx ctx') (p.pairs ctx) (p.pairs ctx') := by
  have hnested : ∀ name ∈ (NameSet.ofList p.nested).toList, name ∈ names := by
    simpa using hnested
  rw [pairs_eq, pairs_eq]
  generalize (NameSet.ofList p.nested).toList = nested at hnested ⊢
  induction nested with
  | nil => exact .nil
  | cons name rest ih =>
      have hrest := ih fun n hn => hnested n (List.mem_cons_of_mem _ hn)
      rw [List.filterMap_cons, List.filterMap_cons]
      rcases pair?_cases h (hnested name (by simp)) with ⟨hq, hq'⟩ | ⟨q, q', hq, hq', halike⟩
      · rw [hq, hq']
        exact hrest
      · rw [hq, hq']
        exact .cons halike hrest

/-- A plan relies on no more pairs than there are declarations. -/
theorem length_pairs_le (p : Plan) (ctx : Context) : (p.pairs ctx).length ≤ ctx.corpus.size := by
  -- each pair comes from another name, which is that of its target
  have hsublist : ∀ nested : List String,
      ((nested.filterMap (pair? ctx)).map fun q => q.1.name).Sublist nested := by
    intro nested
    induction nested with
    | nil => exact .slnil
    | cons name rest ih =>
        rw [List.filterMap_cons]
        split
        · exact ih.cons name
        · next q hq =>
            rw [List.map_cons, (isPair_of_pair? hq).1]
            exact ih.cons_cons name
  have hnodup : (NameSet.ofList p.nested).toList.Nodup := by
    refine List.Pairwise.imp ?_ (NameSet.ofList p.nested).sorted
    intro a b hlt heq
    exact String.lt_irrefl b (heq ▸ hlt)
  have hdeclared : ∀ name ∈ (p.pairs ctx).map fun q => q.1.name,
      ctx.corpus.contains name = true := by
    intro name hname
    obtain ⟨q, hq, rfl⟩ := List.mem_map.1 hname
    obtain ⟨name, -, hq⟩ := List.mem_filterMap.1 hq
    simp [Corpus.contains, (isPair_of_pair? hq).2.1]
  rw [pairs_eq] at hdeclared ⊢
  rw [← List.length_map (f := fun q : Declaration × Declaration => q.1.name)]
  exact length_le_size (hnodup.sublist (hsublist _)) hdeclared

/-! ### Generating -/

/-- The fuel is enough: every target that is not planned yet may add as many pairs as there are
declarations, and every pair is looked at once. -/
structure HasFuel (corpus : Corpus) (fuel : Nat) (done : List String) (pending : Nat) : Prop where
  /-- No target was planned twice. -/
  nodup : done.Nodup
  /-- The targets are declared. -/
  declared : ∀ name ∈ done, corpus.contains name = true
  /-- What is pending and what can be added is no more than the fuel. -/
  le : (corpus.size - done.length) * (corpus.size + 1) + pending ≤ fuel

theorem hasFuel_singleton (corpus : Corpus) :
    HasFuel corpus ((corpus.size + 2) * (corpus.size + 2)) [] 1 where
  nodup := List.nodup_nil
  declared := by simp
  le := by
    have : (corpus.size + 2) * (corpus.size + 2) =
        corpus.size * (corpus.size + 1) + 3 * corpus.size + 4 := by ring
    simp only [List.length_nil, Nat.sub_zero]
    omega

/-- A pair whose target was planned takes up one unit of fuel. -/
theorem HasFuel.skip {corpus : Corpus} {fuel : Nat} {done : List String} {pending : Nat}
    (h : HasFuel corpus (fuel + 1) done (pending + 1)) : HasFuel corpus fuel done pending where
  nodup := h.nodup
  declared := h.declared
  le := by
    have := h.le
    omega

/-- A target that is planned makes up for the pairs that it adds. -/
theorem HasFuel.plan {corpus : Corpus} {fuel : Nat} {done : List String} {pending added : Nat}
    (h : HasFuel corpus (fuel + 1) done (pending + 1)) {name : String} (hnew : name ∉ done)
    (hname : corpus.contains name = true) (hadded : added ≤ corpus.size) :
    HasFuel corpus fuel (name :: done) (added + pending) := by
  have hnodup : (name :: done).Nodup := List.nodup_cons.2 ⟨hnew, h.nodup⟩
  have hdeclared : ∀ n ∈ name :: done, corpus.contains n = true := by
    intro n hn
    rcases List.mem_cons.1 hn with rfl | hn
    · exact hname
    · exact h.declared n hn
  refine ⟨hnodup, hdeclared, ?_⟩
  have hlength := length_le_size hnodup hdeclared
  have hle := h.le
  simp only [List.length_cons] at hlength ⊢
  have hleft : corpus.size - done.length = corpus.size - (done.length + 1) + 1 := by omega
  rw [hleft, Nat.add_mul] at hle
  omega

theorem generateFrom_nil (ctx : Context) (fuel : Nat) (done : List String) :
    generateFrom ctx fuel done [] = .ok [] := by
  cases fuel <;> rfl

/-- **The mappings of alike pairs are the same**, those they rely on included. -/
theorem generateFrom_congr (h : ctx.Agrees names ctx') {fuel fuel' : Nat} {done : List String}
    {pending pending' : List (Declaration × Declaration)}
    (hpending : List.Forall₂ (AlikePairs names ctx ctx') pending pending')
    (hfuel : HasFuel ctx.corpus fuel done pending.length)
    (hfuel' : HasFuel ctx'.corpus fuel' done pending'.length) :
    generateFrom ctx fuel done pending = generateFrom ctx' fuel' done pending' := by
  induction fuel generalizing fuel' done pending pending' with
  | zero =>
      cases hpending with
      | nil => rw [generateFrom_nil, generateFrom_nil]
      | cons => simpa using hfuel.le
  | succ fuel ih =>
      cases hpending with
      | nil => rw [generateFrom_nil, generateFrom_nil]
      | @cons q q' pending pending' hq hpending =>
          cases fuel' with
          | zero => simpa using hfuel'.le
          | succ fuel' =>
              obtain ⟨target, source⟩ := q
              obtain ⟨target', source'⟩ := q'
              have hplan := hq.plan_eq h
              have htarget : target.name = target'.name := hq.target.alike.name
              have hsource : source.name = source'.name := hq.source.name
              simp only at hplan
              simp only [generateFrom, ← htarget, ← hsource, ← hplan]
              split
              · exact ih hpending hfuel.skip hfuel'.skip
              · next hnew =>
                  have hnew : target.name ∉ done := by simpa using hnew
                  split
                  · rfl
                  · next p hp =>
                      -- the pairs of the plan come first, and they are alike too
                      have hpairs := alikePairs_pairs h fun name hname =>
                        h.corpus.mem_of_mention hq.target.mem hq.target.left
                          (mem_mentionedNames_of_nested hp hname)
                      have hnext := hfuel.plan hnew (by simp [Corpus.contains, hq.target.left])
                        (length_pairs_le p ctx)
                      have hnext' := hfuel'.plan hnew
                        (by simp [Corpus.contains, htarget, hq.target.right]) (length_pairs_le p ctx')
                      rw [← List.length_append] at hnext hnext'
                      rw [ih (List.rel_append hpairs hpending) hnext hnext']

/-- What is generated for a declaration starts from the pair of it and its transfer object. -/
theorem generate_eq_generateFrom {ctx : Context} {d source : Declaration} {r : Resolution}
    (hpair : IsPair ctx.corpus ctx.settings.naming (d, source))
    (hr : ctx.resolution? d.name = some r) (hsource : r.counterpart = some source.name) :
    generate ctx d =
      generateFrom ctx ((ctx.corpus.size + 2) * (ctx.corpus.size + 2)) [] [(d, source)] := by
  simp [generate, hr, hsource, hpair.get?_source]

/-- **The mappings of alike declarations are the same**, and so is the pair that does not fit. -/
theorem generate_congr (h : ctx.Agrees names ctx') {d d' source source' : Declaration}
    {r r' : Resolution} (hname : d.name ∈ names)
    (hpair : IsPair ctx.corpus ctx.settings.naming (d, source))
    (hpair' : IsPair ctx'.corpus ctx'.settings.naming (d', source'))
    (hr : ctx.resolution? d.name = some r) (hsource : r.counterpart = some source.name)
    (hr' : ctx'.resolution? d'.name = some r') (hsource' : r'.counterpart = some source'.name)
    (heq : d.name = d'.name) : generate ctx d = generate ctx' d' := by
  rw [generate_eq_generateFrom hpair hr hsource, generate_eq_generateFrom hpair' hr' hsource']
  exact generateFrom_congr h (.cons (alikePairs_of_name h hname hpair hpair' heq) .nil)
    (hasFuel_singleton _) (hasFuel_singleton _)

end Contexts

end Scaffold.Mapping
