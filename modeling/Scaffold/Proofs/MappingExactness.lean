/-
**Which pairs are mapped.**

A target can be mapped from its transfer object if their fields or cases fit, where the fit of a
field may rest on that of another pair, round in circles too.  So the pairs that can be mapped are
the greatest set in which every pair rests on pairs of the set.  The planner explores the pairs
below one of them depth first and takes those that are being planned to fit.  That is exact: what
it accepts under assumptions is supported by a set of pairs and these assumptions, and such a set
carries it through, since the targets on the way are all different.

Main definitions:

* `Scaffold.Mapping.IsPair` — a declared target and its transfer object;
* `Scaffold.Mapping.Compatible`, `Scaffold.Mapping.ShapesFit` — how types and declarations fit;
* `Scaffold.Mapping.Fits` — a pair fits on the strength of a set of pairs;
* `Scaffold.Mapping.Supported` — a set whose pairs fit on the strength of the set and assumptions.

Main results:

* `Scaffold.Mapping.planFrom_isOk_iff` — one level of planning;
* `Scaffold.Mapping.exists_supported`, `Scaffold.Mapping.planFrom_isOk_of_supported` — planning under
  assumptions is sound and complete;
* `Scaffold.Mapping.pairs_subset_planned`, `Scaffold.Mapping.generate_of_isPair` — the pairs below a
  planned one are planned, so generating fails at the first pair or not at all;
* `Scaffold.Mapping.plan_isOk_iff_mem_greatest` — **the pairs with a plan are the greatest set**.
-/

import Mathlib.Data.Set.Basic
import Mathlib.Order.Bounds.Defs
import Scaffold.Mapping

set_option relaxedAutoImplicit false
set_option autoImplicit false

namespace Scaffold

/-! ### Results and failures -/

@[simp] theorem isOk_ok {ε α : Type} (a : α) : (Except.ok a : Except ε α).isOk = true := rfl

@[simp] theorem isOk_error {ε α : Type} (e : ε) : (Except.error e : Except ε α).isOk = false := rfl

theorem isOk_iff_exists {ε α : Type} {x : Except ε α} : x.isOk = true ↔ ∃ a, x = .ok a := by
  cases x <;> simp

theorem eq_ok_of_toOption {ε α : Type} {x : Except ε α} {a : α} (h : x.toOption = some a) :
    x = .ok a := by
  cases x with
  | error e => cases h
  | ok b => exact congrArg _ (Option.some.inj h)

namespace Mapping

/-! ### How a pair fits -/

/-- A declared target and its transfer object. -/
def IsPair (corpus : Corpus) (naming : Naming) (p : Declaration × Declaration) : Prop :=
  corpus.get? p.1.name = some p.1 ∧ corpus.counterpart? naming p.1.name = some p.2

/-- How a type can be converted to another, given which declared types are mapped from which. -/
inductive Compatible (maps : String → String → Prop) : TypeRef → TypeRef → Prop
  /-- The types are the same. -/
  | same (t : TypeRef) : Compatible maps t t
  /-- Both are optional. -/
  | optional {s t : TypeRef} : Compatible maps s t → Compatible maps (.optional s) (.optional t)
  /-- A value stands where an optional one is wanted. -/
  | wrapped {s t : TypeRef} : (∀ u, s ≠ .optional u) → Compatible maps s t →
      Compatible maps s (.optional t)
  /-- Both are sequences. -/
  | sequence {s t : TypeRef} : Compatible maps s t → Compatible maps (.sequence s) (.sequence t)
  /-- Both are mappings with one type of keys. -/
  | mapping {k s t : TypeRef} : Compatible maps s t → Compatible maps (.mapping k s) (.mapping k t)
  /-- Both are declared, and one is mapped from the other. -/
  | named {s t : String} : maps s t → Compatible maps (.named s []) (.named t [])

/-- How the fields of a value type fit those of its transfer object. -/
structure FieldsFit (maps : String → String → Prop) (strict : Bool) (target source : ValueType) :
    Prop where
  /-- A field without a default has a source. -/
  present : ∀ f ∈ target.fields, f.default = none → (source.field? f.name).isSome = true
  /-- A field that can be assigned has a compatible source, if it has one. -/
  compatible : ∀ f ∈ target.fields, ¬(f.isMutable = false ∧ f.default.isSome = true) →
    ∀ s, source.field? f.name = some s → Compatible maps s.type f.type
  /-- If all of the source is to be used, every field of it has a target. -/
  covered : strict = true → ∀ s ∈ source.fields, (target.field? s.name).isSome = true

/-- How the cases of an enumeration fit those of its transfer object. -/
structure CasesFit (target source : Enumeration) : Prop where
  /-- No case of the target carries values. -/
  targetPlain : target.hasAssociatedValues = false
  /-- No case of the source carries values. -/
  sourcePlain : source.hasAssociatedValues = false
  /-- Every case of the source is one of the target. -/
  covered : ∀ c ∈ source.cases, c ∈ target.cases

/-- How the shapes of a pair fit. -/
def ShapesFit (maps : String → String → Prop) (strict : Bool) : Shape → Shape → Prop
  | .value t, .value s => FieldsFit maps strict t s
  | .enumeration t, .enumeration s => CasesFit t s
  | _, _ => False

/-- Whether a set of pairs maps the declared type of one name from that of another. -/
def MapsBy (corpus : Corpus) (naming : Naming) (pairs : Set (Declaration × Declaration))
    (source target : String) : Prop :=
  ∃ p ∈ pairs, IsPair corpus naming p ∧ p.1.name = target ∧ p.2.name = source

/-- A pair fits on the strength of a set of pairs. -/
def Fits (corpus : Corpus) (settings : Settings) (pairs : Set (Declaration × Declaration))
    (p : Declaration × Declaration) : Prop :=
  ShapesFit (MapsBy corpus settings.naming pairs) settings.strictSourceFields p.1.shape p.2.shape

/-! ### More pairs never hurt -/

theorem Compatible.mono {maps maps' : String → String → Prop} (h : ∀ s t, maps s t → maps' s t)
    {s t : TypeRef} (hst : Compatible maps s t) : Compatible maps' s t := by
  induction hst with
  | same t => exact .same t
  | optional _ ih => exact .optional ih
  | wrapped hs _ ih => exact .wrapped hs ih
  | sequence _ ih => exact .sequence ih
  | mapping _ ih => exact .mapping ih
  | named hmaps => exact .named (h _ _ hmaps)

theorem ShapesFit.mono {maps maps' : String → String → Prop} (h : ∀ s t, maps s t → maps' s t)
    {strict : Bool} {target source : Shape} (hfit : ShapesFit maps strict target source) :
    ShapesFit maps' strict target source := by
  match target, source, hfit with
  | .value t, .value s, hfit =>
      exact ⟨hfit.present, fun f hf hassigned g hg => (hfit.compatible f hf hassigned g hg).mono h,
        hfit.covered⟩
  | .enumeration t, .enumeration s, hfit => exact hfit

theorem Fits.mono {corpus : Corpus} {settings : Settings}
    {pairs pairs' : Set (Declaration × Declaration)} {p : Declaration × Declaration}
    (h : ∀ q ∈ pairs, IsPair corpus settings.naming q → q ∈ pairs')
    (hp : Fits corpus settings pairs p) : Fits corpus settings pairs' p := by
  refine ShapesFit.mono ?_ hp
  rintro s t ⟨q, hq, hpair, htarget, hsource⟩
  exact ⟨q, h q hq hpair, hpair, htarget, hsource⟩

/-! ### One level of planning -/

theorem convert?_self (maps : String → String → Bool) (expr : String) (t : TypeRef) :
    convert? maps expr t t = some (expr, []) := by
  match t with
  | .optional _ | .sequence _ | .mapping _ _ | .named _ [] | .named _ (_ :: _) | .primitive _
  | .function .. | .existential _ => simp [convert?]

section Inversion

variable {maps : String → String → Prop} {s t : TypeRef}

theorem compatible_optional_iff :
    Compatible maps (.optional s) (.optional t) ↔ Compatible maps s t := by
  constructor
  · intro h
    cases h with
    | same => exact .same s
    | optional h => exact h
    | wrapped hs => exact absurd rfl (hs s)
  · exact .optional

theorem compatible_wrapped_iff (hs : ∀ u, s ≠ .optional u) :
    Compatible maps s (.optional t) ↔ Compatible maps s t := by
  constructor
  · intro h
    cases h with
    | same => exact absurd rfl (hs t)
    | optional => exact absurd rfl (hs _)
    | wrapped _ h => exact h
  · exact .wrapped hs

theorem compatible_sequence_iff :
    Compatible maps (.sequence s) (.sequence t) ↔ Compatible maps s t := by
  constructor
  · intro h
    cases h with
    | same => exact .same s
    | sequence h => exact h
  · exact .sequence

theorem compatible_mapping_iff {j k : TypeRef} :
    Compatible maps (.mapping j s) (.mapping k t) ↔ j = k ∧ Compatible maps s t := by
  constructor
  · intro h
    cases h with
    | same => exact ⟨rfl, .same s⟩
    | mapping h => exact ⟨rfl, h⟩
  · rintro ⟨rfl, h⟩
    exact .mapping h

end Inversion

/-- A type is converted to itself, so that only different types need a look. -/
theorem convert?_isSome_iff_of_ne {maps : String → String → Bool} {expr : String}
    {source target : TypeRef}
    (h : source ≠ target → ((convert? maps expr source target).isSome = true ↔
      Compatible (fun s t => maps s t = true) source target)) :
    (convert? maps expr source target).isSome = true ↔
      Compatible (fun s t => maps s t = true) source target := by
  by_cases heq : source = target
  · subst heq
    simpa [convert?_self] using Compatible.same _
  · exact h heq

/-- A conversion exists exactly between compatible types. -/
theorem convert?_isSome_iff {maps : String → String → Bool} {target : TypeRef} :
    ∀ expr source, (convert? maps expr source target).isSome = true ↔
      Compatible (fun s t => maps s t = true) source target := by
  induction target using TypeRef.induction with
  | optional t ih =>
      refine fun expr source => convert?_isSome_iff_of_ne fun hne => ?_
      -- the type inside is wanted, of what is inside the source or of the source itself
      cases source with
      | optional s =>
          simp only [convert?, if_neg hne]
          rw [Option.isSome_map, ih, compatible_optional_iff]
      | _ =>
          simp only [convert?, if_neg hne]
          exact (ih expr _).trans (compatible_wrapped_iff (by simp)).symm
  | sequence t ih =>
      refine fun expr source => convert?_isSome_iff_of_ne fun hne => ?_
      cases source with
      | sequence s =>
          simp only [convert?, if_neg hne]
          rw [Option.isSome_map, ih, compatible_sequence_iff]
      | _ =>
          simp only [convert?, if_neg hne]
          exact iff_of_false (by simp) (by rintro ⟨⟩)
  | mapping k t ihk ih =>
      refine fun expr source => convert?_isSome_iff_of_ne fun hne => ?_
      cases source with
      | mapping j s =>
          simp only [convert?, if_neg hne]
          rw [compatible_mapping_iff, ← ih "$0" s]
          by_cases hkey : j = k <;> simp [hkey]
      | _ =>
          simp only [convert?, if_neg hne]
          exact iff_of_false (by simp) (by rintro ⟨⟩)
  | named t args ih =>
      refine fun expr source => convert?_isSome_iff_of_ne fun hne => ?_
      match args, source with
      | [], .named s [] =>
          simp only [convert?, if_neg hne]
          by_cases hmaps : maps s t = true
          · simpa [hmaps] using Compatible.named hmaps
          · refine iff_of_false (by simp [hmaps]) ?_
            rintro (_ | _ | _ | _ | _ | hnamed)
            · exact hne rfl
            · exact hmaps hnamed
      | [], .named s (_ :: _) | [], .primitive _ | [], .optional _ | [], .sequence _
      | [], .mapping _ _ | [], .function .. | [], .existential _ =>
          simp only [convert?, if_neg hne]
          exact iff_of_false (by simp) (by rintro ⟨⟩)
      | _ :: _, _ =>
          refine iff_of_false (by simp [convert?, hne]) ?_
          rintro ⟨⟩
          exact hne rfl
  | primitive name =>
      refine fun expr source => convert?_isSome_iff_of_ne fun hne => ?_
      refine iff_of_false (by simp [convert?, hne]) ?_
      rintro ⟨⟩
      exact hne rfl
  | function attributes params effects result ihp ihr =>
      refine fun expr source => convert?_isSome_iff_of_ne fun hne => ?_
      refine iff_of_false (by simp [convert?, hne]) ?_
      rintro ⟨⟩
      exact hne rfl
  | existential constraint ih =>
      refine fun expr source => convert?_isSome_iff_of_ne fun hne => ?_
      refine iff_of_false (by simp [convert?, hne]) ?_
      rintro ⟨⟩
      exact hne rfl

/-- A field becomes no misfit exactly if it has a source where it needs one, and a compatible one
where it is assigned. -/
theorem fieldStep_ne_misfit_iff {maps : String → String → Bool} {source : ValueType} {f : Field} :
    fieldStep maps source f ≠ .misfit ↔
      (f.default = none → (source.field? f.name).isSome = true) ∧
        (¬(f.isMutable = false ∧ f.default.isSome = true) → ∀ s, source.field? f.name = some s →
          Compatible (fun s t => maps s t = true) s.type f.type) := by
  by_cases hkept : f.isMutable = false ∧ f.default.isSome = true
  · obtain ⟨hmutable, hdefault⟩ := hkept
    have hsome : f.default ≠ none := Option.isSome_iff_ne_none.1 hdefault
    simp [fieldStep, hmutable, hdefault, hsome]
  · have hassigned : (!f.isMutable && f.default.isSome) = false := by
      rw [← Bool.not_eq_true]
      simpa using hkept
    simp only [fieldStep, hassigned, Bool.false_eq_true, if_false]
    cases hs : source.field? f.name with
    | none => cases f.default <;> simp
    | some s =>
        simp only [Option.isSome_some, implies_true, true_and, Option.some.injEq, forall_eq',
          hkept, not_false_eq_true, forall_const]
        rw [← convert?_isSome_iff ("dto." ++ f.name) s.type]
        cases convert? maps ("dto." ++ f.name) s.type f.type <;> simp

theorem planFields_isOk_iff {maps : String → String → Bool} {strict : Bool}
    {target source : ValueType} :
    (planFields maps strict target source).isOk = true ↔
      FieldsFit (fun s t => maps s t = true) strict target source := by
  have htarget : targetMisfits (fieldSteps maps target source) = [] ↔
      ∀ f ∈ target.fields, fieldStep maps source f ≠ .misfit := by
    simp [targetMisfits, fieldSteps, List.filter_eq_nil_iff]
  have hsource : (if strict then sourceMisfits target source else []) = [] ↔
      (strict = true → ∀ s ∈ source.fields, (target.field? s.name).isSome = true) := by
    cases strict <;> simp [sourceMisfits, List.filter_eq_nil_iff, Option.isSome_iff_ne_none]
  have hok : (planFields maps strict target source).isOk = true ↔
      targetMisfits (fieldSteps maps target source) ++
        (if strict then sourceMisfits target source else []) = [] := by
    simp only [planFields]
    split
    · next h => exact iff_of_true rfl h
    · next h => exact iff_of_false (by simp) h
  rw [hok, List.append_eq_nil_iff, htarget, hsource]
  constructor
  · rintro ⟨hfields, hcovered⟩
    exact ⟨fun f hf => (fieldStep_ne_misfit_iff.1 (hfields f hf)).1,
      fun f hf => (fieldStep_ne_misfit_iff.1 (hfields f hf)).2, hcovered⟩
  · rintro ⟨hpresent, hcompatible, hcovered⟩
    exact ⟨fun f hf => fieldStep_ne_misfit_iff.2 ⟨hpresent f hf, hcompatible f hf⟩, hcovered⟩

theorem planCases_isOk_iff {target source : Enumeration} :
    (planCases target source).isOk = true ↔ CasesFit target source := by
  simp only [planCases]
  split
  · next hvalues =>
      refine iff_of_false (by simp) ?_
      rintro ⟨htarget, hsource, -⟩
      simp [htarget, hsource] at hvalues
  · next hvalues =>
      simp only [Bool.or_eq_true, not_or, Bool.not_eq_true] at hvalues
      split
      · next hnone =>
          refine iff_of_true (by simp) ⟨hvalues.1, hvalues.2, ?_⟩
          simpa [List.filter_eq_nil_iff] using hnone
      · next hsome =>
          refine iff_of_false (by simp) ?_
          rintro ⟨-, -, hcovered⟩
          exact hsome (by simpa [List.filter_eq_nil_iff] using hcovered)

theorem planShapes_isOk_iff {maps : String → String → Bool} {strict : Bool}
    {target source : Shape} :
    (planShapes maps strict target source).isOk = true ↔
      ShapesFit (fun s t => maps s t = true) strict target source := by
  match target, source with
  | .value t, .value s => exact planFields_isOk_iff
  | .enumeration t, .enumeration s => exact planCases_isOk_iff
  | .contract _, _ | .value _, .contract _ | .value _, .enumeration _ | .enumeration _, .contract _
  | .enumeration _, .value _ =>
      exact iff_of_false (by simp [planShapes]) (by simp [ShapesFit])

/-- What the planner asks of two names is whether their pair is in a set. -/
theorem mapsNested_iff {corpus : Corpus} {naming : Naming} {visiting : List String}
    {accepts : Declaration → Declaration → Bool} {s t : String} :
    mapsNested corpus naming visiting accepts s t = true ↔
      MapsBy corpus naming {q | q.1.name ∈ visiting ∨ accepts q.1 q.2 = true} s t := by
  constructor
  · intro h
    simp only [mapsNested] at h
    split at h
    · exact absurd h (by decide)
    · next inner hinner =>
        have hname := Corpus.name_of_get? hinner
        split at h
        · exact absurd h (by decide)
        · next counterpart hcounterpart =>
            simp only [Bool.and_eq_true, beq_iff_eq, Bool.or_eq_true, List.contains_iff_mem] at h
            refine ⟨(inner, counterpart), ?_, ⟨by rw [hname, hinner], hcounterpart⟩, hname, h.1⟩
            exact h.2.imp (fun hmem => hname ▸ hmem) id
  · rintro ⟨⟨inner, counterpart⟩, hmem, ⟨hinner, hcounterpart⟩, rfl, rfl⟩
    simp only [mapsNested, hinner, hcounterpart, BEq.rfl, Bool.true_and, Bool.or_eq_true,
      List.contains_iff_mem]
    exact hmem

/-- **One level of planning**: a pair is accepted exactly if it fits on the strength of the pairs
that are being planned or are accepted below it. -/
theorem planFrom_isOk_iff {corpus : Corpus} {settings : Settings} {room : Nat}
    {visiting : List String} {p : Declaration × Declaration} :
    (planFrom corpus settings (room + 1) visiting p.1 p.2).isOk = true ↔
      Fits corpus settings
        {q | q.1.name ∈ p.1.name :: visiting ∨
          (planFrom corpus settings room (p.1.name :: visiting) q.1 q.2).isOk = true} p := by
  rw [planFrom, planShapes_isOk_iff, Fits]
  constructor
  · intro h
    exact h.mono fun s t hmaps => mapsNested_iff.1 hmaps
  · intro h
    exact h.mono fun s t hmaps => mapsNested_iff.2 hmaps

/-! ### Planning under assumptions -/

/-- A set of pairs each of which fits on the strength of the set and of pairs whose targets are
being planned. -/
def Supported (corpus : Corpus) (settings : Settings) (visiting : List String)
    (pairs : Set (Declaration × Declaration)) : Prop :=
  ∀ p ∈ pairs, IsPair corpus settings.naming p ∧
    Fits corpus settings (pairs ∪ {q | q.1.name ∈ visiting}) p

variable {corpus : Corpus} {settings : Settings}

/-- There is one pair of each target. -/
theorem IsPair.eq {naming : Naming} {p q : Declaration × Declaration} (hp : IsPair corpus naming p)
    (hq : IsPair corpus naming q) (h : p.1.name = q.1.name) : p = q := by
  have htarget : p.1 = q.1 := Option.some.inj (by rw [← hp.1, ← hq.1, h])
  have hsource : p.2 = q.2 := Option.some.inj (by rw [← hp.2, ← hq.2, h])
  exact Prod.ext htarget hsource

/-- **Planning under assumptions is sound**: an accepted pair belongs to a set that is supported
under the same assumptions. -/
theorem exists_supported {room : Nat} {visiting : List String} {p : Declaration × Declaration}
    (hp : IsPair corpus settings.naming p)
    (h : (planFrom corpus settings room visiting p.1 p.2).isOk = true) :
    ∃ pairs, p ∈ pairs ∧ Supported corpus settings visiting pairs := by
  induction room generalizing visiting p with
  | zero => exact absurd h (by simp [planFrom])
  | succ room ih =>
      -- the pair itself, and all that is supported once the pair is assumed
      let below : Set (Declaration × Declaration) :=
        {q | ∃ pairs, q ∈ pairs ∧ Supported corpus settings (p.1.name :: visiting) pairs}
      have hassumed : ∀ q, IsPair corpus settings.naming q → q.1.name ∈ p.1.name :: visiting →
          q ∈ insert p below ∪ {q | q.1.name ∈ visiting} := by
        intro q hq hmem
        rcases List.mem_cons.1 hmem with hname | hmem
        · exact Or.inl (Or.inl (hq.eq hp hname))
        · exact Or.inr hmem
      refine ⟨insert p below, Or.inl rfl, ?_⟩
      rintro q (rfl | ⟨pairs, hq, hpairs⟩)
      · refine ⟨hp, (planFrom_isOk_iff.1 h).mono ?_⟩
        rintro q (hmem | hok) hpair
        · exact hassumed q hpair hmem
        · exact Or.inl (Or.inr (ih hpair hok))
      · refine ⟨(hpairs q hq).1, (hpairs q hq).2.mono ?_⟩
        rintro r (hr | hmem) hpair
        · exact Or.inl (Or.inr ⟨pairs, hr, hpairs⟩)
        · exact hassumed r hpair hmem

/-- Different names of declarations are no more than the declarations. -/
theorem length_le_size {names : List String} (hnodup : names.Nodup)
    (hdeclared : ∀ name ∈ names, corpus.contains name = true) : names.length ≤ corpus.size := by
  have hsubset : names ⊆ corpus.declarations.map Declaration.name := by
    intro name hname
    obtain ⟨d, hd⟩ := Option.isSome_iff_exists.1 (hdeclared name hname)
    rw [List.mem_map]
    exact ⟨d, List.mem_of_find?_eq_some hd, Corpus.name_of_get? hd⟩
  have := hnodup.length_le_of_subset hsubset
  simpa [Corpus.declarations, Corpus.size] using this

/-- **Planning under assumptions is complete**: the pairs of a supported set are accepted, as the
targets being planned have different names and leave room for all the others. -/
theorem planFrom_isOk_of_supported {room : Nat} {visiting : List String}
    {pairs : Set (Declaration × Declaration)} (h : Supported corpus settings visiting pairs)
    (hnodup : visiting.Nodup) (hdeclared : ∀ name ∈ visiting, corpus.contains name = true)
    (hroom : corpus.size < visiting.length + room) {p : Declaration × Declaration} (hp : p ∈ pairs)
    (hnew : p.1.name ∉ visiting) :
    (planFrom corpus settings room visiting p.1 p.2).isOk = true := by
  induction room generalizing visiting p with
  | zero =>
      have := length_le_size hnodup hdeclared
      omega
  | succ room ih =>
      obtain ⟨hpair, hfits⟩ := h p hp
      have hnodup' : (p.1.name :: visiting).Nodup := List.nodup_cons.2 ⟨hnew, hnodup⟩
      have hdeclared' : ∀ name ∈ p.1.name :: visiting, corpus.contains name = true := by
        intro name hname
        rcases List.mem_cons.1 hname with rfl | hname
        · simp [Corpus.contains, hpair.1]
        · exact hdeclared name hname
      have hsupported : Supported corpus settings (p.1.name :: visiting) pairs := by
        intro q hq
        refine ⟨(h q hq).1, (h q hq).2.mono ?_⟩
        rintro r (hr | hmem) -
        · exact Or.inl hr
        · exact Or.inr (List.mem_cons_of_mem _ hmem)
      refine planFrom_isOk_iff.2 (hfits.mono ?_)
      -- a pair is gone into only if its target is new, which leaves one name less
      rintro q (hq | hmem) -
      · by_cases hvisiting : q.1.name ∈ p.1.name :: visiting
        · exact Or.inl hvisiting
        · refine Or.inr (ih hsupported hnodup' hdeclared' ?_ hq hvisiting)
          simp only [List.length_cons]
          omega
      · exact Or.inl (List.mem_cons_of_mem _ hmem)

/-! ### The greatest set -/

/-- Without assumptions, a set is supported if each of its pairs fits on the strength of the set. -/
theorem supported_nil_iff {pairs : Set (Declaration × Declaration)} :
    Supported corpus settings [] pairs ↔
      ∀ p ∈ pairs, IsPair corpus settings.naming p ∧ Fits corpus settings pairs p := by
  have hempty : pairs ∪ {q | q.1.name ∈ ([] : List String)} = pairs := by
    ext q
    simp
  simp only [Supported, hempty]

theorem plan_isOk_of_supported {pairs : Set (Declaration × Declaration)}
    (h : Supported corpus settings [] pairs) {p : Declaration × Declaration} (hp : p ∈ pairs) :
    (plan corpus settings p.1 p.2).isOk = true :=
  planFrom_isOk_of_supported h List.nodup_nil (by simp) (by simp) hp (by simp)

/-- The pairs that are planned. -/
def planned (corpus : Corpus) (settings : Settings) : Set (Declaration × Declaration) :=
  {p | IsPair corpus settings.naming p ∧ (plan corpus settings p.1 p.2).isOk = true}

/-- The pairs that are planned fit on the strength of each other. -/
theorem supported_planned : Supported corpus settings [] (planned corpus settings) := by
  rintro p ⟨hpair, hok⟩
  obtain ⟨pairs, hp, hpairs⟩ := exists_supported hpair hok
  refine ⟨hpair, (hpairs p hp).2.mono ?_⟩
  rintro q (hq | hmem) hqpair
  · exact Or.inl ⟨hqpair, plan_isOk_of_supported hpairs hq⟩
  · exact absurd hmem (by simp)

/-- What is accepted below a pair that is planned is planned itself. -/
theorem mem_planned_of_accepted {room : Nat} {p q : Declaration × Declaration}
    (hp : p ∈ planned corpus settings) (hq : IsPair corpus settings.naming q)
    (h : (planFrom corpus settings room [p.1.name] q.1 q.2).isOk = true) :
    q ∈ planned corpus settings := by
  obtain ⟨pairs, hmem, hpairs⟩ := exists_supported hq h
  -- the assumption of the set is discharged by the pair itself
  have hunion : Supported corpus settings [] (pairs ∪ planned corpus settings) := by
    rintro r (hr | hr)
    · refine ⟨(hpairs r hr).1, (hpairs r hr).2.mono ?_⟩
      rintro t (ht | hname) hpair
      · exact Or.inl (Or.inl ht)
      · have heq : t = p := hpair.eq hp.1 (by simpa using hname)
        exact Or.inl (Or.inr (heq ▸ hp))
    · refine ⟨hr.1, (supported_planned r hr).2.mono ?_⟩
      rintro t (ht | hname) -
      · exact Or.inl (Or.inr ht)
      · exact Or.inr hname
  exact ⟨hq, plan_isOk_of_supported hunion (Or.inl hmem)⟩

/-! ### Nested pairs -/

/-- The nested targets of a conversion are mapped. -/
theorem maps_of_convert? {maps : String → String → Bool} {expr : String} {source target : TypeRef}
    {c : Conversion} (h : convert? maps expr source target = some c) :
    ∀ t ∈ c.2, ∃ s, maps s t = true := by
  fun_induction convert? maps expr source target generalizing c with
  | case1 | case4 | case7 | case11 | case15 =>
      cases h
      simp
  | case2 expr t s _ ih | case5 expr t s _ ih | case8 expr t j s _ ih =>
      obtain ⟨inner, hinner, rfl⟩ := Option.map_eq_some_iff.1 h
      intro u hu
      exact ih hinner u hu
  | case3 expr t source _ _ ih => exact ih h
  | case12 expr t s hmaps =>
      cases h
      intro u hu
      exact ⟨s, (List.mem_singleton.1 hu) ▸ hmaps⟩
  | case6 | case9 | case10 | case13 | case14 | case16 => cases h

theorem maps_of_fieldStep {maps : String → String → Bool} {source : ValueType} {f : Field} :
    ∀ t ∈ (fieldStep maps source f).nested, ∃ s, maps s t = true := by
  simp only [fieldStep]
  split
  · simp [FieldStep.nested]
  · split
    · split
      · next hconvert => exact maps_of_convert? hconvert
      · simp [FieldStep.nested]
    · split <;> simp [FieldStep.nested]

/-- The nested targets of a plan are mapped. -/
theorem maps_of_planShapes {maps : String → String → Bool} {strict : Bool} {target source : Shape}
    {p : Plan} (h : planShapes maps strict target source = .ok p) :
    ∀ t ∈ p.nested, ∃ s, maps s t = true := by
  match target, source, h with
  | .value t, .value s, h =>
      simp only [planShapes, planFields] at h
      split at h
      · cases h
        intro name hname
        obtain ⟨step, hstep, hname⟩ := List.mem_flatMap.1 hname
        obtain ⟨f, -, rfl⟩ := List.mem_map.1 hstep
        exact maps_of_fieldStep name hname
      · cases h
  | .enumeration t, .enumeration s, h =>
      simp only [planShapes, planCases] at h
      split at h
      · cases h
      · split at h
        · cases h
          simp
        · cases h

/-- **The nested pairs of a planned pair are planned.** -/
theorem pairs_subset_planned {ctx : Context} {q : Declaration × Declaration} {p : Plan}
    (hq : IsPair ctx.corpus ctx.settings.naming q)
    (h : plan ctx.corpus ctx.settings q.1 q.2 = .ok p) :
    ∀ r ∈ p.pairs ctx, r ∈ planned ctx.corpus ctx.settings := by
  have hplanned : q ∈ planned ctx.corpus ctx.settings := ⟨hq, by simp [h]⟩
  intro r hr
  obtain ⟨name, hname, hr⟩ := List.mem_filterMap.1 hr
  simp only [Option.bind_eq_bind, Option.bind_eq_some_iff, Option.pure_def, Option.some.injEq] at hr
  obtain ⟨target, htarget, source, hsource, rfl⟩ := hr
  have htname := Corpus.name_of_get? htarget
  have hpair : IsPair ctx.corpus ctx.settings.naming (target, source) := ⟨by rw [htname, htarget], hsource⟩
  rw [plan, planFrom] at h
  obtain ⟨s, hmaps⟩ := maps_of_planShapes h name (by simpa using hname)
  obtain ⟨r, hmem, hrpair, hrname, -⟩ := mapsNested_iff.1 hmaps
  have heq : r = (target, source) := hrpair.eq hpair (by rw [hrname, htname])
  subst heq
  -- the pair was taken to fit: it is the pair itself, or it was accepted below
  rcases hmem with hmem | hok
  · have hself : (target, source) = q := hpair.eq hq (by simpa using hmem)
    exact hself ▸ hplanned
  · exact mem_planned_of_accepted hplanned hpair hok

/-! ### Generating -/

/-- A mapping of the target of a planned pair. -/
def IsPlannedMapping (ctx : Context) (a : Artifact) : Prop :=
  a.strategy = .mapping ∧ ∃ p ∈ planned ctx.corpus ctx.settings, p.1.name = a.declaration

theorem isPlannedMapping_artifact {ctx : Context} {target source : Declaration}
    (h : (target, source) ∈ planned ctx.corpus ctx.settings) (p : Plan) :
    IsPlannedMapping ctx (p.artifact target.name source.name) :=
  ⟨by simp [Plan.artifact], (target, source), h, by simp [Plan.artifact]⟩

/-- Planning pending pairs that are all planned goes through, with mappings of planned pairs. -/
theorem generateFrom_of_planned {ctx : Context} {fuel : Nat} {done : List String}
    {pending : List (Declaration × Declaration)}
    (h : ∀ p ∈ pending, p ∈ planned ctx.corpus ctx.settings) :
    ∃ artifacts, generateFrom ctx fuel done pending = .ok artifacts ∧
      ∀ a ∈ artifacts, IsPlannedMapping ctx a := by
  induction fuel generalizing done pending with
  | zero => exact ⟨[], rfl, by simp⟩
  | succ fuel ih =>
      cases pending with
      | nil => exact ⟨[], rfl, by simp⟩
      | cons q pending =>
          obtain ⟨target, source⟩ := q
          have hrest : ∀ p ∈ pending, p ∈ planned ctx.corpus ctx.settings :=
            fun p hp => h p (List.mem_cons_of_mem _ hp)
          by_cases hdone : done.contains target.name = true
          · simpa only [generateFrom, hdone, if_true] using ih hrest
          · have hplanned := h (target, source) (by simp)
            obtain ⟨p, hp⟩ := isOk_iff_exists.1 hplanned.2
            -- what is pending next is planned again
            have hpending : ∀ r ∈ p.pairs ctx ++ pending, r ∈ planned ctx.corpus ctx.settings := by
              intro r hr
              rcases List.mem_append.1 hr with hr | hr
              · exact pairs_subset_planned hplanned.1 hp r hr
              · exact hrest r hr
            obtain ⟨artifacts, hgenerate, hartifacts⟩ := @ih (target.name :: done) _ hpending
            refine ⟨p.artifact target.name source.name :: artifacts, ?_, ?_⟩
            · simp only [generateFrom, hdone, if_false, hp, hgenerate, Bool.false_eq_true]
            · intro a ha
              rcases List.mem_cons.1 ha with rfl | ha
              · exact isPlannedMapping_artifact hplanned p
              · exact hartifacts a ha

/-- The transfer object of a declaration is declared. -/
theorem IsPair.get?_source {naming : Naming} {p : Declaration × Declaration}
    (h : IsPair corpus naming p) : corpus.get? p.2.name = some p.2 := by
  obtain ⟨name, -, hname⟩ := List.exists_of_findSome?_eq_some h.2
  rw [Corpus.name_of_get? hname, hname]

/-- **Generating a mapping succeeds exactly for planned pairs**, and otherwise it is the pair itself
that does not fit, never one that it relies on. -/
theorem generate_of_isPair {ctx : Context} {d source : Declaration} {r : Resolution}
    (hpair : IsPair ctx.corpus ctx.settings.naming (d, source))
    (hr : ctx.resolution? d.name = some r) (hsource : r.counterpart = some source.name) :
    ((d, source) ∈ planned ctx.corpus ctx.settings ∧ ∃ artifacts, generate ctx d = .ok artifacts ∧
        (∃ a ∈ artifacts, a.declaration = d.name) ∧ ∀ a ∈ artifacts, IsPlannedMapping ctx a) ∨
      ((d, source) ∉ planned ctx.corpus ctx.settings ∧ ∃ misfits,
        generate ctx d = .error [.incompatible d.name source.name misfits]) := by
  have hget := hpair.get?_source
  have hgenerate : generate ctx d = generateFrom ctx
      ((ctx.corpus.size + 2) * (ctx.corpus.size + 2) - 1 + 1) [] [(d, source)] := by
    have hfuel : 0 < (ctx.corpus.size + 2) * (ctx.corpus.size + 2) := by simp
    rw [Nat.sub_add_cancel hfuel]
    simp [generate, hr, hsource, hget]
  rw [hgenerate]
  cases hplan : plan ctx.corpus ctx.settings d source with
  | error misfits =>
      refine Or.inr ⟨?_, misfits, by simp [generateFrom, hplan]⟩
      rintro ⟨-, hok⟩
      simp [hplan] at hok
  | ok p =>
      have hplanned : (d, source) ∈ planned ctx.corpus ctx.settings :=
        ⟨hpair, by simp [hplan]⟩
      obtain ⟨artifacts, hrest, hartifacts⟩ := @generateFrom_of_planned ctx
        ((ctx.corpus.size + 2) * (ctx.corpus.size + 2) - 1) [d.name] (p.pairs ctx ++ [])
        (by simpa using pairs_subset_planned hpair hplan)
      refine Or.inl ⟨hplanned, p.artifact d.name source.name :: artifacts, ?_, ?_, ?_⟩
      · simp only [generateFrom, List.contains_nil, Bool.false_eq_true, if_false, hplan, hrest]
      · exact ⟨_, List.mem_cons_self, by simp [Plan.artifact]⟩
      · intro a ha
        rcases List.mem_cons.1 ha with rfl | ha
        · exact isPlannedMapping_artifact hplanned p
        · exact hartifacts a ha

/-! ### The greatest set of pairs -/

/-- The pairs that are planned are the greatest set of pairs in which every pair fits on the
strength of the set. -/
theorem isGreatest_planned (corpus : Corpus) (settings : Settings) :
    IsGreatest
      {pairs | ∀ p ∈ pairs, IsPair corpus settings.naming p ∧ Fits corpus settings pairs p}
      (planned corpus settings) := by
  refine ⟨supported_nil_iff.1 supported_planned, ?_⟩
  intro pairs hpairs p hp
  exact ⟨(hpairs p hp).1, plan_isOk_of_supported (supported_nil_iff.2 hpairs) hp⟩

/-- **Planning is exact**: there is a greatest set in which every pair of a target and its transfer
object fits on the strength of the set, and the pairs of this set are those with a plan.  So a
mapping is generated exactly for them, with artifacts for pairs of the set only, and where none is
the declaration itself does not fit. -/
theorem plan_isOk_iff_mem_greatest (ctx : Context) :
    ∃ mapped : Set (Declaration × Declaration),
      IsGreatest
        {pairs | ∀ p ∈ pairs, IsPair ctx.corpus ctx.settings.naming p ∧
          Fits ctx.corpus ctx.settings pairs p} mapped ∧
      (∀ p, IsPair ctx.corpus ctx.settings.naming p →
        ((plan ctx.corpus ctx.settings p.1 p.2).isOk = true ↔ p ∈ mapped)) ∧
      ∀ d source r, IsPair ctx.corpus ctx.settings.naming (d, source) →
        ctx.resolution? d.name = some r → r.counterpart = some source.name →
        ((d, source) ∈ mapped ∧ ∃ artifacts, generate ctx d = .ok artifacts ∧
          (∃ a ∈ artifacts, a.declaration = d.name) ∧
          ∀ a ∈ artifacts, a.strategy = .mapping ∧ ∃ p ∈ mapped, p.1.name = a.declaration) ∨
        ((d, source) ∉ mapped ∧ ∃ misfits,
          generate ctx d = .error [.incompatible d.name source.name misfits]) := by
  refine ⟨planned ctx.corpus ctx.settings, isGreatest_planned ctx.corpus ctx.settings, ?_, ?_⟩
  · intro p hp
    exact ⟨fun hok => ⟨hp, hok⟩, fun hmem => hmem.2⟩
  · intro d source r hpair hr hsource
    exact generate_of_isPair hpair hr hsource

/-- Two types that hold each other are both mapped. -/
example :
    let struct := fun (name field : String) (type : TypeRef) =>
      ({ name, shape := .value { form := .struct, fields := [⟨field, type, none, true⟩] } } :
        Declaration)
    let author := struct "Author" "books" (.sequence (.named "Book" []))
    let authorDto := struct "AuthorDTO" "books" (.sequence (.named "BookDTO" []))
    let book := struct "Book" "author" (.optional (.named "Author" []))
    let bookDto := struct "BookDTO" "author" (.named "AuthorDTO" [])
    let corpus : Corpus := ⟨[author, authorDto, book, bookDto].map fun d => ⟨d, []⟩⟩
    (plan corpus {} author authorDto).isOk = true ∧ (plan corpus {} book bookDto).isOk = true := by
  decide

end Mapping

end Scaffold
