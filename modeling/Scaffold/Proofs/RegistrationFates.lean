/-
**What becomes of registered declarations.**

A contract that is to be registered has one of four fates: no type implements it; several do, and
that is not tolerated; it is paired with one of them and has its entry in the table; or its entry
would share an accessor with another one, so that both are left out.  Each of the first two and the
last comes with a problem.  A type is registered on its own if it implements no contract that is to
be registered, and so none is lost but in an ambiguity that is reported.

What is to be registered is told by the corpus and the resolutions alone, and not by the lists that
the table is made from.

Main definitions:

* `Scaffold.Registration.IsRequested` — a declaration of the corpus is to be registered;
* `Scaffold.Registration.implementers`, `Scaffold.Registration.IsChosen` — the types that implement
  a contract, and the one that it is paired with;
* `Scaffold.Registration.Planned` — the entries before those that share an accessor are left out;
* `Scaffold.Registration.Fate` — what becomes of a contract.

Main results:

* `Scaffold.Registration.pair_cases` — what pairing a contract yields;
* `Scaffold.Registration.mem_clashes` — the accessors that are shared;
* `Scaffold.Registration.mem_planned`, `Scaffold.Registration.filter_contract_planned` — the entries
  that are planned, and those of a contract;
* `Scaffold.Registration.existsUnique_fate` — **every contract has one fate**;
* `Scaffold.Registration.plan_accounts` — **the table accounts for all that is to be registered**.
-/

import Scaffold.Proofs.OutputUnits

set_option relaxedAutoImplicit false
set_option autoImplicit false

namespace Scaffold

theorem NameMap.find?_alter {α : Type} (m : NameMap α) (k j : String) (f : Option α → α) :
    (m.alter k f).find? j = if j = k then some (f (m.find? k)) else m.find? j := by
  split
  · next heq =>
      rw [heq]
      exact lookup_alterEntry_self k f m.sorted
  · next hne => exact lookup_alterEntry_of_ne f m.entries hne

namespace Registration

/-! ### Requests -/

/-- A declaration of the corpus is to be registered. -/
structure IsRequested (ctx : Context) (d : Declaration) : Prop where
  /-- It is declared. -/
  declared : d ∈ ctx.corpus.declarations
  /-- It was resolved to be registered. -/
  runs : ctx.runs d.name .registration = true

theorem mem_annotated {ctx : Context} {d : Declaration} :
    d ∈ annotated ctx ↔ IsRequested ctx d := by
  rw [annotated, List.mem_filter]
  exact ⟨fun h => ⟨h.1, h.2⟩, fun h => ⟨h.declared, h.runs⟩⟩

theorem mem_contracts {ctx : Context} {c : Declaration} :
    c ∈ contracts ctx ↔ IsRequested ctx c ∧ c.contract?.isSome = true := by
  rw [contracts, List.mem_filter, mem_annotated]

theorem mem_concretes {ctx : Context} {d : Declaration} {v : ValueType} :
    (d, v) ∈ concretes ctx ↔ IsRequested ctx d ∧ d.value? = some v := by
  simp only [concretes, List.mem_filterMap, Option.map_eq_some_iff, Prod.mk.injEq]
  constructor
  · rintro ⟨d, hd, v, hv, rfl, rfl⟩
    exact ⟨mem_annotated.1 hd, hv⟩
  · exact fun h => ⟨d, mem_annotated.2 h.1, v, h.2, rfl, rfl⟩

/-! ### Pairing -/

section Pairing

variable {ctx : Context} {c d e : Declaration}

/-- The value types of the corpus that are to be registered and implement a contract, in order. -/
def implementers (ctx : Context) (c : Declaration) : List Declaration :=
  ctx.corpus.declarations.filter fun d =>
    ctx.runs d.name .registration && d.value?.any (implements c (ctx.corpus.requirements c))

/-- The stem of the name of a contract. -/
def stem (ctx : Context) (c : Declaration) : String := ctx.settings.naming.stem c.simpleName

/-- The type that a contract is paired with. -/
inductive IsChosen (ctx : Context) (c d : Declaration) : Prop
  /-- No other type implements the contract. -/
  | only : implementers ctx c = [d] → IsChosen ctx c d
  /-- Of several types, it is the first whose name starts with the stem. -/
  | preferred : ctx.settings.failOnAmbiguousRegistration = false →
      2 ≤ (implementers ctx c).length →
      (implementers ctx c).find? (fun e => Text.startsWith (stem ctx c) e.simpleName) = some d →
      IsChosen ctx c d
  /-- Of several types, none of whose names does, it is the first. -/
  | first : ctx.settings.failOnAmbiguousRegistration = false →
      2 ≤ (implementers ctx c).length →
      (∀ e ∈ implementers ctx c, ¬Text.startsWith (stem ctx c) e.simpleName = true) →
      (implementers ctx c).head? = some d → IsChosen ctx c d

/-- The entry of a contract that is paired with a type. -/
def entryOf (ctx : Context) (c d : Declaration) : Registration :=
  ⟨Text.lowerCamel (stem ctx c), d.name, some c.name⟩

theorem candidates_eq (ctx : Context) (c : Declaration) :
    candidates ctx c = implementers ctx c := by
  simp only [candidates, implementers, concretes, annotated]
  induction ctx.corpus.declarations with
  | nil => rfl
  | cons d ds ih =>
      cases hruns : ctx.runs d.name .registration with
      | false => simpa [hruns] using ih
      | true =>
          cases hv : d.value? with
          | none => simpa [hruns, hv] using ih
          | some v =>
              by_cases himpl : implements c (ctx.corpus.requirements c) v <;>
                simpa [hruns, hv, himpl]

theorem mem_implementers :
    d ∈ implementers ctx c ↔
      IsRequested ctx d ∧ d.value?.any (implements c (ctx.corpus.requirements c)) = true := by
  rw [implementers, List.mem_filter, Bool.and_eq_true, ← and_assoc]
  exact and_congr_left fun _ => ⟨fun h => ⟨h.1, h.2⟩, fun h => ⟨h.declared, h.runs⟩⟩

theorem IsChosen.mem (h : IsChosen ctx c d) : d ∈ implementers ctx c := by
  cases h with
  | only honly => simp [honly]
  | preferred _ _ hfind => exact List.mem_of_find?_eq_some hfind
  | first _ _ _ hhead => exact List.mem_of_head? hhead

/-- Several types are left to choose from only where that is tolerated. -/
theorem IsChosen.tolerated (h : IsChosen ctx c d) (hmany : 2 ≤ (implementers ctx c).length) :
    ctx.settings.failOnAmbiguousRegistration = false := by
  cases h with
  | only honly => simp [honly] at hmany
  | preferred htolerant => exact htolerant
  | first htolerant => exact htolerant

/-- A contract is paired with one type. -/
theorem IsChosen.eq (hd : IsChosen ctx c d) (he : IsChosen ctx c e) : d = e := by
  cases hd with
  | only hd => exact (List.mem_singleton.1 (hd ▸ he.mem)).symm
  | preferred _ hmany hd =>
      cases he with
      | only he => simp [he] at hmany
      | preferred _ _ he => exact Option.some.inj (hd.symm.trans he)
      | first _ _ hnone =>
          exact absurd (List.find?_some hd) (hnone d (List.mem_of_find?_eq_some hd))
  | first _ hmany hnone hd =>
      cases he with
      | only he => simp [he] at hmany
      | preferred _ _ he =>
          exact absurd (List.find?_some he) (hnone e (List.mem_of_find?_eq_some he))
      | first _ _ _ he => exact Option.some.inj (hd.symm.trans he)

/-- The choice among several types. -/
theorem isChosen_preferred {first : Declaration} {others : List Declaration}
    (himpl : implementers ctx c = first :: others) (hothers : others ≠ [])
    (htolerant : ctx.settings.failOnAmbiguousRegistration = false) :
    IsChosen ctx c (preferred (stem ctx c) first others) := by
  have hmany : 2 ≤ (implementers ctx c).length := by
    have := List.length_pos_iff.2 hothers
    rw [himpl, List.length_cons]
    omega
  rw [preferred, ← himpl]
  cases hfind : (implementers ctx c).find? fun e => Text.startsWith (stem ctx c) e.simpleName with
  | none => exact .first htolerant hmany (List.find?_eq_none.1 hfind) (by rw [himpl]; rfl)
  | some d => exact .preferred htolerant hmany hfind

/-- **What pairing a contract yields.** -/
theorem pair_cases (ctx : Context) (c : Declaration) :
    (implementers ctx c = [] ∧ pair ctx c = ⟨none, some (.unregistered c.name), []⟩) ∨
    (2 ≤ (implementers ctx c).length ∧ ctx.settings.failOnAmbiguousRegistration = true ∧
      pair ctx c = ⟨none, some (.ambiguous c.name ((implementers ctx c).map Declaration.name)),
        (implementers ctx c).map Declaration.name⟩) ∨
    ∃ d, IsChosen ctx c d ∧
      pair ctx c = ⟨some (entryOf ctx c d), none, (implementers ctx c).map Declaration.name⟩ := by
  rw [pair, candidates_eq]
  split
  · next himpl => exact Or.inl ⟨himpl, rfl⟩
  · next only himpl => exact Or.inr (Or.inr ⟨only, .only himpl, by rw [himpl]; rfl⟩)
  · next first others hothers himpl =>
      split
      · next hfail =>
          have := List.length_pos_iff.2 hothers
          refine Or.inr (Or.inl ⟨?_, hfail, by rw [himpl]⟩)
          rw [himpl, List.length_cons]
          omega
      · next htolerant =>
          have hchosen := isChosen_preferred himpl hothers (by simpa using htolerant)
          exact Or.inr (Or.inr ⟨_, hchosen, by rw [himpl]; rfl⟩)

/-- A contract that is paired with a type gets an entry. -/
theorem entry_pair_iff {r : Registration} :
    (pair ctx c).entry = some r ↔ ∃ d, IsChosen ctx c d ∧ entryOf ctx c d = r := by
  rcases pair_cases ctx c with ⟨hnone, hpair⟩ | ⟨hmany, hfail, hpair⟩ | ⟨d, hd, hpair⟩
  · rw [hpair]
    refine iff_of_false (by simp) ?_
    rintro ⟨d, hd, -⟩
    simpa [hnone] using hd.mem
  · rw [hpair]
    refine iff_of_false (by simp) ?_
    rintro ⟨d, hd, -⟩
    exact absurd (hd.tolerated hmany) (by simp [hfail])
  · rw [hpair, Option.some_inj]
    constructor
    · exact fun hentry => ⟨d, hd, hentry⟩
    · rintro ⟨e, he, rfl⟩
      rw [hd.eq he]

/-- All types that implement a contract are claimed. -/
theorem claimed_pair (ctx : Context) (c : Declaration) :
    (pair ctx c).claimed = (implementers ctx c).map Declaration.name := by
  rcases pair_cases ctx c with ⟨hnone, hpair⟩ | ⟨-, -, hpair⟩ | ⟨d, -, hpair⟩ <;> rw [hpair]
  rw [hnone]
  rfl

end Pairing

/-! ### Shared accessors -/

section Clashes

/-- The types behind an accessor, as often as they are. -/
def behind (entries : List Registration) (accessor : String) : List String :=
  (entries.filter fun r => r.accessor == accessor).map concrete

theorem concrete_mem_behind {entries : List Registration} {r : Registration} (hr : r ∈ entries) :
    r.concrete ∈ behind entries r.accessor :=
  List.mem_map_of_mem (List.mem_filter.2 ⟨hr, beq_self_eq_true _⟩)

theorem getD_find?_foldl_alter (entries : List Registration) (m : NameMap (List String))
    (k : String) :
    ((entries.foldl (fun m r => m.alter r.accessor fun ns => ns.getD [] ++ [r.concrete]) m).find?
      k).getD [] = (m.find? k).getD [] ++ behind entries k := by
  induction entries generalizing m with
  | nil => simp [behind]
  | cons r entries ih =>
      rw [List.foldl_cons, ih, NameMap.find?_alter]
      by_cases hk : k = r.accessor
      · subst hk
        simp [behind]
      · simp [behind, hk, Ne.symm hk]

/-- An accessor is shared if there are several types behind it. -/
theorem mem_clashes {entries : List Registration} {k : String} {names : List String} :
    (k, names) ∈ clashes entries ↔ names = behind entries k ∧ 1 < names.length := by
  have hbehind : ((byAccessor entries).find? k).getD [] = behind entries k := by
    have hempty : ({} : NameMap (List String)).find? k = none := rfl
    rw [byAccessor, getD_find?_foldl_alter, hempty, Option.getD_none, List.nil_append]
  rw [clashes, List.mem_filter, NameMap.mem_entries_iff, ← hbehind, decide_eq_true_eq]
  refine and_congr_left fun hmany => ?_
  cases (byAccessor entries).find? k with
  | none =>
      refine iff_of_false (by simp) fun hnil => ?_
      simp [hnil] at hmany
  | some names' => simp [eq_comm]

theorem length_behind (entries : List Registration) (k : String) :
    (behind entries k).length = entries.countP fun r => r.accessor == k := by
  rw [behind, List.length_map, List.countP_eq_length_filter]

/-- Items with values that no other item has, have different values. -/
theorem nodup_map_filter_countP {α β : Type} [BEq β] [LawfulBEq β] (xs : List α) (f : α → β) :
    ((xs.filter fun x => decide (xs.countP (fun y => f y == f x) ≤ 1)).map f).Nodup := by
  refine List.pairwise_map.2 (List.pairwise_iff_forall_sublist.2 fun {x y} hxy heq => ?_)
  have hx := (List.mem_filter.1 (hxy.subset List.mem_cons_self)).2
  have hcount := (hxy.trans List.filter_sublist).countP_le (p := fun z => f z == f x)
  have htwo : [x, y].countP (fun z => f z == f x) = 2 := by simp [heq]
  simp only [decide_eq_true_eq] at hx
  omega

/-- If several items satisfy a condition, there is another one than any given one. -/
theorem exists_ne_of_one_lt_countP {α : Type} {xs : List α} (hnodup : xs.Nodup) {p : α → Bool}
    (h : 1 < xs.countP p) (x : α) : ∃ y ∈ xs, y ≠ x ∧ p y = true := by
  by_contra hnone
  push Not at hnone
  have hsubset : xs.filter p ⊆ [x] := by
    intro y hy
    obtain ⟨hy, hp⟩ := List.mem_filter.1 hy
    by_contra hne
    exact hnone y hy (by simpa using hne) hp
  have hle := (List.subperm_of_subset (hnodup.filter p) hsubset).length_le
  rw [← List.countP_eq_length_filter, List.length_singleton] at hle
  omega

end Clashes

/-! ### Entries -/

section Entries

variable {ctx : Context}

/-- An entry before those that share an accessor are left out. -/
inductive Planned (ctx : Context) : Registration → Prop
  /-- A contract and the type that it is paired with. -/
  | paired {c d : Declaration} : IsRequested ctx c → c.contract?.isSome = true →
      IsChosen ctx c d → Planned ctx (entryOf ctx c d)
  /-- A type that implements no contract. -/
  | alone {d : Declaration} : IsRequested ctx d → d.value?.isSome = true →
      (∀ c, IsRequested ctx c → c.contract?.isSome = true → d ∉ implementers ctx c) →
      Planned ctx ⟨Text.lowerCamel d.simpleName, d.name, none⟩

/-- All entries before those that share an accessor are left out. -/
def planned (ctx : Context) : List Registration :=
  (contracts ctx).filterMap (fun c => (pair ctx c).entry) ++
    unclaimed ctx ((contracts ctx).flatMap fun c => (pair ctx c).claimed)

theorem plan_eq (ctx : Context) :
    plan ctx =
      ((planned ctx).filter fun r => !((clashes (planned ctx)).map Prod.fst).contains r.accessor,
        (contracts ctx).filterMap (fun c => (pair ctx c).problem) ++
          (clashes (planned ctx)).map fun p => .ambiguous p.1 p.2) := by
  simp only [plan, planned, List.filterMap_map, List.flatMap_map]
  rfl

/-- The entries that are left are those whose accessors no other has. -/
theorem plan_fst (ctx : Context) :
    (plan ctx).1 = (planned ctx).filter fun r =>
      decide ((planned ctx).countP (fun s => s.accessor == r.accessor) ≤ 1) := by
  rw [plan_eq]
  refine List.filter_congr fun r _ => ?_
  rw [Bool.eq_iff_iff, decide_eq_true_eq, Bool.not_eq_true', ← Bool.not_eq_true,
    List.contains_iff_mem, ← Nat.not_lt, not_iff_not, ← length_behind]
  constructor
  · intro hclash
    obtain ⟨⟨k, names⟩, hmem, heq⟩ := List.mem_map.1 hclash
    obtain ⟨hnames, hmany⟩ := mem_clashes.1 hmem
    rwa [hnames, show k = r.accessor from heq] at hmany
  · exact fun hmany => List.mem_map.2 ⟨(_, _), mem_clashes.2 ⟨rfl, hmany⟩, rfl⟩

theorem mem_plan_fst {r : Registration} :
    r ∈ (plan ctx).1 ↔
      r ∈ planned ctx ∧ (planned ctx).countP (fun s => s.accessor == r.accessor) ≤ 1 := by
  rw [plan_fst, List.mem_filter, decide_eq_true_eq]

/-- What is wrong with a contract is among the problems. -/
theorem mem_plan_snd_of_pair {c : Declaration} (hc : c ∈ contracts ctx) {p : Problem}
    (hp : (pair ctx c).problem = some p) : p ∈ (plan ctx).2 := by
  rw [plan_eq]
  exact List.mem_append_left _ (List.mem_filterMap.2 ⟨c, hc, hp⟩)

/-- Every accessor that is shared is among the problems. -/
theorem ambiguous_mem_plan_snd {k : String}
    (h : 1 < (planned ctx).countP fun s => s.accessor == k) :
    .ambiguous k (behind (planned ctx) k) ∈ (plan ctx).2 := by
  rw [← length_behind] at h
  rw [plan_eq]
  exact List.mem_append_right _ (List.mem_map.2 ⟨(_, _), mem_clashes.2 ⟨rfl, h⟩, rfl⟩)

/-- An entry is left, or its type is among those behind an accessor that is shared. -/
theorem mem_plan_or_ambiguous {r : Registration} (hr : r ∈ planned ctx) :
    r ∈ (plan ctx).1 ∨
      ∃ names, .ambiguous r.accessor names ∈ (plan ctx).2 ∧ r.concrete ∈ names := by
  by_cases hone : (planned ctx).countP (fun s => s.accessor == r.accessor) ≤ 1
  · exact Or.inl (mem_plan_fst.2 ⟨hr, hone⟩)
  · exact Or.inr ⟨_, ambiguous_mem_plan_snd (Nat.lt_of_not_le hone), concrete_mem_behind hr⟩

variable (hcorpus : ctx.corpus.IsIndexed)
include hcorpus

/-- The declarations to register have different names. -/
theorem pairwise_name_annotated : (annotated ctx).Pairwise fun d e => d.name ≠ e.name :=
  (List.pairwise_map.1 hcorpus).filter _

/-- A type is claimed if it implements a contract. -/
theorem mem_claimed_iff {d : Declaration} (hd : IsRequested ctx d) :
    d.name ∈ ((contracts ctx).flatMap fun c => (pair ctx c).claimed) ↔
      ∃ c, IsRequested ctx c ∧ c.contract?.isSome = true ∧ d ∈ implementers ctx c := by
  simp only [List.mem_flatMap, claimed_pair, List.mem_map, mem_contracts, and_assoc]
  refine exists_congr fun c => and_congr_right fun _ => and_congr_right fun _ =>
    ⟨?_, fun hmem => ⟨d, hmem, rfl⟩⟩
  rintro ⟨e, he, hname⟩
  rwa [← hcorpus.eq_of_name (mem_implementers.1 he).1.declared hd.declared hname]

/-- The entries that are planned. -/
theorem mem_planned {r : Registration} : r ∈ planned ctx ↔ Planned ctx r := by
  rw [planned, List.mem_append, List.mem_filterMap, unclaimed, List.mem_map]
  constructor
  · rintro (⟨c, hc, hentry⟩ | ⟨⟨d, v⟩, hmem, rfl⟩)
    · obtain ⟨d, hd, rfl⟩ := entry_pair_iff.1 hentry
      obtain ⟨hc, hcontract⟩ := mem_contracts.1 hc
      exact .paired hc hcontract hd
    · obtain ⟨hmem, hclaimed⟩ := List.mem_filter.1 hmem
      obtain ⟨hd, hv⟩ := mem_concretes.1 hmem
      refine .alone hd (by rw [hv]; rfl) fun c hc hcontract himpl => ?_
      have := (mem_claimed_iff hcorpus hd).2 ⟨c, hc, hcontract, himpl⟩
      simp [this] at hclaimed
  · rintro (⟨hc, hcontract, hd⟩ | ⟨hd, hvalue, hnone⟩)
    · exact Or.inl ⟨_, mem_contracts.2 ⟨hc, hcontract⟩, entry_pair_iff.2 ⟨_, hd, rfl⟩⟩
    · obtain ⟨v, hv⟩ := Option.isSome_iff_exists.1 hvalue
      refine Or.inr ⟨(_, v), List.mem_filter.2 ⟨mem_concretes.2 ⟨hd, hv⟩, ?_⟩, rfl⟩
      rw [Bool.not_eq_true', ← Bool.not_eq_true, List.contains_iff_mem, mem_claimed_iff hcorpus hd]
      rintro ⟨c, hc, hcontract, himpl⟩
      exact hnone c hc hcontract himpl

/-- No entry is planned twice: contracts have different names, and so have types. -/
theorem nodup_planned : (planned ctx).Nodup := by
  refine List.nodup_append.2 ⟨?_, ?_, ?_⟩
  · refine List.Pairwise.filterMap _ (fun c c' hne r hr r' hr' heq => ?_)
      ((pairwise_name_annotated hcorpus).filter _)
    obtain ⟨d, -, rfl⟩ := entry_pair_iff.1 hr
    obtain ⟨d', -, rfl⟩ := entry_pair_iff.1 hr'
    exact hne (Option.some.inj (congrArg contract heq))
  · have hconcretes : (concretes ctx).Pairwise fun p q => p.1.name ≠ q.1.name := by
      refine List.Pairwise.filterMap _ (fun d e hne p hp q hq => ?_)
        (pairwise_name_annotated hcorpus)
      obtain ⟨v, -, rfl⟩ := Option.map_eq_some_iff.1 hp
      obtain ⟨w, -, rfl⟩ := Option.map_eq_some_iff.1 hq
      exact hne
    exact List.pairwise_map.2 ((hconcretes.filter _).imp fun hne heq =>
      hne (congrArg concrete heq))
  · -- the entries of contracts are those that name one
    rintro r hr s hs rfl
    obtain ⟨c, -, hentry⟩ := List.mem_filterMap.1 hr
    obtain ⟨d, -, rfl⟩ := entry_pair_iff.1 hentry
    obtain ⟨p, -, hp⟩ := List.mem_map.1 hs
    exact Option.some_ne_none _ (congrArg contract hp).symm

/-- The entry of a contract that is paired is the only one for it. -/
theorem filter_contract_planned {c d : Declaration} (hc : IsRequested ctx c)
    (hcontract : c.contract?.isSome = true) (hd : IsChosen ctx c d) :
    (planned ctx).filter (fun r => r.contract == some c.name) = [entryOf ctx c d] := by
  rw [← List.perm_singleton, List.perm_ext_iff_of_nodup ((nodup_planned hcorpus).filter _)
    (List.nodup_singleton _)]
  intro r
  rw [List.mem_filter, mem_planned hcorpus, List.mem_singleton, beq_iff_eq]
  constructor
  · rintro ⟨hplanned, hname⟩
    cases hplanned with
    | @paired c' d' hc' _ hd' =>
        obtain rfl : c' = c :=
          hcorpus.eq_of_name hc'.declared hc.declared (Option.some.inj hname)
        rw [hd.eq hd']
    | alone => cases hname
  · rintro rfl
    exact ⟨.paired hc hcontract hd, rfl⟩

/-- The entries of a contract that is paired: its own, if no other has the same accessor. -/
theorem filter_contract_plan {c d : Declaration} (hc : IsRequested ctx c)
    (hcontract : c.contract?.isSome = true) (hd : IsChosen ctx c d) :
    (plan ctx).1.filter (fun r => r.contract == some c.name) =
      if (planned ctx).countP (fun s => s.accessor == (entryOf ctx c d).accessor) ≤ 1
      then [entryOf ctx c d] else [] := by
  rw [plan_fst, List.filter_comm, filter_contract_planned hcorpus hc hcontract hd,
    List.filter_singleton, Bool.cond_decide]

end Entries

/-! ### Fates -/

/-- What becomes of a contract that is to be registered. -/
inductive Fate where
  /-- No type implements it. -/
  | unregistered
  /-- Several types do, and that is not tolerated. -/
  | ambiguous
  /-- It has an entry in the table. -/
  | registered
  /-- Its entry is left out, as another one has the same accessor. -/
  | clashing
deriving DecidableEq, Repr

/-- What is known of a contract with a fate. -/
def Fate.Holds (ctx : Context) (c : Declaration) : Fate → Prop
  | .unregistered => implementers ctx c = [] ∧ .unregistered c.name ∈ (plan ctx).2
  | .ambiguous =>
    2 ≤ (implementers ctx c).length ∧ ctx.settings.failOnAmbiguousRegistration = true ∧
      .ambiguous c.name ((implementers ctx c).map Declaration.name) ∈ (plan ctx).2
  | .registered =>
    ∃ d, IsChosen ctx c d ∧
      (plan ctx).1.filter (fun r => r.contract == some c.name) = [entryOf ctx c d]
  | .clashing =>
    ∃ d, IsChosen ctx c d ∧
      (∃ r, Planned ctx r ∧ r ≠ entryOf ctx c d ∧ r.accessor = (entryOf ctx c d).accessor) ∧
      (∀ r ∈ (plan ctx).1, r.contract ≠ some c.name) ∧
      ∃ names, .ambiguous (entryOf ctx c d).accessor names ∈ (plan ctx).2 ∧ d.name ∈ names

/-- The fate of a contract, told from the types that implement it and the entries of the table. -/
def fate (ctx : Context) (c : Declaration) : Fate :=
  if implementers ctx c = [] then .unregistered
  else if 2 ≤ (implementers ctx c).length ∧
      ctx.settings.failOnAmbiguousRegistration = true then .ambiguous
  else if ((plan ctx).1.filter fun r => r.contract == some c.name) = [] then .clashing
  else .registered

section Fates

variable {ctx : Context} {c : Declaration}

/-- A contract has no other fate than the one that can be told. -/
theorem Fate.Holds.eq_fate {f : Fate} (h : f.Holds ctx c) : f = fate ctx c := by
  rw [fate]
  have hchosen : ∀ {d}, IsChosen ctx c d → implementers ctx c ≠ [] ∧
      ¬(2 ≤ (implementers ctx c).length ∧ ctx.settings.failOnAmbiguousRegistration = true) :=
    fun hd => ⟨List.ne_nil_of_mem hd.mem, fun h => by simpa [h.2] using hd.tolerated h.1⟩
  cases f with
  | unregistered => rw [if_pos h.1]
  | ambiguous =>
      obtain ⟨hmany, hfail, -⟩ := h
      rw [if_neg (List.ne_nil_of_length_pos (by omega)), if_pos ⟨hmany, hfail⟩]
  | registered =>
      obtain ⟨d, hd, hfilter⟩ := h
      rw [if_neg (hchosen hd).1, if_neg (hchosen hd).2, hfilter, if_neg (List.cons_ne_nil _ _)]
  | clashing =>
      obtain ⟨d, hd, -, hnone, -⟩ := h
      have hfilter : ((plan ctx).1.filter fun r => r.contract == some c.name) = [] :=
        List.filter_eq_nil_iff.2 fun r hr => by simpa using hnone r hr
      rw [if_neg (hchosen hd).1, if_neg (hchosen hd).2, if_pos hfilter]

/-- **Every contract that is to be registered has one fate.** -/
theorem existsUnique_fate (hcorpus : ctx.corpus.IsIndexed) (hc : IsRequested ctx c)
    (hcontract : c.contract?.isSome = true) : ∃! f : Fate, f.Holds ctx c := by
  have hmem := mem_contracts.2 ⟨hc, hcontract⟩
  refine existsUnique_of_exists_of_unique ?_ fun _ _ hf hg =>
    hf.eq_fate.trans hg.eq_fate.symm
  rcases pair_cases ctx c with ⟨hnone, hpair⟩ | ⟨hmany, hfail, hpair⟩ | ⟨d, hd, -⟩
  · exact ⟨.unregistered, hnone, mem_plan_snd_of_pair hmem (by rw [hpair])⟩
  · exact ⟨.ambiguous, hmany, hfail, mem_plan_snd_of_pair hmem (by rw [hpair])⟩
  · have hfilter := filter_contract_plan hcorpus hc hcontract hd
    split at hfilter
    · exact ⟨.registered, d, hd, hfilter⟩
    · next hshared =>
        have hshared := Nat.lt_of_not_le hshared
        obtain ⟨r, hr, hne, haccessor⟩ :=
          exists_ne_of_one_lt_countP (nodup_planned hcorpus) hshared (entryOf ctx c d)
        refine ⟨.clashing, d, hd, ⟨r, (mem_planned hcorpus).1 hr, hne, by simpa using haccessor⟩,
          ?_, _, ambiguous_mem_plan_snd hshared, ?_⟩
        · simpa using List.filter_eq_nil_iff.1 hfilter
        · exact concrete_mem_behind ((mem_planned hcorpus).2 (.paired hc hcontract hd))

/-- A type that is to be registered has an entry, or is among those of an ambiguity, where such are
not tolerated. -/
theorem mem_plan_or_ambiguous_of_value (hcorpus : ctx.corpus.IsIndexed)
    (hfail : ctx.settings.failOnAmbiguousRegistration = true) {d : Declaration}
    (hd : IsRequested ctx d) (hvalue : d.value?.isSome = true) :
    (∃ r ∈ (plan ctx).1, r.concrete = d.name) ∨
      ∃ about names, .ambiguous about names ∈ (plan ctx).2 ∧ d.name ∈ names := by
  have hentry : ∀ r, Planned ctx r → r.concrete = d.name →
      (∃ r ∈ (plan ctx).1, r.concrete = d.name) ∨
        ∃ about names, .ambiguous about names ∈ (plan ctx).2 ∧ d.name ∈ names := by
    intro r hr hname
    rcases mem_plan_or_ambiguous ((mem_planned hcorpus).2 hr) with hmem | ⟨names, hmem, hnames⟩
    · exact Or.inl ⟨r, hmem, hname⟩
    · exact Or.inr ⟨_, names, hmem, hname ▸ hnames⟩
  by_cases hclaimed :
      ∃ c, IsRequested ctx c ∧ c.contract?.isSome = true ∧ d ∈ implementers ctx c
  · obtain ⟨c, hc, hcontract, himpl⟩ := hclaimed
    rcases pair_cases ctx c with ⟨hnone, -⟩ | ⟨-, -, hpair⟩ | ⟨e, he, -⟩
    · simp [hnone] at himpl
    · have hmem := mem_contracts.2 ⟨hc, hcontract⟩
      exact Or.inr ⟨_, _, mem_plan_snd_of_pair hmem (by rw [hpair]), List.mem_map_of_mem himpl⟩
    · -- the type that is chosen is the only one
      cases he with
      | only honly =>
          obtain rfl : d = e := List.mem_singleton.1 (honly ▸ himpl)
          exact hentry _ (.paired hc hcontract (.only honly)) rfl
      | preferred htolerant => simp [hfail] at htolerant
      | first htolerant => simp [hfail] at htolerant
  · push Not at hclaimed
    exact hentry _ (.alone hd hvalue hclaimed) rfl

end Fates

/-- **The table accounts for all that is to be registered.**  Its accessors are different.  Every
contract of the corpus that was resolved to be registered has one of the four fates, and where
ambiguities are not tolerated, every such type has an entry or is reported in one. -/
theorem plan_accounts (entries : List Entry) (settings : Settings) (provider : FixtureProvider)
    (resolutions : List Resolution) :
    let ctx : Context := ⟨(Corpus.build entries).1, settings, provider, resolutions⟩
    ((plan ctx).1.map accessor).Nodup ∧
    (∀ c ∈ ctx.corpus.declarations, ctx.runs c.name .registration = true →
      c.contract?.isSome = true → ∃! f : Fate, f.Holds ctx c) ∧
    (settings.failOnAmbiguousRegistration = true →
      ∀ d ∈ ctx.corpus.declarations, ctx.runs d.name .registration = true →
        d.value?.isSome = true →
        (∃ r ∈ (plan ctx).1, r.concrete = d.name) ∨
          ∃ about names, .ambiguous about names ∈ (plan ctx).2 ∧ d.name ∈ names) := by
  intro ctx
  have hcorpus : ctx.corpus.IsIndexed := Corpus.isIndexed_build entries
  refine ⟨?_, fun c hc hruns hcontract => ?_, fun hfail d hd hruns hvalue => ?_⟩
  · rw [plan_fst]
    exact nodup_map_filter_countP _ _
  · exact existsUnique_fate hcorpus ⟨hc, hruns⟩ hcontract
  · exact mem_plan_or_ambiguous_of_value hcorpus hfail ⟨hd, hruns⟩ hvalue

/-- Of four contracts, one has a type that says so, one has a second type with the same members, one
has a type whose accessor is that of another type, and one has none. -/
theorem plan_accounts_store :
    let purge : Method := ⟨"purge", [], {}, .void⟩
    let contract := fun (name : String) (methods : List Method) =>
      (⟨{ name, shape := .contract { methods } }, ["autoregister"]⟩ : Entry)
    let struct := fun (name : String) (v : ValueType) =>
      (⟨{ name, shape := .value v }, ["autoregister"]⟩ : Entry)
    let entries :=
      [contract "StoreProtocol" [⟨"load", [], {}, .primitive "Int"⟩],
        struct "LiveStore" { form := .classForm, conformances := ["StoreProtocol"] },
        contract "CacheProtocol" [purge],
        struct "MemoryCache" { form := .actor, conformances := ["CacheProtocol"] },
        struct "DiskCache" { form := .struct, methods := [purge] },
        contract "ClockProtocol" [⟨"now", [], {}, .named "Date" []⟩],
        struct "SystemClock" { form := .struct, conformances := ["ClockProtocol"] },
        struct "Clock" { form := .struct, fields := [⟨"ticks", .primitive "Int", none, false⟩] },
        contract "AuditProtocol" [⟨"record", [], {}, .void⟩]]
    let resolutions := entries.map fun e =>
      (⟨e.declaration.name, [], [.registration], none⟩ : Resolution)
    let ctx : Context := ⟨(Corpus.build entries).1, {}, ({} : NameMap String), resolutions⟩
    plan ctx = ([⟨"store", "LiveStore", some "StoreProtocol"⟩],
      [.ambiguous "CacheProtocol" ["MemoryCache", "DiskCache"], .unregistered "AuditProtocol",
        .ambiguous "clock" ["SystemClock", "Clock"]]) ∧
    ∀ p ∈ [("StoreProtocol", Fate.registered), ("CacheProtocol", .ambiguous),
        ("ClockProtocol", .clashing), ("AuditProtocol", .unregistered)],
      ∃ c, ctx.corpus.get? p.1 = some c ∧ p.2.Holds ctx c := by
  intro purge contract struct entries resolutions ctx
  have htold : ∀ p ∈ [("StoreProtocol", Fate.registered), ("CacheProtocol", .ambiguous),
      ("ClockProtocol", .clashing), ("AuditProtocol", .unregistered)],
      (ctx.corpus.get? p.1).any (fun c => ctx.runs c.name .registration && c.contract?.isSome &&
        fate ctx c == p.2) = true := by
    decide +kernel
  have hfates : ∀ c ∈ ctx.corpus.declarations, ctx.runs c.name .registration = true →
      c.contract?.isSome = true → ∃! f : Fate, f.Holds ctx c :=
    (plan_accounts entries {} ({} : NameMap String) resolutions).2.1
  refine ⟨by decide +kernel, fun p hp => ?_⟩
  clear_value ctx
  obtain ⟨c, hget, hc⟩ := (Option.any_eq_true _ _).1 (htold p hp)
  simp only [Bool.and_eq_true, beq_iff_eq] at hc
  obtain ⟨⟨hruns, hcontract⟩, hfate⟩ := hc
  obtain ⟨f, hholds, -⟩ := hfates c (List.mem_of_find?_eq_some hget) hruns hcontract
  exact ⟨c, hget, by rwa [← hfate, ← hholds.eq_fate]⟩

end Registration

end Scaffold
