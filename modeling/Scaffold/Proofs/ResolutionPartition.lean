/-
**Resolutions divide what markers request.**

The tags that the markers of a declaration spell select strategies, and those that are enabled are
requested.  A requested strategy either applies, or one problem says that it does not; nothing else
applies.  The markers count only through the set of tags that they spell, so that it does not matter
in which order, how often and in which of its spellings a tag is written, and what else is written
there.

Main definitions:

* `Scaffold.Respelled` — markers that ask for the same, written another way;
* `Scaffold.Requests` — markers select a strategy, and it is enabled;
* `Scaffold.Corpus.HitsFirst` — the transfer object under the first suffix that has one;
* `Scaffold.Resolution.Divides` — a resolution and the problems beside it divide what is requested.

Main results:

* `Scaffold.respelled_iff` — markers are respelled if and only if they spell the same tags;
* `Scaffold.countP_refuses` — how many problems say that a strategy does not apply;
* `Scaffold.resolve_divides` — **a declaration with a recognized marker is resolved, what is
  requested is divided, and respelled markers resolve alike**.
-/

import Mathlib.Data.List.Perm.Basic
import Mathlib.Data.List.Dedup
import Scaffold.Proofs.Resolutions

set_option relaxedAutoImplicit false
set_option autoImplicit false

namespace Scaffold

/-! ### Markers that ask for the same -/

/-- Markers written another way: in another order, with one of them repeated, with another spelling
of a tag, or with one that spells no tag. -/
inductive Respelled : List String → List String → Prop
  /-- The markers stand in another order. -/
  | perm {ms ns : List String} : ms.Perm ns → Respelled ms ns
  /-- A marker is repeated. -/
  | again {m : String} {ms : List String} : m ∈ ms → Respelled ms (m :: ms)
  /-- A marker spells the same tag in another way. -/
  | spelling {m n : String} {ms : List String} {a : Tag} :
      Tag.ofMarker? m = some a → Tag.ofMarker? n = some a → Respelled (m :: ms) (n :: ms)
  /-- A marker that spells no tag is added. -/
  | unknown {m : String} {ms : List String} : Tag.ofMarker? m = none → Respelled ms (m :: ms)
  /-- What was changed is changed back. -/
  | symm {ms ns : List String} : Respelled ms ns → Respelled ns ms
  /-- One change after another. -/
  | trans {ms ns os : List String} : Respelled ms ns → Respelled ns os → Respelled ms os

theorem Tag.ofMarker?_word (a : Tag) : ofMarker? a.word = some a := by
  cases a <;> decide +kernel

/-- Only the tags that the markers spell matter. -/
theorem tagsOf_congr {ms ns : List String}
    (h : ∀ a, (∃ m ∈ ms, Tag.ofMarker? m = some a) ↔ ∃ n ∈ ns, Tag.ofMarker? n = some a) :
    tagsOf ms = tagsOf ns := by
  refine List.filter_congr fun a _ => ?_
  rw [Bool.eq_iff_iff, List.contains_iff_mem, List.contains_iff_mem, List.mem_filterMap,
    List.mem_filterMap]
  exact h a

namespace Respelled

theorem tagsOf_eq {ms ns : List String} (h : Respelled ms ns) : tagsOf ms = tagsOf ns := by
  induction h with
  | perm hperm => exact tagsOf_congr fun a => by simp only [hperm.mem_iff]
  | again hm =>
      refine tagsOf_congr fun a => ?_
      rw [List.exists_mem_cons_iff]
      exact ⟨Or.inr, fun h => h.elim (fun ha => ⟨_, hm, ha⟩) id⟩
  | spelling hm hn =>
      refine tagsOf_congr fun a => ?_
      rw [List.exists_mem_cons_iff, List.exists_mem_cons_iff, hm, hn]
  | unknown hm =>
      refine tagsOf_congr fun a => ?_
      rw [List.exists_mem_cons_iff, hm]
      simp
  | symm _ ih => exact ih.symm
  | trans _ _ ih ih' => exact ih.trans ih'

/-- Markers may be changed behind another one. -/
theorem cons {ms ns : List String} (h : Respelled ms ns) (m : String) :
    Respelled (m :: ms) (m :: ns) := by
  induction h with
  | perm hperm => exact .perm (hperm.cons m)
  | @again n ms hn =>
      exact (again (List.mem_cons_of_mem m hn)).trans (.perm (.swap m n ms))
  | @spelling n o ms a hn ho =>
      exact (perm (.swap n m ms)).trans ((spelling hn ho).trans (.perm (.swap m o ms)))
  | @unknown n ms hn => exact (unknown hn).trans (.perm (.swap m n ms))
  | symm _ ih => exact ih.symm
  | trans _ _ ih ih' => exact ih.trans ih'

/-- Repetitions can be left out. -/
theorem dedup (ms : List String) : Respelled ms ms.dedup := by
  induction ms with
  | nil => exact .perm (.refl _)
  | cons m ms ih =>
      by_cases hm : m ∈ ms
      · rw [List.dedup_cons_of_mem hm]
        exact (again hm).symm.trans ih
      · rw [List.dedup_cons_of_notMem hm]
        exact ih.cons m

/-- Markers can be replaced by the main spellings of the tags that they spell. -/
theorem words (ms : List String) : Respelled ms ((ms.filterMap Tag.ofMarker?).map Tag.word) := by
  induction ms with
  | nil => exact .perm (.refl _)
  | cons m ms ih =>
      cases hm : Tag.ofMarker? m with
      | none =>
          rw [List.filterMap_cons_none hm]
          exact (unknown hm).symm.trans ih
      | some a =>
          rw [List.filterMap_cons_some hm, List.map_cons]
          exact (spelling hm a.ofMarker?_word).trans (ih.cons a.word)

end Respelled

/-- **Markers are respelled if and only if they spell the same tags.** -/
theorem respelled_iff {ms ns : List String} : Respelled ms ns ↔ tagsOf ms = tagsOf ns := by
  refine ⟨Respelled.tagsOf_eq, fun h => ?_⟩
  have hwords : ∀ w, w ∈ (ms.filterMap Tag.ofMarker?).map Tag.word ↔
      w ∈ (ns.filterMap Tag.ofMarker?).map Tag.word := by
    have htags : ∀ a, a ∈ ms.filterMap Tag.ofMarker? ↔ a ∈ ns.filterMap Tag.ofMarker? := by
      intro a
      rw [List.mem_filterMap, List.mem_filterMap, ← mem_tagsOf, ← mem_tagsOf, h]
    intro w
    simp only [List.mem_map, htags]
  refine (Respelled.words ms).trans ((Respelled.dedup _).trans ?_)
  refine .trans (.perm ?_) ((Respelled.words ns).trans (Respelled.dedup _)).symm
  refine (List.perm_ext_iff_of_nodup (List.nodup_dedup _) (List.nodup_dedup _)).2 fun w => ?_
  rw [List.mem_dedup, List.mem_dedup, hwords]

/-! ### What is requested -/

/-- The place of a strategy in the order of strategies. -/
def Strategy.rank (s : Strategy) : Nat := Strategy.all.idxOf s

/-- A recognized marker selects the strategy, and it is enabled. -/
def Requests (settings : Settings) (markers : List String) (s : Strategy) : Prop :=
  settings.runs s = true ∧ ∃ m ∈ markers, (Tag.ofMarker? m).bind Tag.strategy? = some s

theorem mem_requested_iff {settings : Settings} {markers : List String} {s : Strategy} :
    s ∈ requested settings (tagsOf markers) ↔ Requests settings markers s := by
  simp only [requested, Requests, List.mem_filter, List.mem_filterMap, mem_tagsOf,
    Option.bind_eq_some_iff]
  constructor
  · rintro ⟨⟨a, ⟨m, hm, ha⟩, hs⟩, hruns⟩
    exact ⟨hruns, m, hm, a, ha, hs⟩
  · rintro ⟨hruns, m, hm, a, ha, hs⟩
    exact ⟨⟨a, ⟨m, hm, ha⟩, hs⟩, hruns⟩

/-- What is requested stands in the order of strategies, each once. -/
theorem requested_sublist (settings : Settings) (markers : List String) :
    (requested settings (tagsOf markers)).Sublist Strategy.all := by
  have hall : Tag.all.filterMap Tag.strategy? = Strategy.all := rfl
  rw [← hall]
  exact List.filter_sublist.trans (List.filter_sublist.filterMap _)

/-! ### What is refused -/

/-- Whether a problem says that a strategy does not apply to a declaration. -/
def Problem.refuses (name : String) (s : Strategy) : Problem → Bool
  | .unresolvable declaration tag _ => declaration == name && tag.word == s.word
  | _ => false

theorem countP_refuses_looseComposition (name : String) (s : Strategy) (tags : List Tag) :
    (looseComposition name tags).countP (Problem.refuses name s) = 0 := by
  have hword : Tag.composition.word ≠ s.word := by cases s <;> decide
  rw [List.countP_eq_zero]
  intro p hp
  simp only [looseComposition] at hp
  split at hp
  · rw [List.mem_singleton.1 hp]
    simp [Problem.refuses, hword]
  · cases hp

/-- Of the strategies that something stands in the way of, one problem each says so. -/
theorem countP_refuses (name : String) (obstacle : Strategy → Option Obstacle)
    {wanted : List Strategy} (hwanted : wanted.Nodup) (s : Strategy) :
    (wanted.filterMap fun t => (obstacle t).map fun o => Problem.unresolvable name t.tag o).countP
        (Problem.refuses name s) =
      if s ∈ wanted ∧ (obstacle s).isSome = true then 1 else 0 := by
  induction wanted with
  | nil => rfl
  | cons t wanted ih =>
      obtain ⟨ht, hwanted⟩ := List.nodup_cons.1 hwanted
      have hrefuses : ∀ o, (Problem.unresolvable name t.tag o).refuses name s = decide (t = s) := by
        intro o
        rw [Bool.eq_iff_iff]
        simp [Problem.refuses, Strategy.word_inj]
      cases hobstacle : obstacle t with
      | none =>
          rw [List.filterMap_cons_none (by simp [hobstacle]), ih hwanted]
          by_cases hts : s = t
          · simp [hts, hobstacle, ht]
          · simp [hts]
      | some o =>
          rw [List.filterMap_cons_some (by rw [hobstacle, Option.map_some]), List.countP_cons,
            ih hwanted, hrefuses]
          by_cases hts : s = t
          · simp [hts, hobstacle, ht]
          · simp [hts, Ne.symm hts]

/-! ### Resolutions -/

/-- A declaration is the transfer object found under the first suffix that has one. -/
def Corpus.HitsFirst (corpus : Corpus) (naming : Naming) (name : String) (d : Declaration) : Prop :=
  ∃ before suffix after, naming.dtoSuffixes = before ++ suffix :: after ∧
    (∀ other ∈ before, corpus.get? (name ++ other) = none) ∧ corpus.get? (name ++ suffix) = some d

theorem Corpus.hitsFirst_of_counterpart? {corpus : Corpus} {naming : Naming} {name : String}
    {d : Declaration} (h : corpus.counterpart? naming name = some d) :
    corpus.HitsFirst naming name d := by
  rw [counterpart?, Naming.counterparts, List.findSome?_map, List.findSome?_eq_some_iff] at h
  obtain ⟨before, suffix, after, hsuffixes, hd, hbefore⟩ := h
  exact ⟨before, suffix, after, hsuffixes, hbefore, hd⟩

/-- A mapping that nothing stands in the way of has a transfer object of the same form. -/
theorem exists_hitsFirst_of_obstacle? {corpus : Corpus} {naming : Naming} {d : Declaration}
    (h : obstacle? corpus naming d .mapping = none) :
    ∃ source, corpus.counterpart? naming d.name = some source ∧
      corpus.HitsFirst naming d.name source ∧ source.form = d.form := by
  simp only [obstacle?, mappable] at h
  split at h
  · next source hok =>
      split at hok
      · cases hok
      · split at hok
        · cases hok
        · next s hs =>
            split at hok
            · next hform => exact ⟨s, hs, Corpus.hitsFirst_of_counterpart? hs, hform⟩
            · cases hok
  · cases h

/-- A resolution and the problems beside it divide what the markers of a declaration request. -/
structure Resolution.Divides (corpus : Corpus) (settings : Settings) (e : Entry) (r : Resolution)
    (problems : List Problem) : Prop where
  /-- What is requested either applies or is refused by exactly one problem. -/
  applies_or_refused : ∀ s, Requests settings e.markers s →
    (s ∈ r.strategies ∧ problems.countP (Problem.refuses e.declaration.name s) = 0) ∨
      (s ∉ r.strategies ∧ problems.countP (Problem.refuses e.declaration.name s) = 1)
  /-- Nothing else applies. -/
  requested : ∀ s ∈ r.strategies, Requests settings e.markers s
  /-- What applies stands in the order of strategies, each once. -/
  ordered : r.strategies.Pairwise fun s t => s.rank < t.rank
  /-- There is a counterpart if and only if the mapping applies. -/
  counterpart_iff : r.counterpart.isSome = true ↔ .mapping ∈ r.strategies
  /-- The counterpart is the transfer object under the first suffix that has one, with the form of
  the declaration. -/
  counterpart : ∀ name, r.counterpart = some name →
    ∃ d, corpus.HitsFirst settings.naming e.declaration.name d ∧ d.name = name ∧
      d.form = e.declaration.form

/-- What is requested is divided by whether something stands in its way. -/
theorem divides_of_resolve {corpus : Corpus} {settings : Settings} {e : Entry} {r : Resolution}
    {problems : List Problem} (h : resolve corpus settings e = (some r, problems)) :
    r.Divides corpus settings e problems := by
  have hsublist := requested_sublist settings e.markers
  have hordered : Strategy.all.Pairwise fun s t => s.rank < t.rank := by decide
  have hnodup : (requested settings (tagsOf e.markers)).Nodup :=
    (by decide : Strategy.all.Nodup).sublist hsublist
  have hcounterpart := @exists_hitsFirst_of_obstacle? corpus settings.naming e.declaration
  simp only [resolve] at h
  split at h
  · cases h
  cases h
  refine ⟨?_, ?_, ?_, ?_, ?_⟩
  · intro s hs
    simp only [List.countP_append, countP_refuses_looseComposition, countP_refuses _ _ hnodup,
      List.mem_filter, mem_requested_iff.2 hs, true_and, Nat.zero_add]
    cases obstacle? corpus settings.naming e.declaration s with
    | none => exact .inl ⟨rfl, rfl⟩
    | some o => exact .inr ⟨by simp, rfl⟩
  · intro s hs
    exact mem_requested_iff.1 (List.mem_filter.1 hs).1
  · exact hordered.sublist (List.filter_sublist.trans hsublist)
  · simp only [List.contains_iff_mem]
    split
    · next hmapping =>
        obtain ⟨source, hsource, -⟩ := hcounterpart (by simpa using (List.mem_filter.1 hmapping).2)
        simp [hsource, hmapping]
    · next hmapping => simp [hmapping]
  · intro name hname
    simp only [List.contains_iff_mem] at hname
    split at hname
    · next hmapping =>
        obtain ⟨source, hsource, hhits, hform⟩ :=
          hcounterpart (by simpa using (List.mem_filter.1 hmapping).2)
        rw [hsource] at hname
        exact ⟨source, hhits, Option.some.inj hname, hform⟩
    · cases hname

/-- A declaration is resolved if and only if a marker above it is recognized. -/
theorem isSome_resolve_iff (corpus : Corpus) (settings : Settings) (e : Entry) :
    (resolve corpus settings e).1.isSome = true ↔
      ∃ m ∈ e.markers, (Tag.ofMarker? m).isSome = true := by
  have htags : (tagsOf e.markers).isEmpty = false ↔
      ∃ m ∈ e.markers, (Tag.ofMarker? m).isSome = true := by
    rw [List.isEmpty_eq_false_iff_exists_mem]
    simp only [mem_tagsOf, Option.isSome_iff_exists]
    exact ⟨fun ⟨a, m, hm, ha⟩ => ⟨m, hm, a, ha⟩, fun ⟨m, hm, a, ha⟩ => ⟨a, m, hm, ha⟩⟩
  rw [← htags]
  simp only [resolve]
  split
  · next hempty => simp [hempty]
  · next hempty => simpa using hempty

/-- **A declaration is resolved if and only if a marker above it is recognized; then its resolution
and the problems beside it divide what is requested; and respelled markers resolve alike.** -/
theorem resolve_divides (corpus : Corpus) (settings : Settings) (e : Entry) :
    ((resolve corpus settings e).1.isSome = true ↔
        ∃ m ∈ e.markers, (Tag.ofMarker? m).isSome = true) ∧
      (∀ r, (resolve corpus settings e).1 = some r →
        r.Divides corpus settings e (resolve corpus settings e).2) ∧
      ∀ markers, Respelled e.markers markers →
        resolve corpus settings { e with markers } = resolve corpus settings e := by
  refine ⟨isSome_resolve_iff corpus settings e, ?_, ?_⟩
  · intro r hr
    exact divides_of_resolve (Prod.ext hr rfl)
  · intro markers h
    simp only [resolve, respelled_iff.1 h]

end Scaffold
