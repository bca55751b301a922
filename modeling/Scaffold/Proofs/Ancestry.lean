/-
**The contracts that a contract refines.**

Contracts may refine each other in any shape, circles and names that nobody declares included.  The
walk through them keeps the names it has seen, so it goes into each contract once; and since every
level of it has a new name, it never runs out of room.  So it finds the contracts that can be
reached and no others.

Main definitions:

* `Scaffold.Corpus.Refines`, `Scaffold.Corpus.Reaches` — refining directly, and in any number of
  steps;
* `Scaffold.Corpus.HasRoom` — a walk that has seen some names can still see all others;
* `Scaffold.Corpus.Walk` — what a walk leaves behind.

Main results:

* `Scaffold.Corpus.walk_ancestryFrom` — what one visit leaves behind;
* `Scaffold.Corpus.mem_ancestry_iff` — **the walk finds exactly the contracts that can be reached**;
* `Scaffold.mem_keepFirst_iff` — of several items with one key the first is kept.
-/

import Mathlib.Data.List.Nodup
import Mathlib.Logic.Relation
import Scaffold.Proofs.MappingExactness
import Scaffold.Requirements

set_option relaxedAutoImplicit false
set_option autoImplicit false

namespace Scaffold

namespace Corpus

variable {corpus : Corpus}

/-! ### Reaching contracts -/

/-- A contract names a declaration of the corpus among those it refines. -/
def Refines (corpus : Corpus) (d p : Declaration) : Prop :=
  ∃ c, d.contract? = some c ∧ ∃ name ∈ c.inherits, corpus.get? name = some p

/-- A declaration can be reached from another one along what contracts refine. -/
def Reaches (corpus : Corpus) : Declaration → Declaration → Prop :=
  Relation.ReflTransGen corpus.Refines

theorem Refines.get?_name {d p : Declaration} (h : corpus.Refines d p) :
    corpus.get? p.name = some p := by
  obtain ⟨c, -, name, -, hget⟩ := h
  rw [name_of_get? hget, hget]

/-- What is reached from a declaration of the corpus is one, too. -/
theorem Reaches.get?_name {d e : Declaration} (h : corpus.Reaches d e)
    (hd : corpus.get? d.name = some d) : corpus.get? e.name = some e := by
  induction h with
  | refl => exact hd
  | tail _ hstep _ => exact hstep.get?_name

/-! ### A walk -/

/-- A walk that has seen some names has room for all others. -/
structure HasRoom (corpus : Corpus) (room : Nat) (seen : List String) : Prop where
  /-- No name was seen twice. -/
  nodup : seen.Nodup
  /-- The names are declared. -/
  declared : ∀ name ∈ seen, corpus.contains name = true
  /-- There are fewer names than the levels that were or can be gone into. -/
  size_lt : corpus.size < seen.length + room

/-- What a walk leaves behind: it has seen more names, and for each new one it has found the
contract and has seen what the contract refines. -/
structure Walk (corpus : Corpus) (seen seen' : List String) (found : List Contract) : Prop where
  /-- No name is forgotten. -/
  subset : seen ⊆ seen'
  /-- No name was seen twice. -/
  nodup : seen'.Nodup
  /-- The names are declared. -/
  declared : ∀ name ∈ seen', corpus.contains name = true
  /-- What a new declaration refines was seen. -/
  closed : ∀ d, d.name ∈ seen' → d.name ∉ seen → corpus.get? d.name = some d →
    ∀ p, corpus.Refines d p → p.name ∈ seen'
  /-- The contract of a new declaration was found. -/
  found : ∀ d, d.name ∈ seen' → d.name ∉ seen → corpus.get? d.name = some d →
    ∀ c, d.contract? = some c → c ∈ found

theorem Walk.refl {seen : List String} (hnodup : seen.Nodup)
    (hdeclared : ∀ name ∈ seen, corpus.contains name = true) : corpus.Walk seen seen [] where
  subset := List.Subset.refl seen
  nodup := hnodup
  declared := hdeclared
  closed := fun _ hmem hnot => absurd hmem hnot
  found := fun _ hmem hnot => absurd hmem hnot

/-- One walk after another. -/
theorem Walk.trans {seen seen' seen'' : List String} {found more : List Contract}
    (h : corpus.Walk seen seen' found) (h' : corpus.Walk seen' seen'' more) :
    corpus.Walk seen seen'' (found ++ more) where
  subset := List.Subset.trans h.subset h'.subset
  nodup := h'.nodup
  declared := h'.declared
  closed := by
    intro d hmem hnot hget p hp
    by_cases hfirst : d.name ∈ seen'
    · exact h'.subset (h.closed d hfirst hnot hget p hp)
    · exact h'.closed d hmem hfirst hget p hp
  found := by
    intro d hmem hnot hget c hc
    by_cases hfirst : d.name ∈ seen'
    · exact List.mem_append_left _ (h.found d hfirst hnot hget c hc)
    · exact List.mem_append_right _ (h'.found d hmem hfirst hget c hc)

/-- A walk uses up no room. -/
theorem Walk.hasRoom {room : Nat} {seen seen' : List String} {found : List Contract}
    (h : corpus.Walk seen seen' found) (hroom : corpus.HasRoom room seen) :
    corpus.HasRoom room seen' where
  nodup := h.nodup
  declared := h.declared
  size_lt := by
    have := hroom.nodup.length_le_of_subset h.subset
    have := hroom.size_lt
    omega

/-! ### Visits -/

/-- One visit after another, to each of the declared names of a list. -/
def visitAll (corpus : Corpus) (visit : List String → Declaration → List String × List Contract)
    (names : List String) (start : List String × List Contract) : List String × List Contract :=
  names.foldl
    (fun (seen, found) parent =>
      match corpus.get? parent with
      | none => (seen, found)
      | some p =>
        let (seen, more) := visit seen p
        (seen, found ++ more))
    start

/-- Visits to all names of a list leave behind what one walk does, and all of them were seen. -/
theorem walk_visitAll {visit : List String → Declaration → List String × List Contract}
    {room : Nat}
    (hvisit : ∀ seen p, corpus.HasRoom room seen → corpus.get? p.name = some p →
      corpus.Walk seen (visit seen p).1 (visit seen p).2 ∧ p.name ∈ (visit seen p).1)
    (names : List String) {seen : List String} (hroom : corpus.HasRoom room seen)
    (found : List Contract) :
    ∃ seen' more, visitAll corpus visit names (seen, found) = (seen', found ++ more) ∧
      corpus.Walk seen seen' more ∧
      ∀ name ∈ names, ∀ p, corpus.get? name = some p → p.name ∈ seen' := by
  induction names generalizing seen found with
  | nil =>
      refine ⟨seen, [], by simp [visitAll], Walk.refl hroom.nodup hroom.declared, ?_⟩
      simp
  | cons name names ih =>
      cases hget : corpus.get? name with
      | none =>
          obtain ⟨seen', more, heq, hwalk, hall⟩ := ih hroom found
          refine ⟨seen', more, ?_, hwalk, ?_⟩
          · rw [← heq, visitAll, List.foldl_cons, hget]
            rfl
          · intro n hn p hp
            rcases List.mem_cons.1 hn with rfl | hn
            · rw [hget] at hp
              cases hp
            · exact hall n hn p hp
      | some q =>
          have hq : corpus.get? q.name = some q := by rw [name_of_get? hget, hget]
          obtain ⟨hfirst, hmem⟩ := hvisit seen q hroom hq
          obtain ⟨seen', more, heq, hwalk, hall⟩ := ih (hfirst.hasRoom hroom) (found ++ (visit seen q).2)
          refine ⟨seen', (visit seen q).2 ++ more, ?_, hfirst.trans hwalk, ?_⟩
          · rw [← List.append_assoc, ← heq, visitAll, List.foldl_cons, hget]
            rfl
          · intro n hn p hp
            rcases List.mem_cons.1 hn with rfl | hn
            · rw [hget] at hp
              cases hp
              exact hwalk.subset hmem
            · exact hall n hn p hp

theorem ancestryFrom_succ (room : Nat) (seen : List String) (d : Declaration) :
    corpus.ancestryFrom (room + 1) seen d =
      if seen.contains d.name then (seen, [])
      else
        match d.contract? with
        | none => (d.name :: seen, [])
        | some c => visitAll corpus (corpus.ancestryFrom room) c.inherits (d.name :: seen, [c]) := by
  rw [ancestryFrom]
  rfl

/-- Going into one more declaration leaves less room for levels, but no less for names. -/
theorem HasRoom.cons {room : Nat} {seen : List String} {d : Declaration}
    (h : corpus.HasRoom (room + 1) seen) (hd : corpus.get? d.name = some d)
    (hnew : d.name ∉ seen) : corpus.HasRoom room (d.name :: seen) where
  nodup := List.nodup_cons.2 ⟨hnew, h.nodup⟩
  declared := by
    intro name hname
    rcases List.mem_cons.1 hname with rfl | hname
    · simp [contains, hd]
    · exact h.declared name hname
  size_lt := by
    have := h.size_lt
    simp only [List.length_cons]
    omega

/-- **What one visit leaves behind**: the declaration was seen, and so were all below it that were
not seen before. -/
theorem walk_ancestryFrom {room : Nat} {seen : List String} {d : Declaration}
    (hroom : corpus.HasRoom room seen) (hd : corpus.get? d.name = some d) :
    corpus.Walk seen (corpus.ancestryFrom room seen d).1 (corpus.ancestryFrom room seen d).2 ∧
      d.name ∈ (corpus.ancestryFrom room seen d).1 := by
  induction room generalizing seen d with
  | zero =>
      have := Mapping.length_le_size hroom.nodup hroom.declared
      have := hroom.size_lt
      omega
  | succ room ih =>
      rw [ancestryFrom_succ]
      split
      · next hseen =>
          exact ⟨Walk.refl hroom.nodup hroom.declared, by simpa using hseen⟩
      · next hnew =>
          have hnew : d.name ∉ seen := by simpa using hnew
          have hcons := hroom.cons hd hnew
          -- a declaration that is new here and has this name is the one visited
          have honly : ∀ e : Declaration, e.name ∈ d.name :: seen → e.name ∉ seen →
              corpus.get? e.name = some e → e = d := by
            intro e hmem hnot hget
            rcases List.mem_cons.1 hmem with heq | hmem
            · rw [heq, hd] at hget
              exact (Option.some.inj hget).symm
            · exact absurd hmem hnot
          split
          · next hnone =>
              refine ⟨⟨List.subset_cons_self _ _, hcons.nodup, hcons.declared, ?_, ?_⟩, by simp⟩
              · rintro e hmem hnot hget p ⟨c, hc, -⟩
                rw [honly e hmem hnot hget, hnone] at hc
                cases hc
              · intro e hmem hnot hget c hc
                rw [honly e hmem hnot hget, hnone] at hc
                cases hc
          · next c hsome =>
              obtain ⟨seen', more, heq, hwalk, hall⟩ :=
                walk_visitAll (fun seen p hseen hp => ih hseen hp) c.inherits hcons [c]
              rw [heq]
              have hmem : d.name ∈ seen' := hwalk.subset (by simp)
              refine ⟨⟨?_, hwalk.nodup, hwalk.declared, ?_, ?_⟩, hmem⟩
              · exact List.Subset.trans (List.subset_cons_self _ _) hwalk.subset
              · intro e he hnot hget p hp
                by_cases hfirst : e.name ∈ d.name :: seen
                · obtain ⟨c', hc', name, hname, hpget⟩ := hp
                  rw [honly e hfirst hnot hget, hsome] at hc'
                  cases hc'
                  exact hall name hname p hpget
                · exact hwalk.closed e he hfirst hget p hp
              · intro e he hnot hget c' hc'
                by_cases hfirst : e.name ∈ d.name :: seen
                · rw [honly e hfirst hnot hget, hsome] at hc'
                  cases hc'
                  simp
                · exact List.mem_append_right _ (hwalk.found e he hfirst hget c' hc')

/-- What was found before some visits and what each of them finds is all that they find. -/
theorem forall_mem_visitAll {visit : List String → Declaration → List String × List Contract}
    {P : Contract → Prop} {names : List String}
    (hvisit : ∀ name ∈ names, ∀ p, corpus.get? name = some p → ∀ seen, ∀ x ∈ (visit seen p).2, P x)
    {seen : List String} {found : List Contract} (hfound : ∀ x ∈ found, P x) :
    ∀ x ∈ (visitAll corpus visit names (seen, found)).2, P x := by
  induction names generalizing seen found with
  | nil => exact hfound
  | cons name names ih =>
      have hrest := fun n hn => hvisit n (List.mem_cons_of_mem _ hn)
      rw [visitAll, List.foldl_cons]
      cases hget : corpus.get? name with
      | none => exact ih hrest hfound
      | some p =>
          refine ih hrest ?_
          intro x hx
          rcases List.mem_append.1 hx with hx | hx
          · exact hfound x hx
          · exact hvisit name (by simp) p hget seen x hx

/-- A visit finds only contracts that can be reached. -/
theorem reaches_of_mem_ancestryFrom {room : Nat} {seen : List String} {d : Declaration}
    {c : Contract} (h : c ∈ (corpus.ancestryFrom room seen d).2) :
    ∃ e, corpus.Reaches d e ∧ e.contract? = some c := by
  induction room generalizing seen d c with
  | zero => simp [ancestryFrom] at h
  | succ room ih =>
      rw [ancestryFrom_succ] at h
      split at h
      · cases h
      · split at h
        · cases h
        · next c' hc' =>
            refine forall_mem_visitAll
              (P := fun x => ∃ e, corpus.Reaches d e ∧ e.contract? = some x) ?_ ?_ c h
            · intro name hname p hp seen x hx
              obtain ⟨e, he, hcontract⟩ := ih hx
              exact ⟨e, .head ⟨c', hc', name, hname, hp⟩ he, hcontract⟩
            · intro x hx
              obtain rfl := List.mem_singleton.1 hx
              exact ⟨d, .refl, hc'⟩

/-- **The walk finds exactly the contracts that can be reached.** -/
theorem mem_ancestry_iff {d : Declaration} (hd : corpus.get? d.name = some d) {c : Contract} :
    c ∈ corpus.ancestry d ↔ ∃ e, corpus.Reaches d e ∧ e.contract? = some c := by
  constructor
  · exact reaches_of_mem_ancestryFrom
  · rintro ⟨e, he, hc⟩
    have hroom : corpus.HasRoom (corpus.size + 1) [] := ⟨List.nodup_nil, by simp, by simp⟩
    obtain ⟨hwalk, hmem⟩ := walk_ancestryFrom hroom hd
    have hseen : e.name ∈ (corpus.ancestryFrom (corpus.size + 1) [] d).1 := by
      clear hc
      induction he with
      | refl => exact hmem
      | tail hreach hstep ih =>
          exact hwalk.closed _ ih (by simp) (Reaches.get?_name hreach hd) _ hstep
    exact hwalk.found e hseen (by simp) (Reaches.get?_name he hd) c hc

end Corpus

/-! ### The first of each key -/

theorem mem_keepFirstFrom_iff {α : Type} {key : α → String} {taken : List String} {xs : List α}
    {x : α} : x ∈ keepFirstFrom key taken xs ↔
      key x ∉ taken ∧ xs.find? (fun y => key y == key x) = some x := by
  induction xs generalizing taken with
  | nil => simp [keepFirstFrom]
  | cons y xs ih =>
      rw [keepFirstFrom, List.find?_cons]
      by_cases heq : key y = key x
      · split
        · next htaken =>
            have htaken : key x ∈ taken := by simpa [heq] using htaken
            simp [ih, htaken]
        · next htaken =>
            have htaken : key x ∉ taken := by simpa [heq] using htaken
            simp [ih, heq, htaken, eq_comm]
      · have hne : (key y == key x) = false := by simpa using heq
        split
        · rw [ih, hne]
        · rw [List.mem_cons, ih, hne]
          constructor
          · rintro (rfl | ⟨hnot, hfind⟩)
            · exact absurd rfl heq
            · exact ⟨fun hmem => hnot (List.mem_cons_of_mem _ hmem), hfind⟩
          · rintro ⟨hnot, hfind⟩
            refine Or.inr ⟨?_, hfind⟩
            rw [List.mem_cons, not_or]
            exact ⟨Ne.symm heq, hnot⟩

/-- What is kept is the first item of its key. -/
theorem mem_keepFirst_iff {α : Type} {key : α → String} {xs : List α} {x : α} :
    x ∈ keepFirst key xs ↔ xs.find? (fun y => key y == key x) = some x := by
  simp [keepFirst, mem_keepFirstFrom_iff]

/-- For every item, one with its key is kept. -/
theorem exists_mem_keepFirst {α : Type} {key : α → String} {xs : List α} {x : α} (h : x ∈ xs) :
    ∃ kept, xs.find? (fun y => key y == key x) = some kept ∧ kept ∈ keepFirst key xs := by
  cases hfind : xs.find? (fun y => key y == key x) with
  | none => exact absurd (List.find?_eq_none.1 hfind x h) (by simp)
  | some kept =>
      have hkey : key kept = key x := by simpa using List.find?_some hfind
      exact ⟨kept, rfl, mem_keepFirst_iff.2 (by rw [hkey, hfind])⟩

end Scaffold
