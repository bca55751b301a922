/-
**The members that a contract requires.**

A contract and those it refines are gone through depth first, and each name is gone into once, even
if contracts refine each other in a circle.  This order is described here as a relation on a list of
pending declarations, without the bound on the depth by which it is computed: a declaration that was
not met before comes next, and what it refines is put in front of what was pending.  The bound is
never reached, since every level has a new name.  So the members of all contracts that can be
reached are required, and of those with one selector the first in this order.

Main definitions:

* `Scaffold.Corpus.refined` — what a declaration refines, in order;
* `Scaffold.Corpus.PreOrder` — the order in which pending declarations and those below them are met;
* `Scaffold.Corpus.Visits` — a walk that goes through pending declarations in this order;
* `Scaffold.Corpus.Collects` — which members are collected along an order.

Main results:

* `Scaffold.Corpus.PreOrder.unique`, `Scaffold.Corpus.PreOrder.names` — there is one order at most,
  and it meets each name once;
* `Scaffold.Corpus.exists_preOrder` — there is an order, and it is the one that is computed;
* `Scaffold.Corpus.PreOrder.contract_iff` — the order meets just the contracts that can be reached;
* `Scaffold.Corpus.requirements_collects` — **the requirements are the members of the contracts that
  can be reached**, the first of each selector.
-/

import Mathlib.Data.List.Perm.Subperm
import Scaffold.Proofs.Ancestry
import Scaffold.Proofs.Resolutions

set_option relaxedAutoImplicit false
set_option autoImplicit false

namespace Scaffold

namespace Corpus

variable {corpus : Corpus}

/-! ### Pre-order -/

/-- The declarations that a contract refines, as far as they are in the corpus; nothing is refined
by what is not a contract. -/
def refined (corpus : Corpus) (d : Declaration) : List Declaration :=
  match d.contract? with
  | none => []
  | some c => c.inherits.filterMap corpus.get?

theorem mem_refined_iff {d p : Declaration} : p ∈ corpus.refined d ↔ corpus.Refines d p := by
  rw [refined, Refines]
  cases d.contract? with
  | none => simp
  | some c => simp

/-- The order in which pending declarations are met, with those that they refine: depth first, from
left to right, and each name once. -/
inductive PreOrder (corpus : Corpus) :
    (seen : List String) → (pending order : List Declaration) → Prop
  /-- Nothing is pending. -/
  | done (seen : List String) : PreOrder corpus seen [] []
  /-- A declaration that was met before is left out. -/
  | again {seen : List String} {d : Declaration} {pending order : List Declaration} :
      d.name ∈ seen → PreOrder corpus seen pending order → PreOrder corpus seen (d :: pending) order
  /-- A declaration that was not met before comes next, and then what it refines. -/
  | visit {seen : List String} {d : Declaration} {pending order : List Declaration} :
      d.name ∉ seen → PreOrder corpus (d.name :: seen) (corpus.refined d ++ pending) order →
      PreOrder corpus seen (d :: pending) (d :: order)

namespace PreOrder

variable {seen : List String} {pending order : List Declaration}

/-- There is one order at most. -/
theorem unique (h : corpus.PreOrder seen pending order) {order' : List Declaration}
    (h' : corpus.PreOrder seen pending order') : order = order' := by
  induction h generalizing order' with
  | done => cases h'; rfl
  | again hseen _ ih =>
      cases h' with
      | again _ h' => exact ih h'
      | visit hnew _ => exact absurd hseen hnew
  | visit hnew _ ih =>
      cases h' with
      | again hseen _ => exact absurd hseen hnew
      | visit _ h' => rw [ih h']

/-- What is met was not seen before, and no name is met twice. -/
theorem names (h : corpus.PreOrder seen pending order) :
    (order.map Declaration.name).Nodup ∧ ∀ e ∈ order, e.name ∉ seen := by
  induction h with
  | done => simp
  | again _ _ ih => exact ih
  | @visit seen d pending order hnew _ ih =>
      obtain ⟨hnodup, hunseen⟩ := ih
      refine ⟨List.nodup_cons.2 ⟨?_, hnodup⟩, ?_⟩
      · intro hmem
        obtain ⟨e, he, hname⟩ := List.mem_map.1 hmem
        exact hunseen e he (by simp [hname])
      · intro e he
        rcases List.mem_cons.1 he with rfl | he
        · exact hnew
        · exact fun hmem => hunseen e he (List.mem_cons_of_mem _ hmem)

/-- What is met can be reached from something pending. -/
theorem reaches (h : corpus.PreOrder seen pending order) {e : Declaration} (he : e ∈ order) :
    ∃ p ∈ pending, corpus.Reaches p e := by
  induction h with
  | done => cases he
  | again _ _ ih =>
      obtain ⟨p, hp, hreach⟩ := ih he
      exact ⟨p, List.mem_cons_of_mem _ hp, hreach⟩
  | @visit seen d pending order _ _ ih =>
      rcases List.mem_cons.1 he with rfl | he
      · exact ⟨e, List.mem_cons_self, .refl⟩
      · obtain ⟨p, hp, hreach⟩ := ih he
        rcases List.mem_append.1 hp with hp | hp
        · exact ⟨d, List.mem_cons_self, .head (mem_refined_iff.1 hp) hreach⟩
        · exact ⟨p, List.mem_cons_of_mem _ hp, hreach⟩

/-- Of everything that is pending, and of everything that is refined by what is met, the name was
seen before or is met. -/
theorem closed (h : corpus.PreOrder seen pending order) :
    (∀ p ∈ pending, p.name ∈ seen ∨ p.name ∈ order.map Declaration.name) ∧
      ∀ e ∈ order, ∀ p, corpus.Refines e p →
        p.name ∈ seen ∨ p.name ∈ order.map Declaration.name := by
  induction h with
  | done => simp
  | @again seen d pending order hseen _ ih =>
      refine ⟨?_, ih.2⟩
      intro p hp
      rcases List.mem_cons.1 hp with rfl | hp
      · exact Or.inl hseen
      · exact ih.1 p hp
  | @visit seen d pending order _ _ ih =>
      have hmet : ∀ name, name ∈ d.name :: seen ∨ name ∈ order.map Declaration.name →
          name ∈ seen ∨ name ∈ (d :: order).map Declaration.name := by
        intro name
        simp only [List.map_cons, List.mem_cons]
        tauto
      refine ⟨?_, ?_⟩
      · intro p hp
        rcases List.mem_cons.1 hp with rfl | hp
        · simp
        · exact hmet _ (ih.1 p (List.mem_append_right _ hp))
      · intro e he p hp
        rcases List.mem_cons.1 he with rfl | he
        · exact hmet _ (ih.1 p (List.mem_append_left _ (mem_refined_iff.2 hp)))
        · exact hmet _ (ih.2 e he p hp)

/-- From a contract that the corpus has under its name, if it has anything there, **just the
contracts are met that can be reached**. -/
theorem contract_iff {d : Declaration} (h : corpus.PreOrder [] [d] order)
    (hd : ∀ e, corpus.get? d.name = some e → e.contract? = d.contract?) {c : Contract} :
    c ∈ order.filterMap Declaration.contract? ↔
      ∃ e, corpus.Reaches d e ∧ e.contract? = some c := by
  have hfrom : ∀ e ∈ order, corpus.Reaches d e := by
    intro e he
    obtain ⟨p, hp, hreach⟩ := h.reaches he
    rwa [List.mem_singleton.1 hp] at hreach
  -- the corpus may have another declaration of the name of `d`, with the same contract
  have hmet : ∀ e, corpus.Reaches d e → ∃ e' ∈ order, e'.contract? = e.contract? := by
    intro e he
    induction he with
    | refl =>
        rcases h.closed.1 d (by simp) with hseen | hmem
        · cases hseen
        · obtain ⟨e, he, hname⟩ := List.mem_map.1 hmem
          refine ⟨e, he, ?_⟩
          rcases (hfrom e he).cases_tail with rfl | ⟨_, -, hstep⟩
          · rfl
          · exact hd e (by rw [← hname]; exact hstep.get?_name)
    | @tail b p _ hstep ih =>
        obtain ⟨e, he, hcontract⟩ := ih
        have hstep' : corpus.Refines e p := by rwa [Refines, hcontract]
        rcases h.closed.2 e he p hstep' with hseen | hmem
        · cases hseen
        · obtain ⟨e', he', hname⟩ := List.mem_map.1 hmem
          refine ⟨e', he', ?_⟩
          rcases (hfrom e' he').cases_tail with rfl | ⟨_, -, hlast⟩
          · exact (hd p (by rw [hname]; exact hstep.get?_name)).symm
          · have := hlast.get?_name
            rw [hname, hstep.get?_name] at this
            rw [Option.some.inj this]
  rw [List.mem_filterMap]
  constructor
  · rintro ⟨e, he, hc⟩
    exact ⟨e, hfrom e he, hc⟩
  · rintro ⟨e, he, hc⟩
    obtain ⟨e', he', hcontract⟩ := hmet e he
    exact ⟨e', he', hcontract.trans hc⟩

end PreOrder

/-! ### The walk follows the order -/

/-- A walk that has seen some of a list of names has levels for all others. -/
structure Fits (names : List String) (room : Nat) (seen : List String) : Prop where
  /-- No name was seen twice. -/
  nodup : seen.Nodup
  /-- The names are in the list. -/
  subset : seen ⊆ names
  /-- There are no more names than those seen and the levels that are left. -/
  length_le : names.length ≤ seen.length + room

/-- Without a level left, all names were seen. -/
theorem Fits.mem {names seen : List String} (h : Fits names 0 seen) {name : String}
    (hname : name ∈ names) : name ∈ seen :=
  ((List.subperm_of_subset h.nodup h.subset).perm_of_length_le h.length_le).mem_iff.2 hname

/-- Going into a declaration whose name is new takes one level. -/
theorem Fits.cons {names seen : List String} {room : Nat} {name : String}
    (h : Fits names (room + 1) seen) (hname : name ∈ names) (hnew : name ∉ seen) :
    Fits names room (name :: seen) where
  nodup := List.nodup_cons.2 ⟨hnew, h.nodup⟩
  subset := List.cons_subset.2 ⟨hname, h.subset⟩
  length_le := by
    have := h.length_le
    simp only [List.length_cons]
    omega

/-- A walk goes through pending declarations in pre-order: from the names that it has seen, and with
the contracts that it finds. -/
structure Visits (corpus : Corpus) (names seen seen' : List String) (pending : List Declaration)
    (found : List Contract) : Prop where
  /-- No name is forgotten. -/
  suffix : seen <:+ seen'
  /-- No name was seen twice. -/
  nodup : seen'.Nodup
  /-- All names are among those that there are. -/
  subset : seen' ⊆ names
  /-- Whatever is pending behind, its order comes after that of what is met here. -/
  preOrder : ∀ {later order : List Declaration}, corpus.PreOrder seen' later order →
    ∃ first, corpus.PreOrder seen (pending ++ later) (first ++ order) ∧
      first.filterMap Declaration.contract? = found

namespace Visits

variable {names seen seen' seen'' : List String} {pending later : List Declaration}
  {found more : List Contract} {room : Nat}

theorem fits (h : corpus.Visits names seen seen' pending found) (hseen : Fits names room seen) :
    Fits names room seen' where
  nodup := h.nodup
  subset := h.subset
  length_le := by
    have := h.suffix.length_le
    have := hseen.length_le
    omega

/-- Nothing is pending. -/
theorem nil (hseen : Fits names room seen) : corpus.Visits names seen seen [] [] where
  suffix := List.suffix_rfl
  nodup := hseen.nodup
  subset := hseen.subset
  preOrder h := ⟨[], h, rfl⟩

/-- One walk after another. -/
theorem append (h : corpus.Visits names seen seen' pending found)
    (h' : corpus.Visits names seen' seen'' later more) :
    corpus.Visits names seen seen'' (pending ++ later) (found ++ more) where
  suffix := h.suffix.trans h'.suffix
  nodup := h'.nodup
  subset := h'.subset
  preOrder hrest := by
    obtain ⟨second, hsecond, rfl⟩ := h'.preOrder hrest
    obtain ⟨first, hfirst, rfl⟩ := h.preOrder hsecond
    exact ⟨first ++ second, by simpa using hfirst, List.filterMap_append⟩

/-- A declaration that was met before. -/
theorem again {d : Declaration} (hseen : Fits names room seen) (hmet : d.name ∈ seen) :
    corpus.Visits names seen seen [d] [] where
  suffix := List.suffix_rfl
  nodup := hseen.nodup
  subset := hseen.subset
  preOrder h := ⟨[], .again hmet h, rfl⟩

/-- A declaration that is new, and then what it refines. -/
theorem visit {d : Declaration} (hnew : d.name ∉ seen)
    (h : corpus.Visits names (d.name :: seen) seen' (corpus.refined d) found) :
    corpus.Visits names seen seen' [d] (d.contract?.toList ++ found) where
  suffix := (List.suffix_cons _ _).trans h.suffix
  nodup := h.nodup
  subset := h.subset
  preOrder hrest := by
    obtain ⟨first, hfirst, rfl⟩ := h.preOrder hrest
    refine ⟨d :: first, .visit hnew hfirst, ?_⟩
    cases hc : d.contract? <;> simp [hc]

end Visits

section Walk

variable {names : List String} {room : Nat}

/-- Visits to the declared names of a list go through what these names declare. -/
theorem visits_visitAll {visit : List String → Declaration → List String × List Contract}
    (hnames : ∀ name p, corpus.get? name = some p → name ∈ names)
    (hvisit : ∀ seen p, Fits names room seen → p.name ∈ names →
      corpus.Visits names seen (visit seen p).1 [p] (visit seen p).2)
    (parents : List String) {seen : List String} (hseen : Fits names room seen)
    (found : List Contract) :
    ∃ more, (visitAll corpus visit parents (seen, found)).2 = found ++ more ∧
      corpus.Visits names seen (visitAll corpus visit parents (seen, found)).1
        (parents.filterMap corpus.get?) more := by
  induction parents generalizing seen found with
  | nil => exact ⟨[], by simp [visitAll], Visits.nil hseen⟩
  | cons name parents ih =>
      rw [visitAll, List.foldl_cons]
      cases hget : corpus.get? name with
      | none =>
          rw [List.filterMap_cons_none hget]
          exact ih hseen found
      | some p =>
          rw [List.filterMap_cons_some hget]
          have hp : p.name ∈ names := by
            rw [name_of_get? hget]
            exact hnames name p hget
          have hfirst := hvisit seen p hseen hp
          obtain ⟨more, heq, hrest⟩ := ih (hfirst.fits hseen) (found ++ (visit seen p).2)
          exact ⟨(visit seen p).2 ++ more, by rw [← List.append_assoc]; exact heq,
            hfirst.append hrest⟩

/-- **The walk follows the pre-order**, as long as there are levels for all names. -/
theorem visits_ancestryFrom (hnames : ∀ name p, corpus.get? name = some p → name ∈ names)
    {seen : List String} {d : Declaration} (hseen : Fits names room seen) (hd : d.name ∈ names) :
    corpus.Visits names seen (corpus.ancestryFrom room seen d).1 [d]
      (corpus.ancestryFrom room seen d).2 := by
  induction room generalizing seen d with
  | zero => exact Visits.again hseen (hseen.mem hd)
  | succ room ih =>
      rw [ancestryFrom_succ]
      split
      · next hmet => exact Visits.again hseen (by simpa using hmet)
      · next hnew =>
          have hnew : d.name ∉ seen := by simpa using hnew
          have hcons := hseen.cons hd hnew
          cases hcontract : d.contract? with
          | none =>
              have hnothing : corpus.refined d = [] := by rw [refined, hcontract]
              have := Visits.visit hnew (hnothing ▸ Visits.nil hcons)
              rwa [hcontract] at this
          | some c =>
              obtain ⟨more, heq, hall⟩ :=
                visits_visitAll hnames (fun seen p hseen hp => ih hseen hp) c.inherits hcons [c]
              have hrefined : corpus.refined d = c.inherits.filterMap corpus.get? := by
                rw [refined, hcontract]
              have := Visits.visit hnew (hrefined ▸ hall)
              rw [hcontract] at this
              rwa [heq]

end Walk

/-- **There is a pre-order**, and the contracts of an ancestry are in it. -/
theorem exists_preOrder (corpus : Corpus) (d : Declaration) :
    ∃ order, corpus.PreOrder [] [d] order ∧
      corpus.ancestry d = order.filterMap Declaration.contract? := by
  let names := d.name :: corpus.declarations.map Declaration.name
  have hnames : ∀ name p, corpus.get? name = some p → name ∈ names := by
    intro name p hget
    rw [← name_of_get? hget]
    exact List.mem_cons_of_mem _ (List.mem_map_of_mem (List.mem_of_find?_eq_some hget))
  have hfits : Fits names (corpus.size + 1) [] :=
    ⟨List.nodup_nil, List.nil_subset _, by simp [names, declarations, size]⟩
  obtain ⟨order, horder, hfound⟩ :=
    (visits_ancestryFrom hnames hfits List.mem_cons_self).preOrder (.done _)
  exact ⟨order, by simpa using horder, hfound.symm⟩

end Corpus

/-! ### The first of each key -/

section KeepFirst

variable {α : Type} {key : α → String}

theorem keepFirstFrom_sublist (taken : List String) (xs : List α) :
    (keepFirstFrom key taken xs).Sublist xs := by
  induction xs generalizing taken with
  | nil => exact .slnil
  | cons x xs ih =>
      rw [keepFirstFrom]
      split
      · exact (ih taken).cons x
      · exact (ih (key x :: taken)).cons_cons x

/-- No key is kept twice. -/
theorem nodup_map_keepFirstFrom (taken : List String) (xs : List α) :
    ((keepFirstFrom key taken xs).map key).Nodup := by
  induction xs generalizing taken with
  | nil => exact List.nodup_nil
  | cons x xs ih =>
      rw [keepFirstFrom]
      split
      · exact ih taken
      · refine List.nodup_cons.2 ⟨?_, ih _⟩
        intro hmem
        obtain ⟨y, hy, hkey⟩ := List.mem_map.1 hmem
        exact (mem_keepFirstFrom_iff.1 hy).1 (by simp [hkey])

/-- What is found first in lists that follow each other is found first in one of them, and in none
of those before it. -/
theorem find?_flatMap_eq_some_iff {β : Type} {p : α → Bool} {f : β → List α} {bs : List β} {x : α} :
    (bs.flatMap f).find? p = some x ↔
      ∃ earlier b later, bs = earlier ++ b :: later ∧ (f b).find? p = some x ∧
        ∀ b' ∈ earlier, ∀ y ∈ f b', p y = false := by
  rw [List.find?_flatMap, List.findSome?_eq_some_iff]
  simp only [List.find?_eq_none, Bool.not_eq_true]

end KeepFirst

namespace Corpus

variable {corpus : Corpus}

/-! ### Collecting members -/

/-- The members that are collected along an order of declarations, from the contracts that can be
reached from one: each key once, and each as it comes first. -/
structure Collects (corpus : Corpus) (d : Declaration) (order : List Declaration) {α : Type}
    (key : α → String) (members : Contract → List α) (kept : List α) : Prop where
  /-- No key is kept twice. -/
  nodup : (kept.map key).Nodup
  /-- The keys are those of the members of the contracts that can be reached. -/
  keys : ∀ k, k ∈ kept.map key ↔
    ∃ e c, corpus.Reaches d e ∧ e.contract? = some c ∧ k ∈ (members c).map key
  /-- What is kept is the first of its key in a contract, and no contract that is met before has a
  member of this key. -/
  first : ∀ x, x ∈ kept ↔
    ∃ earlier c later, order.filterMap Declaration.contract? = earlier ++ c :: later ∧
      (members c).find? (fun y => key y == key x) = some x ∧
      ∀ c' ∈ earlier, ∀ y ∈ members c', key y ≠ key x
  /-- What is kept stays in order. -/
  sublist : kept.Sublist ((order.filterMap Declaration.contract?).flatMap members)

/-- Keeping the first member of each key collects them. -/
theorem collects_keepFirst {d : Declaration} {order : List Declaration}
    (horder : corpus.PreOrder [] [d] order)
    (hd : ∀ e, corpus.get? d.name = some e → e.contract? = d.contract?) {α : Type}
    (key : α → String) (members : Contract → List α) :
    corpus.Collects d order key members
      (keepFirst key ((order.filterMap Declaration.contract?).flatMap members)) where
  nodup := nodup_map_keepFirstFrom [] _
  keys := by
    intro k
    rw [List.mem_map]
    constructor
    · rintro ⟨x, hx, rfl⟩
      obtain ⟨c, hc, hmem⟩ := List.mem_flatMap.1 ((keepFirstFrom_sublist [] _).subset hx)
      obtain ⟨e, he, hcontract⟩ := (horder.contract_iff hd).1 hc
      exact ⟨e, c, he, hcontract, List.mem_map_of_mem hmem⟩
    · rintro ⟨e, c, he, hcontract, hk⟩
      obtain ⟨x, hx, rfl⟩ := List.mem_map.1 hk
      have hc := (horder.contract_iff hd).2 ⟨e, he, hcontract⟩
      obtain ⟨kept, hfind, hkept⟩ :=
        @exists_mem_keepFirst _ key _ x (List.mem_flatMap.2 ⟨c, hc, hx⟩)
      exact ⟨kept, hkept, by simpa using List.find?_some hfind⟩
  first := by
    intro x
    rw [mem_keepFirst_iff, find?_flatMap_eq_some_iff]
    simp only [beq_eq_false_iff_ne]
  sublist := keepFirstFrom_sublist [] _

/-- **The requirements of a contract are the members of the contracts that can be reached from it.**
There is one pre-order of the contract and those that it refines, whatever they refine in turn, and
the methods and the initializers are collected along it.  The contract is any declaration of the
corpus, or one of which the corpus has nothing under the name, or the same contract. -/
theorem requirements_collects {d : Declaration}
    (hd : (corpus.IsIndexed ∧ d ∈ corpus.declarations) ∨
      ∀ e, corpus.get? d.name = some e → e.contract? = d.contract?) :
    ∃ order, (∀ order', corpus.PreOrder [] [d] order' ↔ order' = order) ∧
      corpus.Collects d order Method.selector Contract.methods (corpus.requirements d).methods ∧
      corpus.Collects d order Initializer.selector Contract.initializers
        (corpus.requirements d).initializers := by
  have hd : ∀ e, corpus.get? d.name = some e → e.contract? = d.contract? := by
    rcases hd with ⟨hindexed, hmem⟩ | hd
    · exact fun e he => congrArg Declaration.contract? (hindexed.eq_of_get?_name hmem he)
    · exact hd
  obtain ⟨order, horder, hancestry⟩ := corpus.exists_preOrder d
  refine ⟨order, fun order' => ⟨fun h => h.unique horder, fun h => h ▸ horder⟩, ?_, ?_⟩
  · simp only [requirements, hancestry]
    exact collects_keepFirst horder hd Method.selector Contract.methods
  · simp only [requirements, hancestry]
    exact collects_keepFirst horder hd Initializer.selector Contract.initializers

/-- A contract that refines two others and a name that is not declared.  Both refine a third one,
which refines the first again. -/
def feed : Declaration :=
  { name := "Feed",
    shape := .contract
      { methods := [⟨"load", [], {}, .void⟩], inherits := ["Lines", "Pages", "Lost"] } }

/-- The corpus of `feed` and of the contracts that it refines. -/
def feeds : Corpus :=
  let lines : Declaration :=
    { name := "Lines",
      shape := .contract
        { methods := [⟨"next", [], {}, .primitive "Int"⟩], inherits := ["Items"] } }
  let pages : Declaration :=
    { name := "Pages",
      shape := .contract
        { methods := [⟨"next", [], {}, .primitive "Bool"⟩, ⟨"turn", [], {}, .void⟩],
          inherits := ["Items"] } }
  let items : Declaration :=
    { name := "Items",
      shape := .contract
        { methods := [⟨"load", [], { isAsync := true }, .void⟩, ⟨"turn", [], {}, .primitive "Int"⟩],
          initializers := [⟨[], {}⟩], inherits := ["Feed"] } }
  ⟨[⟨pages, []⟩, ⟨items, []⟩, ⟨lines, []⟩, ⟨{ feed with position := 3 }, []⟩]⟩

theorem requirements_collects_feed :
    (∀ e, feeds.get? "Feed" = some e → e.contract? = feed.contract?) ∧
      ∃ order, (∀ order', feeds.PreOrder [] [feed] order' ↔ order' = order) ∧
        feeds.Collects feed order Method.selector Contract.methods
          [⟨"load", [], {}, .void⟩, ⟨"next", [], {}, .primitive "Int"⟩,
            ⟨"turn", [], {}, .primitive "Int"⟩] ∧
        feeds.Collects feed order Initializer.selector Contract.initializers [⟨[], {}⟩] := by
  have hd : ∀ e, feeds.get? feed.name = some e → e.contract? = feed.contract? := by
    intro e he
    obtain rfl : _ = e := Option.some.inj he
    rfl
  have hrequired : feeds.requirements feed =
      ⟨[⟨"load", [], {}, .void⟩, ⟨"next", [], {}, .primitive "Int"⟩,
        ⟨"turn", [], {}, .primitive "Int"⟩], [⟨[], {}⟩]⟩ := by
    decide
  have h := requirements_collects (.inr hd)
  rw [hrequired] at h
  exact ⟨hd, h⟩

end Corpus

end Scaffold
