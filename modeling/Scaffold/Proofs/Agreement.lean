/-
**Corpora that look alike.**

A generator learns about other declarations by looking up names, and the names that it looks up come
from the declarations it already has: they are mentioned in their members, or made from their names
or from a mention.  So two corpora that have the same under a set of names, and in which this set is
closed under what its declarations lead to, give the same code for the declarations of the set,
whatever else they hold and in whatever order.  The room that searches are given grows with the
corpus, but it is never used up, so it makes no difference.

Main definitions:

* `Scaffold.Declaration.Alike` — declarations that differ at most in where they stand;
* `Scaffold.Declaration.Consults` — the names that are looked up on account of a declaration;
* `Scaffold.Corpus.Agrees` — corpora with the same under a closed set of names;
* `Scaffold.Corpus.Twins` — declarations of one name of the set, in two corpora;
* `Scaffold.Context.Agrees` — the same of what generators see.

Main results:

* `Scaffold.Corpus.Agrees.requirements_eq` — alike contracts require the same;
* `Scaffold.FixtureTable.value?_congr` — the same types have the same values;
* `Scaffold.FailingMock.generate_congr`, `Scaffold.Stub.generate_congr` — **failing mocks and stubs
  are the same**.
-/

import Scaffold.Proofs.Ancestry
import Scaffold.Stub

set_option relaxedAutoImplicit false
set_option autoImplicit false

namespace Scaffold

/-! ### Declarations that are alike -/

namespace Declaration

/-- Two declarations declare the same under one name, wherever they stand. -/
structure Alike (d d' : Declaration) : Prop where
  /-- The names are the same. -/
  name : d.name = d'.name
  /-- What is declared is the same. -/
  shape : d.shape = d'.shape

namespace Alike

variable {d d' : Declaration}

theorem refl (d : Declaration) : d.Alike d := ⟨rfl, rfl⟩

theorem simpleName (h : d.Alike d') : d.simpleName = d'.simpleName := by
  rw [Declaration.simpleName, Declaration.simpleName, h.name]

theorem form (h : d.Alike d') : d.form = d'.form := by
  rw [Declaration.form, Declaration.form, h.shape]

theorem contract? (h : d.Alike d') : d.contract? = d'.contract? := by
  rw [Declaration.contract?, Declaration.contract?, h.shape]

theorem value? (h : d.Alike d') : d.value? = d'.value? := by
  rw [Declaration.value?, Declaration.value?, h.shape]

theorem enumeration? (h : d.Alike d') : d.enumeration? = d'.enumeration? := by
  rw [Declaration.enumeration?, Declaration.enumeration?, h.shape]

theorem mentionedNames (h : d.Alike d') : d.mentionedNames = d'.mentionedNames := by
  simp only [Declaration.mentionedNames, Declaration.conformances, Declaration.memberMentions,
    h.shape]

end Alike

/-- The names that are looked up on account of a declaration. -/
inductive Consults (naming : Naming) (d : Declaration) : String → Prop
  /-- What is mentioned. -/
  | mention {name : String} : name ∈ d.mentionedNames → Consults naming d name
  /-- Where the transfer object is looked for. -/
  | counterpart {name : String} : name ∈ naming.counterparts d.name → Consults naming d name
  /-- The reducer that a state belongs to. -/
  | reducer {reducer : String} : reducer ++ ".State" ∈ d.mentionedNames →
      Consults naming d reducer
  /-- The action that goes with a state. -/
  | action {reducer : String} : reducer ++ ".State" ∈ d.mentionedNames →
      Consults naming d (reducer ++ ".Action")

/-- What a contract refines is mentioned. -/
theorem mem_mentionedNames_of_inherits {d : Declaration} {c : Contract} (h : d.contract? = some c)
    {name : String} (hname : name ∈ c.inherits) : name ∈ d.mentionedNames := by
  simp only [contract?] at h
  split at h
  · next hshape =>
      cases h
      simp [mentionedNames, conformances, hshape, hname]
  · cases h

/-- What the members of a contract mention is mentioned. -/
theorem mem_mentionedNames_of_contract {d : Declaration} {c : Contract} (h : d.contract? = some c)
    {name : String}
    (hname : name ∈ methodMentions c.methods ++ initializerMentions c.initializers) :
    name ∈ d.mentionedNames := by
  simp only [contract?] at h
  split at h
  · next hshape =>
      cases h
      rw [mentionedNames, NameSet.mem_ofList, memberMentions, hshape]
      exact List.mem_append_right _ hname
  · cases h

/-- The names in the fields and initializers of a value type are mentioned. -/
theorem mem_mentionedNames_of_value {d : Declaration} {v : ValueType} (h : d.shape = .value v)
    {name : String} (hname : name ∈ initializerMentions v.initializers ∨
      ∃ f ∈ v.fields, name ∈ f.type.mentions) : name ∈ d.mentionedNames := by
  rw [mentionedNames, NameSet.mem_ofList, memberMentions, h]
  refine List.mem_append_right _ ?_
  rcases hname with hname | ⟨f, hf, hname⟩
  · exact List.mem_append_left _ (List.mem_append_right _ hname)
  · exact List.mem_append_right _ (List.mem_flatMap.2 ⟨f, hf, hname⟩)

theorem Consults.of_alike {naming : Naming} {d d' : Declaration} {name : String}
    (h : d.Consults naming name) (halike : d.Alike d') : d'.Consults naming name := by
  cases h with
  | mention hmem => exact .mention (halike.mentionedNames ▸ hmem)
  | counterpart hmem => exact .counterpart (halike.name ▸ hmem)
  | reducer hmem => exact .reducer (halike.mentionedNames ▸ hmem)
  | action hmem => exact .action (halike.mentionedNames ▸ hmem)

end Declaration

/-! ### Corpora that agree -/

namespace Corpus

/-- Two corpora have the same under all names of a set, and what the declarations of the set lead to
is in the set. -/
structure Agrees (naming : Naming) (names : Set String) (c c' : Corpus) : Prop where
  /-- The declarations under the names declare the same. -/
  shape : ∀ name ∈ names, (c.get? name).map Declaration.shape = (c'.get? name).map Declaration.shape
  /-- What is looked up on account of a declaration of the set is in the set. -/
  closed : ∀ d : Declaration, d.name ∈ names → c.get? d.name = some d →
    ∀ name, d.Consults naming name → name ∈ names

/-- Two declarations, of one corpus each, are alike and stand under a name of a set. -/
structure Twins (names : Set String) (c c' : Corpus) (d d' : Declaration) : Prop where
  /-- The name is in the set. -/
  mem : d.name ∈ names
  /-- The first declaration is in the first corpus. -/
  left : c.get? d.name = some d
  /-- The second declaration is in the second corpus. -/
  right : c'.get? d'.name = some d'
  /-- The declarations are alike. -/
  alike : d.Alike d'

namespace Agrees

variable {naming : Naming} {names : Set String} {c c' : Corpus}

/-- Under a name of the set both corpora have nothing, or they have twins. -/
theorem get?_cases (h : c.Agrees naming names c') {name : String} (hname : name ∈ names) :
    (c.get? name = none ∧ c'.get? name = none) ∨
      ∃ d d', c.get? name = some d ∧ c'.get? name = some d' ∧ Twins names c c' d d' := by
  have hshape := h.shape name hname
  cases hd : c.get? name with
  | none =>
      rw [hd, Option.map_none, eq_comm, Option.map_eq_none_iff] at hshape
      exact Or.inl ⟨rfl, hshape⟩
  | some d =>
      rw [hd, Option.map_some, eq_comm, Option.map_eq_some_iff] at hshape
      obtain ⟨d', hd', hshape⟩ := hshape
      have heq : d.name = d'.name := by rw [name_of_get? hd, name_of_get? hd']
      obtain rfl := name_of_get? hd
      exact Or.inr ⟨d, d', rfl, hd', hname, hd, heq ▸ hd', heq, hshape.symm⟩

/-- Declarations of one name are twins. -/
theorem twins (h : c.Agrees naming names c') {d d' : Declaration} (hname : d.name ∈ names)
    (hd : c.get? d.name = some d) (hd' : c'.get? d'.name = some d') (heq : d.name = d'.name) :
    Twins names c c' d d' := by
  rcases h.get?_cases hname with ⟨hnone, -⟩ | ⟨e, e', he, he', htwins⟩
  · rw [hd] at hnone
    cases hnone
  · rw [hd] at he
    rw [heq, hd'] at he'
    cases he
    cases he'
    exact htwins

theorem contains_eq (h : c.Agrees naming names c') {name : String} (hname : name ∈ names) :
    c.contains name = c'.contains name := by
  rcases h.get?_cases hname with ⟨hd, hd'⟩ | ⟨d, d', hd, hd', -⟩
  · rw [contains, contains, hd, hd']
  · simp [contains, hd, hd']

/-- What a declaration of the set mentions is in the set. -/
theorem mem_of_mention (h : c.Agrees naming names c') {d : Declaration} (hname : d.name ∈ names)
    (hd : c.get? d.name = some d) {name : String} (hmention : name ∈ d.mentionedNames) :
    name ∈ names :=
  h.closed d hname hd name (.mention hmention)

/-- The transfer objects of a declaration are alike. -/
theorem counterpart?_cases (h : c.Agrees naming names c') {d : Declaration} (hname : d.name ∈ names)
    (hd : c.get? d.name = some d) :
    (c.counterpart? naming d.name = none ∧ c'.counterpart? naming d.name = none) ∨
      ∃ s s', c.counterpart? naming d.name = some s ∧ c'.counterpart? naming d.name = some s' ∧
        s.Alike s' := by
  have hmem : ∀ name ∈ naming.counterparts d.name, name ∈ names :=
    fun name hcounterpart => h.closed d hname hd name (.counterpart hcounterpart)
  simp only [counterpart?]
  generalize naming.counterparts d.name = candidates at hmem ⊢
  induction candidates with
  | nil => exact Or.inl ⟨rfl, rfl⟩
  | cons name rest ih =>
      rw [List.findSome?_cons, List.findSome?_cons]
      rcases h.get?_cases (hmem name (by simp)) with ⟨hs, hs'⟩ | ⟨s, s', hs, hs', htwins⟩
      · rw [hs, hs']
        exact ih fun n hn => hmem n (List.mem_cons_of_mem _ hn)
      · rw [hs, hs']
        exact Or.inr ⟨s, s', rfl, rfl, htwins.alike⟩

end Agrees

/-! ### What contracts require -/

/-- A search with room for names can always take one more step. -/
theorem HasRoom.exists_eq_succ {c : Corpus} {room : Nat} {seen : List String}
    (h : c.HasRoom room seen) : ∃ n, room = n + 1 := by
  refine Nat.exists_eq_add_one.2 ?_
  have := Mapping.length_le_size h.nodup h.declared
  have := h.size_lt
  omega

theorem hasRoom_nil (c : Corpus) : c.HasRoom (c.size + 1) [] :=
  ⟨List.nodup_nil, by simp, by simp⟩

/-- Visits to the names of a list are the same if each of them is, as long as what they have seen
stays as it should. -/
theorem visitAll_congr {c c' : Corpus} {P : List String → Prop}
    {visit visit' : List String → Declaration → List String × List Contract} {parents : List String}
    (hvisit : ∀ name ∈ parents, (c.get? name = none ∧ c'.get? name = none) ∨
      ∃ p p', c.get? name = some p ∧ c'.get? name = some p' ∧
        ∀ seen, P seen → visit seen p = visit' seen p' ∧ P (visit seen p).1)
    {seen : List String} (hseen : P seen) (found : List Contract) :
    visitAll c visit parents (seen, found) = visitAll c' visit' parents (seen, found) := by
  induction parents generalizing seen found with
  | nil => rfl
  | cons name parents ih =>
      have hrest := fun n hn => hvisit n (List.mem_cons_of_mem _ hn)
      rw [visitAll, visitAll, List.foldl_cons, List.foldl_cons]
      rcases hvisit name (by simp) with ⟨hp, hp'⟩ | ⟨p, p', hp, hp', hsame⟩
      · simp only [hp, hp']
        exact ih hrest hseen found
      · obtain ⟨heq, hnext⟩ := hsame seen hseen
        simp only [hp, hp', ← heq]
        exact ih hrest hnext _

namespace Agrees

variable {naming : Naming} {names : Set String} {c c' : Corpus}

/-- A walk from declarations that are alike is the same in both corpora. -/
theorem ancestryFrom_eq (h : c.Agrees naming names c') {room room' : Nat} {seen : List String}
    {d d' : Declaration} (hroom : c.HasRoom room seen) (hroom' : c'.HasRoom room' seen)
    (htwins : Twins names c c' d d') :
    c.ancestryFrom room seen d = c'.ancestryFrom room' seen d' := by
  induction room generalizing room' seen d d' with
  | zero => simpa using hroom.exists_eq_succ
  | succ room ih =>
      obtain ⟨room', rfl⟩ := hroom'.exists_eq_succ
      rw [ancestryFrom_succ, ancestryFrom_succ, ← htwins.alike.name, ← htwins.alike.contract?]
      split
      · rfl
      · next hnew =>
          have hnew : d.name ∉ seen := by simpa using hnew
          split
          · rfl
          · next contract hcontract =>
              have hcons' : c'.HasRoom room' (d.name :: seen) := by
                rw [htwins.alike.name] at hnew ⊢
                exact hroom'.cons htwins.right hnew
              refine visitAll_congr (P := fun seen => c.HasRoom room seen ∧
                c'.HasRoom room' seen) ?_ ⟨hroom.cons htwins.left hnew, hcons'⟩ _
              intro name hparent
              have hmem : name ∈ names := h.mem_of_mention htwins.mem htwins.left
                (Declaration.mem_mentionedNames_of_inherits hcontract hparent)
              refine (h.get?_cases hmem).imp_right ?_
              rintro ⟨p, p', hp, hp', hparents⟩
              refine ⟨p, p', hp, hp', ?_⟩
              rintro seen ⟨hseen, hseen'⟩
              have heq := ih hseen hseen' hparents
              refine ⟨heq, (walk_ancestryFrom hseen hparents.left).1.hasRoom hseen, ?_⟩
              rw [heq]
              exact (walk_ancestryFrom hseen' hparents.right).1.hasRoom hseen'

/-- **Alike contracts require the same.** -/
theorem requirements_eq (h : c.Agrees naming names c') {d d' : Declaration}
    (htwins : Twins names c c' d d') : c.requirements d = c'.requirements d' := by
  have hancestry : c.ancestry d = c'.ancestry d' := by
    rw [ancestry, ancestry, h.ancestryFrom_eq c.hasRoom_nil c'.hasRoom_nil htwins]
  rw [requirements, requirements, hancestry]

/-- What can be reached from a declaration of the set is in the set. -/
theorem mem_of_reaches (h : c.Agrees naming names c') {d e : Declaration} (hname : d.name ∈ names)
    (hd : c.get? d.name = some d) (hreach : c.Reaches d e) : e.name ∈ names := by
  induction hreach with
  | refl => exact hname
  | tail hreach hstep ih =>
      obtain ⟨contract, hcontract, name, hparent, hget⟩ := hstep
      rw [name_of_get? hget]
      exact h.mem_of_mention ih (Reaches.get?_name hreach hd)
        (Declaration.mem_mentionedNames_of_inherits hcontract hparent)

/-- What the required members mention is in the set. -/
theorem mem_of_mem_mentions (h : c.Agrees naming names c') {d : Declaration}
    (hname : d.name ∈ names) (hd : c.get? d.name = some d) {name : String}
    (hmention : name ∈ (c.requirements d).mentions) : name ∈ names := by
  -- a kept member is one of a contract that can be reached
  have hcontract : ∃ contract ∈ c.ancestry d, name ∈
      Declaration.methodMentions contract.methods ++
        Declaration.initializerMentions contract.initializers := by
    simp only [Requirements.mentions, NameSet.mem_ofList, List.mem_append] at hmention
    rcases hmention with hmention | hmention
    · obtain ⟨m, hm, hmention⟩ := List.mem_flatMap.1 hmention
      have hm := List.mem_of_find?_eq_some (mem_keepFirst_iff.1 hm)
      obtain ⟨contract, hcontract, hm⟩ := List.mem_flatMap.1 hm
      exact ⟨contract, hcontract, List.mem_append_left _ (List.mem_flatMap.2 ⟨m, hm, hmention⟩)⟩
    · obtain ⟨i, hi, hmention⟩ := List.mem_flatMap.1 hmention
      have hi := List.mem_of_find?_eq_some (mem_keepFirst_iff.1 hi)
      obtain ⟨contract, hcontract, hi⟩ := List.mem_flatMap.1 hi
      exact ⟨contract, hcontract, List.mem_append_right _ (List.mem_flatMap.2 ⟨i, hi, hmention⟩)⟩
  obtain ⟨contract, hcontract, hmention⟩ := hcontract
  obtain ⟨e, hreach, he⟩ := reaches_of_mem_ancestryFrom hcontract
  exact h.mem_of_mention (h.mem_of_reaches hname hd hreach) (hreach.get?_name hd)
    (Declaration.mem_mentionedNames_of_contract he hmention)

end Agrees

end Corpus

/-! ### Contexts that agree -/

/-- Two contexts differ at most in the strategies that run, in the resolutions and outside of a
closed set of names. -/
structure Context.Agrees (names : Set String) (ctx ctx' : Context) : Prop where
  /-- All settings but the strategies are the same. -/
  settings : { ctx'.settings with strategies := ctx.settings.strategies } = ctx.settings
  /-- The provided expressions are the same. -/
  provider : ctx'.provider = ctx.provider
  /-- The corpora agree. -/
  corpus : ctx.corpus.Agrees ctx.settings.naming names ctx'.corpus

namespace Context.Agrees

variable {names : Set String} {ctx ctx' : Context}

theorem naming (h : ctx.Agrees names ctx') : ctx'.settings.naming = ctx.settings.naming := by
  simpa using congrArg Settings.naming h.settings

theorem fixtures (h : ctx.Agrees names ctx') : ctx'.settings.fixtures = ctx.settings.fixtures := by
  simpa using congrArg Settings.fixtures h.settings

theorem strict (h : ctx.Agrees names ctx') :
    ctx'.settings.strictSourceFields = ctx.settings.strictSourceFields := by
  simpa using congrArg Settings.strictSourceFields h.settings

/-- The declarations that signatures refer to are the same. -/
theorem references_eq (h : ctx.Agrees names ctx') {d : Declaration} (hname : d.name ∈ names)
    (hd : ctx.corpus.get? d.name = some d) :
    (ctx.corpus.requirements d).references ctx.corpus =
      (ctx.corpus.requirements d).references ctx'.corpus := by
  refine List.filter_congr fun name hmention => ?_
  exact h.corpus.contains_eq (h.corpus.mem_of_mem_mentions hname hd hmention)

end Context.Agrees

/-- **Failing mocks of alike contracts are the same.** -/
theorem FailingMock.generate_congr {names : Set String} {ctx ctx' : Context}
    (h : ctx.Agrees names ctx') {d d' : Declaration}
    (htwins : Corpus.Twins names ctx.corpus ctx'.corpus d d') :
    generate ctx d = generate ctx' d' := by
  have hrequirements := h.corpus.requirements_eq htwins
  simp only [generate, ← hrequirements, ← htwins.alike.name, ← htwins.alike.simpleName, h.naming,
    h.references_eq htwins.mem htwins.left]

/-! ### Values for results -/

namespace FixtureTable

variable {f g : FixtureTable}

/-- An expression for a type depends on those for the declared types that it mentions. -/
theorem valueWith?_congr (hgiven : ∀ t, f.given? t = g.given? t)
    {declared declared' : String → Option String} {t : TypeRef}
    (h : ∀ name ∈ t.mentions, declared name = declared' name) :
    f.valueWith? declared t = g.valueWith? declared' t := by
  induction t using TypeRef.induction with
  | function attributes params effects result _ ih =>
      have hresult : f.valueWith? declared result = g.valueWith? declared' result :=
        ih fun name hname => h name (by simp [TypeRef.mentions, hname])
      simp only [valueWith?, hgiven, hresult]
  | named name args _ =>
      cases args with
      | nil => simp only [valueWith?, hgiven, h name (by simp [TypeRef.mentions])]
      | cons a as => simp only [valueWith?, hgiven]
  | primitive name => simp only [valueWith?, hgiven]
  | sequence element _ => simp only [valueWith?, hgiven]
  | mapping key value _ _ => simp only [valueWith?, hgiven]
  | optional wrapped _ => simp only [valueWith?, hgiven]
  | existential constraint _ => simp only [valueWith?, hgiven]

theorem call?_congr {value value' : TypeRef → Option String} (name : String)
    {args : List (Option String × TypeRef)} (h : ∀ a ∈ args, value a.2 = value' a.2) :
    call? value name args = call? value' name args := by
  have hargs : arguments? value args = arguments? value' args := by
    induction args with
    | nil => rfl
    | cons a args ih =>
        simp only [arguments?, h a (by simp), ih fun b hb => h b (List.mem_cons_of_mem _ hb)]
  rw [call?, call?, hargs]

/-- A call that constructs a value type depends on the values of what its fields and initializers
mention. -/
theorem construct?_congr {value value' : TypeRef → Option String} (name : String) {v : ValueType}
    (hfields : ∀ f ∈ v.fields, value f.type = value' f.type)
    (hparams : ∀ i ∈ v.initializers, ∀ p ∈ i.params, value p.type = value' p.type) :
    construct? value name v = construct? value' name v := by
  have hmemberwise : call? value name (memberwise v) = call? value' name (memberwise v) := by
    refine call?_congr name ?_
    intro a ha
    obtain ⟨f, hf, rfl⟩ := List.mem_map.1 ha
    exact hfields f (List.mem_filter.1 hf).1
  have hneeded : ∀ i ∈ v.initializers, call? value name (needed i) = call? value' name (needed i) := by
    intro i hi
    refine call?_congr name ?_
    intro a ha
    obtain ⟨p, hp, rfl⟩ := List.mem_map.1 ha
    exact hparams i hi p (List.mem_filter.1 hp).1
  rw [construct?, construct?, hmemberwise, ← List.head?_filterMap, ← List.head?_filterMap]
  congr 2
  exact List.filterMap_congr fun i hi => hneeded i (List.mem_filter.1 hi).1

section Agrees

variable {naming : Naming} {names : Set String} (h : f.corpus.Agrees naming names g.corpus)
  (hgiven : ∀ t, f.given? t = g.given? t)
include h hgiven

/-- The expression for a declared type is the same in both corpora. -/
theorem declaredValue?_congr {room room' : Nat} {visiting : List String} {name : String}
    (hroom : f.corpus.HasRoom room visiting) (hroom' : g.corpus.HasRoom room' visiting)
    (hname : name ∈ names) :
    f.declaredValue? room visiting name = g.declaredValue? room' visiting name := by
  induction room generalizing room' visiting name with
  | zero => simpa using hroom.exists_eq_succ
  | succ room ih =>
      obtain ⟨room', rfl⟩ := hroom'.exists_eq_succ
      rw [declaredValue?, declaredValue?]
      rcases h.get?_cases hname with ⟨hd, hd'⟩ | ⟨d, d', hd, hd', htwins⟩
      · rw [hd, hd']
      · simp only [hd, hd', ← htwins.alike.shape]
        split
        · rfl
        · next hnew =>
            obtain rfl := Corpus.name_of_get? hd
            have hnew : d.name ∉ visiting := by simpa using hnew
            -- one level further down the type itself is being constructed
            have hcons' : g.corpus.HasRoom room' (d.name :: visiting) := by
              rw [htwins.alike.name] at hnew ⊢
              exact hroom'.cons htwins.right hnew
            have hinner : ∀ t : TypeRef, (∀ m ∈ t.mentions, m ∈ names) →
                f.valueWith? (f.declaredValue? room (d.name :: visiting)) t =
                  g.valueWith? (g.declaredValue? room' (d.name :: visiting)) t := by
              intro t ht
              exact valueWith?_congr hgiven fun m hm => ih (hroom.cons hd hnew) hcons' (ht m hm)
            split
            · rfl
            · rfl
            · next v hvalue =>
                have hmentions := fun m hm => h.mem_of_mention hname hd
                  (@Declaration.mem_mentionedNames_of_value d v hvalue m hm)
                refine construct?_congr d.name ?_ ?_
                · intro field hfield
                  exact hinner field.type fun m hm => hmentions m (Or.inr ⟨field, hfield, hm⟩)
                · intro i hi p hp
                  refine hinner p.type fun m hm => hmentions m (Or.inl ?_)
                  exact List.mem_flatMap.2 ⟨i, hi, List.mem_flatMap.2 ⟨p, hp, hm⟩⟩

/-- **The same types have the same values** in both corpora. -/
theorem value?_congr {t : TypeRef} (ht : ∀ name ∈ t.mentions, name ∈ names) :
    f.value? t = g.value? t :=
  valueWith?_congr hgiven fun name hname =>
    declaredValue?_congr h hgiven f.corpus.hasRoom_nil g.corpus.hasRoom_nil (ht name hname)

end Agrees

end FixtureTable

namespace Stub

/-- The text of a stub depends on the values of the results only. -/
theorem code_congr {f g : FixtureTable} (name contract : String) {r : Requirements}
    (h : ∀ m ∈ r.methods, f.value? m.result = g.value? m.result) :
    code f name contract r = code g name contract r := by
  have hstorage : ∀ k ∈ r.methods.zip (storageKeys r.methods),
      storageCode k.2 k.1 (resultValue? f k.1) = storageCode k.2 k.1 (resultValue? g k.1) := by
    intro k hk
    simp only [resultValue?, h k.1 (List.of_mem_zip hk).1]
  rw [code, code]
  simp only [List.map_congr_left hstorage]

/-- **Stubs of alike contracts are the same**, and so are the results without a value. -/
theorem generate_congr {names : Set String} {ctx ctx' : Context}
    (h : ctx.Agrees names ctx') {d d' : Declaration}
    (htwins : Corpus.Twins names ctx.corpus ctx'.corpus d d') :
    generate ctx d = generate ctx' d' := by
  have hrequirements := h.corpus.requirements_eq htwins
  let f : FixtureTable := ⟨ctx.corpus, ctx.provider, ctx.settings.fixtures⟩
  let g : FixtureTable := ⟨ctx'.corpus, ctx.provider, ctx.settings.fixtures⟩
  have hvalue : ∀ m ∈ (ctx.corpus.requirements d).methods,
      f.value? m.result = g.value? m.result := by
    intro m hm
    refine FixtureTable.value?_congr (f := f) (g := g) h.corpus (fun _ => rfl) ?_
    intro name hmention
    refine h.corpus.mem_of_mem_mentions htwins.mem htwins.left ?_
    rw [Requirements.mentions, NameSet.mem_ofList]
    exact List.mem_append_left _ (List.mem_flatMap.2 ⟨m, hm, List.mem_append_right _ hmention⟩)
  have hmissing : (ctx.corpus.requirements d).methods.filterMap (missing? f d.name) =
      (ctx.corpus.requirements d).methods.filterMap (missing? g d.name) := by
    refine List.filterMap_congr fun m hm => ?_
    rw [missing?, missing?, hvalue m hm]
  simp only [generate, ← hrequirements, ← htwins.alike.name, ← htwins.alike.simpleName, h.naming,
    h.provider, h.fixtures]
  rw [hmissing, code_congr _ _ hvalue, h.references_eq htwins.mem htwins.left]

end Stub

end Scaffold
