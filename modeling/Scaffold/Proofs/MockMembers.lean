/-
**What mocks and stubs implement.**

The class that is generated for a contract declares the members that the contract requires, with
their signatures as they are declared.  What is required is gathered from all contracts that can be
reached, and of several members with one selector only the first is kept: overloads that differ in
their names or labels are all there, but of those that differ in nothing but types, effects or
results all others are missing, so that the class does not conform to such a contract.

Main definitions:

* `Scaffold.ClassDeclares` — a class text declares a member with a given signature;
* `Scaffold.Corpus.firstMethod?`, `Scaffold.Corpus.firstInitializer?` — the first required member
  with a selector;
* `Scaffold.ClassCovers` — a class text declares the first member for each selector of a contract.

Main results:

* `Scaffold.FailingMock.declares_code`, `Scaffold.Stub.declares_code` — the texts of both classes
  declare every required member;
* `Scaffold.covers_of_reaches` — **every contract that can be reached is covered**;
* `Scaffold.overload_not_declared` — an overload that differs in a type only has no member of its
  own.
-/

import Mathlib.Data.List.Infix
import Scaffold.Proofs.Ancestry
import Scaffold.Stub

set_option relaxedAutoImplicit false
set_option autoImplicit false

namespace Scaffold

/-! ### Class texts -/

/-- The text of a class that starts with the given opening declares a member: its signature stands
on a line of its own, one step inside the class, before a body in braces. -/
def ClassDeclares (opening text signature : String) : Prop :=
  ∃ before body after, text = opening ++ before ++ "\n    " ++ signature ++ " \x7b" ++ body ++
    "\x7d\n" ++ after ++ "\x7d\n"

/-- The text of a member with the given signature; remarks may stand before it. -/
def IsMemberCode (code signature : String) : Prop :=
  ∃ remarks body, code = remarks ++ "\n    " ++ signature ++ " \x7b" ++ body ++ "\x7d\n"

/-- A class declares the members that its text is put together from. -/
theorem classDeclares_of_mem {opening front signature code : String} {codes : List String}
    (hmem : code ∈ codes) (hcode : IsMemberCode code signature) :
    ClassDeclares opening (opening ++ front ++ String.join codes ++ "\x7d\n") signature := by
  obtain ⟨earlier, later, rfl⟩ := List.append_of_mem hmem
  obtain ⟨remarks, body, rfl⟩ := hcode
  refine ⟨front ++ String.join earlier ++ remarks, body, String.join later, ?_⟩
  simp only [String.join_append, String.join_cons, String.append_assoc]

theorem isMemberCode_initializer (i : Initializer) :
    IsMemberCode ("\n    " ++ i.render ++ " \x7b\x7d\n") i.render := by
  have hbody : (" \x7b\x7d\n" : String) = " \x7b" ++ ("" ++ "\x7d\n") := by decide
  refine ⟨"", "", ?_⟩
  rw [hbody]
  simp only [String.append_assoc, String.empty_append]

/-- A text whose body takes lines of its own is that of a member. -/
theorem isMemberCode_of_lines {code remarks signature lines : String}
    (h : code = remarks ++ "\n    " ++ signature ++ " \x7b\n" ++ lines ++ "    \x7d\n") :
    IsMemberCode code signature := by
  have hopening : (" \x7b\n" : String) = " \x7b" ++ "\n" := by decide
  have hclosing : ("    \x7d\n" : String) = "    " ++ "\x7d\n" := by decide
  refine ⟨remarks, "\n" ++ lines ++ "    ", ?_⟩
  rw [h, hopening, hclosing]
  simp only [String.append_assoc]

theorem FailingMock.isMemberCode_method (m : Method) :
    IsMemberCode (FailingMock.methodCode m) m.render := by
  rw [FailingMock.methodCode]
  split
  · refine @isMemberCode_of_lines _ "" m.render
      ("        throw failure ?? Failure.unimplemented(\"" ++ m.selector ++ "\")\n") ?_
    simp only [String.append_assoc, String.empty_append]
  · -- the remark ends the line before the member
    have hremark : ("` has no failure channel.\n" : String) ++ "    " =
        "` has no failure channel." ++ "\n    " := by decide
    refine @isMemberCode_of_lines _
      ("\n    // Aborts: `" ++ m.selector ++ "` has no failure channel.") m.render
      ("        fatalError(\"unimplemented: " ++ m.selector ++ "\")\n") ?_
    simp only [String.append_assoc, ← hremark]

theorem Stub.isMemberCode_method (key : String) (m : Method) :
    IsMemberCode (Stub.methodCode key m) m.render := by
  refine @isMemberCode_of_lines _ "" m.render
    ("        " ++ key ++ "CallCount += 1\n" ++
      (if m.params.isEmpty then ""
        else "        " ++ key ++ "Received.append(" ++ receivedValue m.params ++ ")\n") ++
      (if m.effects.isThrowing then
        "        if let error = " ++ key ++ "Error \x7b\n" ++
        "            throw error\n" ++
        "        \x7d\n"
       else "") ++
      (if m.returnsValue then "        return " ++ key ++ "Result\n" else "")) ?_
  simp only [String.empty_append, ← String.append_assoc]
  rfl

/-! ### Required members -/

/-- A class text declares all members that are required. -/
structure ClassImplements (opening text : String) (r : Requirements) : Prop where
  /-- The methods. -/
  methods : ∀ m ∈ r.methods, ClassDeclares opening text m.render
  /-- The initializers. -/
  initializers : ∀ i ∈ r.initializers, ClassDeclares opening text i.render

/-- A class text that is put together from initializers and from a text for every method implements
what is required. -/
theorem classImplements_of_codes {opening front text : String} {r : Requirements}
    {codes : List String} (hcodes : ∀ m ∈ r.methods, ∃ code ∈ codes, IsMemberCode code m.render)
    (htext : text = opening ++ front ++ r.initializerCode ++ String.join codes ++ "\x7d\n") :
    ClassImplements opening text r := by
  have hjoin : text = opening ++ front ++
      String.join (r.initializers.map (fun i => "\n    " ++ i.render ++ " \x7b\x7d\n") ++ codes) ++
      "\x7d\n" := by
    rw [htext, Requirements.initializerCode, String.join_append, ← String.append_assoc]
  rw [hjoin]
  constructor
  · intro m hm
    obtain ⟨code, hmem, hcode⟩ := hcodes m hm
    exact classDeclares_of_mem (List.mem_append_right _ hmem) hcode
  · intro i hi
    refine classDeclares_of_mem (List.mem_append_left _ ?_) (isMemberCode_initializer i)
    exact List.mem_map_of_mem hi

/-- The text of a failing mock declares every required member. -/
theorem FailingMock.declares_code (name contract : String) (r : Requirements) :
    ClassImplements (classOpening name contract) (FailingMock.code name contract r) r := by
  refine @classImplements_of_codes _ failureCode _ r (r.methods.map methodCode) ?_ rfl
  intro m hm
  exact ⟨methodCode m, List.mem_map_of_mem hm, isMemberCode_method m⟩

/-- The text of a stub is that of its stored properties, initializers and methods. -/
theorem Stub.exists_code_eq (fixtures : FixtureTable) (name contract : String) (r : Requirements) :
    ∃ front, Stub.code fixtures name contract r =
      classOpening name contract ++ front ++ r.initializerCode ++
        String.join ((r.methods.zip (storageKeys r.methods)).map fun p => methodCode p.2 p.1) ++
        "\x7d\n" := by
  let storage := (r.methods.zip (storageKeys r.methods)).map fun p =>
    storageCode p.2 p.1 (resultValue? fixtures p.1)
  refine ⟨"\n\n".intercalate storage ++ (if storage.isEmpty then "" else "\n"), ?_⟩
  rw [← String.append_assoc]
  rfl

/-- The text of a stub declares every required member. -/
theorem Stub.declares_code (fixtures : FixtureTable) (name contract : String) (r : Requirements) :
    ClassImplements (classOpening name contract) (Stub.code fixtures name contract r) r := by
  obtain ⟨front, htext⟩ := Stub.exists_code_eq fixtures name contract r
  refine classImplements_of_codes ?_ htext
  intro m hm
  -- every method has a key, so none is lost when the two are paired
  have hlength : r.methods.length ≤ (storageKeys r.methods).length := by simp
  have hfst : (r.methods.zip (storageKeys r.methods)).map Prod.fst = r.methods :=
    List.map_fst_zip hlength
  rw [← hfst] at hm
  obtain ⟨p, hp, rfl⟩ := List.mem_map.1 hm
  exact ⟨methodCode p.2 p.1, List.mem_map_of_mem hp, isMemberCode_method p.2 p.1⟩

/-! ### The members of the contracts that can be reached -/

/-- The first method with a selector that a declaration or one that it refines requires. -/
def Corpus.firstMethod? (corpus : Corpus) (d : Declaration) (selector : String) : Option Method :=
  ((corpus.ancestry d).flatMap Contract.methods).find? fun m => m.selector == selector

/-- The first initializer with a selector that a declaration or one that it refines requires. -/
def Corpus.firstInitializer? (corpus : Corpus) (d : Declaration) (selector : String) :
    Option Initializer :=
  ((corpus.ancestry d).flatMap Contract.initializers).find? fun i => i.selector == selector

/-- A class text for a declaration declares, for each member of a contract, the first required
member with its selector. -/
structure ClassCovers (corpus : Corpus) (d : Declaration) (opening text : String) (c : Contract) :
    Prop where
  /-- The methods. -/
  methods : ∀ m ∈ c.methods, ∃ first, corpus.firstMethod? d m.selector = some first ∧
    ClassDeclares opening text first.render
  /-- The initializers. -/
  initializers : ∀ i ∈ c.initializers, ∃ first, corpus.firstInitializer? d i.selector = some first ∧
    ClassDeclares opening text first.render

/-- A class text that implements what is required covers the contracts that can be reached. -/
theorem ClassImplements.covers {corpus : Corpus} {d e : Declaration} {c : Contract}
    {opening text : String} (h : ClassImplements opening text (corpus.requirements d))
    (hd : corpus.get? d.name = some d) (he : corpus.Reaches d e) (hc : e.contract? = some c) :
    ClassCovers corpus d opening text c := by
  have hfound : c ∈ corpus.ancestry d := (Corpus.mem_ancestry_iff hd).2 ⟨e, he, hc⟩
  constructor
  · intro m hm
    obtain ⟨first, hfirst, hkept⟩ :=
      @exists_mem_keepFirst _ Method.selector _ m (List.mem_flatMap.2 ⟨c, hfound, hm⟩)
    exact ⟨first, hfirst, h.methods first hkept⟩
  · intro i hi
    obtain ⟨first, hfirst, hkept⟩ :=
      @exists_mem_keepFirst _ Initializer.selector _ i (List.mem_flatMap.2 ⟨c, hfound, hi⟩)
    exact ⟨first, hfirst, h.initializers first hkept⟩

/-- A failing mock has one fragment, the text of the class. -/
theorem FailingMock.generate_eq (ctx : Context) (d : Declaration) :
    ∃ a, FailingMock.generate ctx d = .ok [a] ∧ a.fragments = [FailingMock.code
      (ctx.settings.naming.failingMockName d.simpleName) d.name (ctx.corpus.requirements d)] :=
  ⟨_, rfl, Artifact.fragments_referAll _ _⟩

/-- **Every contract that can be reached is covered.**  Both for the failing mock of a contract and
for its stub, if there is one, the generated class declares the first required member for each
selector of the contract itself and of those that it refines, however they refine each other. -/
theorem covers_of_reaches {ctx : Context} {d e : Declaration} {c : Contract}
    (hd : ctx.corpus.get? d.name = some d) (he : ctx.corpus.Reaches d e)
    (hc : e.contract? = some c) :
    (∃ a text, FailingMock.generate ctx d = .ok [a] ∧ a.fragments = [text] ∧
      ClassCovers ctx.corpus d
        (classOpening (ctx.settings.naming.failingMockName d.simpleName) d.name) text c) ∧
    ∀ artifacts, Stub.generate ctx d = .ok artifacts →
      ∃ a text, artifacts = [a] ∧ a.fragments = [text] ∧
        ClassCovers ctx.corpus d
          (classOpening (ctx.settings.naming.stubName d.simpleName) d.name) text c := by
  constructor
  · obtain ⟨a, hok, hfragments⟩ := FailingMock.generate_eq ctx d
    refine ⟨a, _, hok, hfragments, ?_⟩
    exact (FailingMock.declares_code _ _ _).covers hd he hc
  · intro artifacts hok
    simp only [Stub.generate] at hok
    split at hok
    · cases hok
      refine ⟨_, _, rfl, Artifact.fragments_referAll _ _, ?_⟩
      exact (Stub.declares_code _ _ _ _).covers hd he hc
    · cases hok

/-- A store that is searched by name or by number, and refines a cache that refines it in turn: the
class has the initializer of the cache, and the first of the searches. -/
theorem covers_of_reaches_store :
    let find := fun (type : TypeRef) => ({ name := "find"
                                           params := [⟨some "key", "key", type, none, false⟩]
                                           effects := {}
                                           result := .void } : Method)
    let byName := find (.primitive "String")
    let byNumber := find (.primitive "Int")
    let cache : Declaration :=
      { name := "Cache"
        shape := .contract { initializers := [⟨[], ⟨false, true⟩⟩], inherits := ["Store"] } }
    let store : Declaration :=
      { name := "Store"
        shape := .contract { methods := [byName, byNumber], inherits := ["Missing", "Cache"] } }
    let ctx : Context :=
      { corpus := ⟨[⟨store, []⟩, ⟨cache, []⟩]⟩, settings := {}, provider := {}, resolutions := [] }
    ctx.corpus.Reaches store cache ∧ ctx.corpus.firstMethod? store byNumber.selector = some byName ∧
      ∃ a text, FailingMock.generate ctx store = .ok [a] ∧ a.fragments = [text] ∧
        ClassDeclares (classOpening "StoreFailingMock" "Store") text "func find(key: String)" ∧
        ClassDeclares (classOpening "StoreFailingMock" "Store") text "init() throws" := by
  intro find byName byNumber cache store ctx
  have hstore : ctx.corpus.get? store.name = some store := by decide
  have hcache : ctx.corpus.Reaches store cache := .single ⟨_, rfl, "Cache", by decide, by decide⟩
  have hfirst : ctx.corpus.firstMethod? store byNumber.selector = some byName := by decide
  have hinit : ctx.corpus.firstInitializer? store "init()" = some ⟨[], ⟨false, true⟩⟩ := by decide
  have hopening : classOpening (ctx.settings.naming.failingMockName store.simpleName) store.name =
      classOpening "StoreFailingMock" "Store" := by decide
  obtain ⟨⟨a, text, hok, hfragments, hcovers⟩, -⟩ := covers_of_reaches hstore .refl rfl
  obtain ⟨⟨b, text', hok', hfragments', hcovers'⟩, -⟩ := covers_of_reaches hstore hcache rfl
  obtain rfl : a = b := by simpa [hok] using hok'
  obtain rfl : text = text' := by simpa [hfragments] using hfragments'
  rw [hopening] at hcovers hcovers'
  obtain ⟨first, heq, hdeclares⟩ := hcovers.methods byNumber (by simp)
  obtain ⟨first', heq', hdeclares'⟩ := hcovers'.initializers ⟨[], ⟨false, true⟩⟩ (by simp)
  obtain rfl : byName = first := by simpa [hfirst] using heq
  obtain rfl : (⟨[], ⟨false, true⟩⟩ : Initializer) = first' := Option.some.inj (hinit.symm.trans heq')
  have hname : byName.render = "func find(key: String)" := by decide
  have hthrows : (⟨[], ⟨false, true⟩⟩ : Initializer).render = "init() throws" := by decide
  exact ⟨hcache, hfirst, a, text, hok, hfragments, hname ▸ hdeclares, hthrows ▸ hdeclares'⟩

/-- Of two searches that differ in the type of the key only, the second has no member of its own,
though the contract declares it. -/
theorem overload_not_declared :
    let find := fun (type : TypeRef) => ({ name := "find"
                                           params := [⟨some "key", "key", type, none, false⟩]
                                           effects := {}
                                           result := .void } : Method)
    let contract : Contract := { methods := [find (.primitive "String"), find (.primitive "Int")] }
    let store : Declaration := { name := "Store", shape := .contract contract }
    let ctx : Context :=
      { corpus := ⟨[⟨store, []⟩]⟩, settings := {}, provider := {}, resolutions := [] }
    ctx.corpus.get? store.name = some store ∧ ctx.corpus.Reaches store store ∧
      store.contract? = some contract ∧ find (.primitive "Int") ∈ contract.methods ∧
      ∃ a text, FailingMock.generate ctx store = .ok [a] ∧ a.fragments = [text] ∧
        ¬ ClassDeclares (classOpening "StoreFailingMock" "Store") text
          (find (.primitive "Int")).render := by
  intro find contract store ctx
  have hclass : ctx.settings.naming.failingMockName store.simpleName = "StoreFailingMock" := by
    decide
  -- looked for among the bytes, so that no text has to be decoded
  have hnot : ¬ (find (.primitive "Int")).render.toByteArray.data.toList <:+:
      (FailingMock.code "StoreFailingMock" "Store"
        (ctx.corpus.requirements store)).toByteArray.data.toList := by
    decide +kernel
  obtain ⟨a, hok, hfragments⟩ := FailingMock.generate_eq ctx store
  rw [hclass] at hfragments
  refine ⟨by decide, .refl, rfl, by simp [contract], a, _, hok, hfragments, ?_⟩
  rintro ⟨before, body, after, htext⟩
  refine hnot
    ⟨(classOpening "StoreFailingMock" "Store" ++ before ++ "\n    ").toByteArray.data.toList,
      (" \x7b" ++ body ++ "\x7d\n" ++ after ++ "\x7d\n").toByteArray.data.toList, ?_⟩
  rw [htext]
  simp only [String.toByteArray_append, ByteArray.data_append, Array.toList_append,
    List.append_assoc]

end Scaffold
