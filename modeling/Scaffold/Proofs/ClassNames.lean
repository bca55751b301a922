/-
**The names of generated classes.**

Failing mocks and stubs are classes that are compiled together.  The name of each is the stem of the
contract, which is what is left of its name without a suffix, and a suffix for the kind of class.
The settings have to tell the two kinds apart, so that the mock and the stub of one contract have
different names.  Nothing keeps those of different contracts apart: contracts may have one stem, and
where one suffix ends with the other, the stem of one contract may go on with the rest.  A run with
such classes reports no problem for them.

Main definitions:

* `Scaffold.Naming.HasStem` — the stem of a name, told from the suffixes;
* `Scaffold.TestDouble` — the kinds of classes, with their strategies, suffixes and names;
* `Scaffold.Naming.Meet` — how the classes of two contracts come to have one name;
* `Scaffold.Context.Doubles` — the classes that a run yields;
* `Scaffold.Report.classNames` — their names.

Main results:

* `Scaffold.Naming.hasStem_iff` — the stem that is computed is the stem;
* `Scaffold.Naming.meet_iff` — the ways to one name are all ways;
* `Scaffold.exists_doubles_of_mem_artifacts`, `Scaffold.exists_artifact_of_doubles` — the classes
  among the artifacts of a run;
* `Scaffold.nodup_classNames_iff` — **when the classes of a run have different names**;
* `Scaffold.class_declared_twice` — two classes with one name, and no problem.
-/

import Mathlib.Data.List.Pairwise
import Scaffold.Proofs.MockMembers
import Scaffold.Proofs.OutputUnits

set_option relaxedAutoImplicit false
set_option autoImplicit false

namespace Scaffold

/-! ### Stems -/

namespace Text

/-- What is left without an end is what the end was put behind. -/
theorem dropSuffix?_eq_some_iff {tail s stem : String} :
    dropSuffix? tail s = some stem ↔ s = stem ++ tail := by
  constructor
  · intro h
    have hlist := append_of_dropSuffix? h
    rw [← String.toList_append, String.toList_inj] at hlist
    exact hlist.symm
  · rintro rfl
    exact dropSuffix?_append stem tail

end Text

namespace Naming

/-- A name ends with a suffix and has something in front of it. -/
def Cuts (suffix name : String) : Prop := ∃ stem, stem ≠ "" ∧ name = stem ++ suffix

/-- The stem of a name: what stands in front of the first suffix that can be cut off, or else the
whole name. -/
inductive HasStem (n : Naming) (name : String) : String → Prop
  /-- A suffix is cut off, and none before it can be. -/
  | cut {before after : List String} {suffix stem : String} :
      n.contractSuffixes = before ++ suffix :: after → stem ≠ "" → name = stem ++ suffix →
      (∀ s ∈ before, ¬Cuts s name) → HasStem n name stem
  /-- No suffix can be cut off. -/
  | whole : (∀ s ∈ n.contractSuffixes, ¬Cuts s name) → HasStem n name name

theorem stemWithout?_eq_some_iff {name suffix stem : String} :
    stemWithout? name suffix = some stem ↔ stem ≠ "" ∧ name = stem ++ suffix := by
  rw [stemWithout?, Option.filter_eq_some_iff, Text.dropSuffix?_eq_some_iff, and_comm]
  simp

theorem stemWithout?_eq_none_iff {name suffix : String} :
    stemWithout? name suffix = none ↔ ¬Cuts suffix name := by
  rw [Option.eq_none_iff_forall_ne_some, Cuts, not_exists]
  exact forall_congr' fun stem => not_congr stemWithout?_eq_some_iff

/-- **The stem that is computed is the stem.** -/
theorem hasStem_iff {n : Naming} {name stem : String} :
    n.HasStem name stem ↔ n.stem name = stem := by
  have hstem : n.HasStem name (n.stem name) := by
    rw [Naming.stem]
    cases hs : n.contractSuffixes.findSome? (stemWithout? name) with
    | some stem =>
        obtain ⟨before, suffix, after, hsuffixes, hsuffix, hbefore⟩ :=
          List.findSome?_eq_some_iff.1 hs
        obtain ⟨hne, hname⟩ := stemWithout?_eq_some_iff.1 hsuffix
        exact .cut hsuffixes hne hname fun s hs => stemWithout?_eq_none_iff.1 (hbefore s hs)
    | none =>
        exact .whole fun s hs' =>
          stemWithout?_eq_none_iff.1 (List.findSome?_eq_none_iff.1 hs s hs')
  refine ⟨?_, fun h => h ▸ hstem⟩
  intro h
  cases h with
  | cut hsuffixes hne hname hbefore =>
      have hfind := List.findSome?_eq_some_iff.2 ⟨_, _, _, hsuffixes,
        stemWithout?_eq_some_iff.2 ⟨hne, hname⟩,
        fun s hs => stemWithout?_eq_none_iff.2 (hbefore s hs)⟩
      rw [Naming.stem, hfind, Option.getD_some]
  | whole hnone =>
      have hfind := List.findSome?_eq_none_iff.2 fun s hs =>
        stemWithout?_eq_none_iff.2 (hnone s hs)
      rw [Naming.stem, hfind, Option.getD_none]

end Naming

/-! ### Names of classes -/

/-- The kinds of classes that stand for a contract in tests. -/
inductive TestDouble where
  /-- A failing mock. -/
  | failingMock
  /-- A stub. -/
  | stub
deriving DecidableEq, Repr

namespace TestDouble

/-- The strategy that generates the classes of a kind. -/
def strategy : TestDouble → Strategy
  | .failingMock => .failingMock
  | .stub => .stub

/-- The kind of the classes that a strategy generates. -/
def ofStrategy? : Strategy → Option TestDouble
  | .failingMock => some .failingMock
  | .stub => some .stub
  | .mapping | .registration | .feature => none

theorem ofStrategy?_eq_some_iff {s : Strategy} {k : TestDouble} :
    ofStrategy? s = some k ↔ s = k.strategy := by
  cases s <;> cases k <;> simp [ofStrategy?, strategy]

/-- What follows the stem of a contract in the name of a class. -/
def suffix (n : Naming) : TestDouble → String
  | .failingMock => n.failingMockSuffix
  | .stub => n.stubSuffix

/-- The name of the class for a contract. -/
def className (n : Naming) (k : TestDouble) (contract : String) : String :=
  match k with
  | .failingMock => n.failingMockName contract
  | .stub => n.stubName contract

theorem className_eq (n : Naming) (k : TestDouble) (contract : String) :
    className n k contract = n.stem contract ++ suffix n k := by
  cases k <;> rfl

end TestDouble

namespace Settings

/-- Settings make sense only if their naming conventions do. -/
theorem invalidNaming?_of_validate {settings : Settings} (h : settings.validate = .ok ()) :
    invalidNaming? settings.naming = none := by
  simp only [validate] at h
  split at h
  · cases h
  · next hvalid =>
      simp only [invalid?] at hvalid
      split at hvalid
      · cases hvalid
      · split at hvalid
        · cases hvalid
        · split at hvalid
          · cases hvalid
          · exact hvalid

/-- Naming conventions that make sense tell the kinds of classes apart. -/
theorem classSuffixes_ne {n : Naming} (h : invalidNaming? n = none) :
    n.failingMockSuffix ≠ n.stubSuffix := by
  intro heq
  simp only [invalidNaming?] at h
  split at h
  · cases h
  · split at h
    · cases h
    · split at h
      · cases h
      · cases h

end Settings

namespace TestDouble

/-- Where the suffixes are different, they tell the kind. -/
theorem eq_of_suffix_eq {n : Naming} (hne : n.failingMockSuffix ≠ n.stubSuffix) {k l : TestDouble}
    (h : k.suffix n = l.suffix n) : k = l := by
  cases k with
  | failingMock =>
      cases l with
      | failingMock => rfl
      | stub => exact absurd h hne
  | stub =>
      cases l with
      | failingMock => exact absurd h.symm hne
      | stub => rfl

/-- The mock and the stub of one contract have different names. -/
theorem eq_of_className_eq {n : Naming} (hne : n.failingMockSuffix ≠ n.stubSuffix)
    {k l : TestDouble} {contract : String} (h : k.className n contract = l.className n contract) :
    k = l := by
  rw [className_eq, className_eq] at h
  exact eq_of_suffix_eq hne ((String.append_right_inj _).1 h)

end TestDouble

/-! ### How names meet -/

/-- How the classes for two contracts come to have one name. -/
inductive Naming.Meet (n : Naming) : TestDouble → String → TestDouble → String → Prop
  /-- They are of one kind, and the contracts have one stem. -/
  | stem {k : TestDouble} {x y stem : String} :
      n.HasStem x stem → n.HasStem y stem → Meet n k x k y
  /-- The suffix of the first ends with that of the second, and the stem of the second goes on with
  the rest. -/
  | gap {k l : TestDouble} {x y stem gap : String} :
      gap ≠ "" → k.suffix n = gap ++ l.suffix n → n.HasStem x stem → n.HasStem y (stem ++ gap) →
      Meet n k x l y
  /-- The suffix of the second ends with that of the first, and the stem of the first goes on with
  the rest. -/
  | gap' {k l : TestDouble} {x y stem gap : String} :
      gap ≠ "" → l.suffix n = gap ++ k.suffix n → n.HasStem x (stem ++ gap) → n.HasStem y stem →
      Meet n k x l y

/-- Two ways to divide a text: one of the first parts goes on from the other one. -/
theorem exists_gap_of_append_eq {a b s t : String} (h : a ++ s = b ++ t) :
    (∃ gap, b = a ++ gap ∧ s = gap ++ t) ∨ ∃ gap, a = b ++ gap ∧ t = gap ++ s := by
  have hlists : a.toList ++ s.toList = b.toList ++ t.toList := by
    simpa using congrArg String.toList h
  rcases List.append_eq_append_iff.1 hlists with ⟨cs, hb, hs⟩ | ⟨cs, ha, ht⟩
  · refine Or.inl ⟨String.ofList cs, String.toList_inj.1 ?_, String.toList_inj.1 ?_⟩
    · simpa using hb
    · simpa using hs
  · refine Or.inr ⟨String.ofList cs, String.toList_inj.1 ?_, String.toList_inj.1 ?_⟩
    · simpa using ha
    · simpa using ht

/-- **These are all ways to one name**, where the suffixes are different. -/
theorem Naming.meet_iff {n : Naming} (hne : n.failingMockSuffix ≠ n.stubSuffix) {k l : TestDouble}
    {x y : String} : n.Meet k x l y ↔ k.className n x = l.className n y := by
  rw [TestDouble.className_eq, TestDouble.className_eq]
  constructor
  · intro h
    cases h with
    | stem hx hy => rw [hasStem_iff.1 hx, hasStem_iff.1 hy]
    | gap _ hsuffix hx hy =>
        rw [hasStem_iff.1 hx, hasStem_iff.1 hy, hsuffix, String.append_assoc]
    | gap' _ hsuffix hx hy =>
        rw [hasStem_iff.1 hx, hasStem_iff.1 hy, hsuffix, String.append_assoc]
  · intro h
    have hx : n.HasStem x (n.stem x) := hasStem_iff.2 rfl
    have hy : n.HasStem y (n.stem y) := hasStem_iff.2 rfl
    rcases exists_gap_of_append_eq h with ⟨gap, hstem, hsuffix⟩ | ⟨gap, hstem, hsuffix⟩
    · by_cases hgap : gap = ""
      · subst hgap
        obtain rfl := TestDouble.eq_of_suffix_eq hne (hsuffix.trans String.empty_append)
        rw [hstem, String.append_empty] at hy
        exact .stem hx hy
      · exact .gap hgap hsuffix hx (hstem ▸ hy)
    · by_cases hgap : gap = ""
      · subst hgap
        obtain rfl := TestDouble.eq_of_suffix_eq hne (hsuffix.trans String.empty_append)
        rw [hstem, String.append_empty] at hx
        exact .stem hx hy
      · exact .gap' hgap hsuffix (hstem ▸ hx) hy

/-! ### The classes of a run -/

/-- A run yields a class for a declaration: the strategy applies and its generator succeeds. -/
def Context.Doubles (ctx : Context) (k : TestDouble) (d : Declaration) : Prop :=
  d ∈ ctx.corpus.declarations ∧ ctx.runs d.name k.strategy = true ∧
    (apply ctx d k.strategy).isOk = true

/-- The name of the class that an artifact holds, if it holds one. -/
def Artifact.className? (a : Artifact) (n : Naming) : Option String :=
  (TestDouble.ofStrategy? a.strategy).map fun k => k.className n (Text.lastSegment a.declaration)

/-- The names of the classes of a run. -/
def Report.classNames (r : Report) (n : Naming) : List String :=
  r.artifacts.filterMap fun a => a.className? n

theorem Context.mem_tasks_double {ctx : Context} {k : TestDouble} {d : Declaration} :
    (d, k.strategy) ∈ tasks ctx ↔
      d ∈ ctx.corpus.declarations ∧ ctx.runs d.name k.strategy = true := by
  have hne : k.strategy ≠ .registration := by cases k <;> decide
  simp [mem_tasks, Context.runs, Resolution.runs, Option.any_eq_true, hne]

/-- The generator of a kind yields one artifact, or problems. -/
theorem TestDouble.isSingle_apply (ctx : Context) (d : Declaration) (k : TestDouble) :
    (apply ctx d k.strategy).IsSingle d.name k.strategy := by
  refine Scaffold.isSingle_apply ctx d ?_ ?_
  · cases k <;> decide
  · cases k <;> decide

/-- A class starts with its name, in the text of its artifact. -/
theorem TestDouble.exists_body {ctx : Context} {d : Declaration} {k : TestDouble} {a : Artifact}
    (h : apply ctx d k.strategy = .ok [a]) :
    ∃ body, a.fragments =
      [classOpening (k.className ctx.settings.naming d.simpleName) d.name ++ body] := by
  cases k with
  | failingMock =>
      obtain ⟨b, hb, hfragments⟩ := FailingMock.generate_eq ctx d
      have heq : (.ok [b] : Generated) = .ok [a] := hb.symm.trans h
      cases heq
      rw [hfragments]
      simp only [FailingMock.code, String.append_assoc]
      exact ⟨_, rfl⟩
  | stub =>
      simp only [apply, TestDouble.strategy, Stub.generate] at h
      split at h
      · cases h
        rw [Artifact.fragments_referAll]
        simp only [Stub.code, String.append_assoc]
        exact ⟨_, rfl⟩
      · cases h

/-- An artifact holds a class if its strategy generates one, under the name for its declaration. -/
theorem Artifact.className?_eq_some_iff {a : Artifact} {n : Naming} {name : String} :
    a.className? n = some name ↔ ∃ k : TestDouble, a.strategy = k.strategy ∧
      k.className n (Text.lastSegment a.declaration) = name := by
  simp [className?, TestDouble.ofStrategy?_eq_some_iff]

/-- Values of different items are different if no value belongs to two items. -/
theorem nodup_filterMap_iff {α β : Type} {f : α → Option β} {xs : List α} (h : xs.Nodup) :
    (xs.filterMap f).Nodup ↔ ∀ x ∈ xs, ∀ y ∈ xs, ∀ b, f x = some b → f y = some b → x = y := by
  rw [List.Nodup, List.pairwise_filterMap]
  constructor
  · intro hpairs x hx y hy b hxb hyb
    by_contra hne
    have : Std.Symm fun x y => ∀ b, f x = some b → ∀ b', f y = some b' → b ≠ b' :=
      ⟨fun x y hxy b hb b' hb' heq => hxy b' hb' b hb heq.symm⟩
    exact hpairs.forall hx hy hne b hxb b hyb rfl
  · intro hvalues
    refine h.pairwise_of_forall_ne ?_
    intro x hx y hy hne b hb b' hb' heq
    exact hne (hvalues x hx y hy b hb (heq ▸ hb'))

section Run

variable {processors : Nat} {settings : Settings} {provider : FixtureProvider} {o : Outcome}

/-- The artifacts of a run that hold classes come from the declarations that get one. -/
theorem exists_doubles_of_mem_artifacts {a : Artifact} {k : TestDouble}
    (ha : a ∈ (generateFrom processors settings provider o).artifacts)
    (hk : a.strategy = k.strategy) :
    ∃ d, (runContext settings provider o).Doubles k d ∧ a.declaration = d.name ∧
      apply (runContext settings provider o) d k.strategy = .ok [a] := by
  have hcorpus := Corpus.isIndexed_build o.entries
  rw [artifacts_generateFrom] at ha
  rcases List.mem_append.1 (mem_of_mem_collect ha) with ha | ha
  · obtain ⟨⟨d, s⟩, htask, ha⟩ := List.mem_flatMap.1 ha
    obtain rfl : s = k.strategy := (strategy_of_mem_apply hcorpus htask ha).symm.trans hk
    obtain ⟨hsingle, hname, -⟩ := (TestDouble.isSingle_apply _ d k).of_mem ha
    obtain ⟨hd, hruns⟩ := Context.mem_tasks_double.1 htask
    cases happly : apply (runContext settings provider o) d k.strategy with
    | error problems => simp [happly, Generated.artifacts] at ha
    | ok artifacts =>
        have hartifacts : artifacts = [a] := by simpa [happly, Generated.artifacts] using hsingle
        exact ⟨d, ⟨hd, hruns, by rw [happly]; rfl⟩, hname, by rw [happly, hartifacts]⟩
  · -- the table holds no class
    have htable := Context.strategy_of_mem_registered ha
    rw [hk] at htable
    cases k <;> cases htable

/-- Every declaration that gets a class has an artifact for it. -/
theorem exists_artifact_of_doubles {d : Declaration} {k : TestDouble}
    (h : (runContext settings provider o).Doubles k d) :
    ∃ a ∈ (generateFrom processors settings provider o).artifacts,
      a.declaration = d.name ∧ a.strategy = k.strategy := by
  obtain ⟨hd, hruns, hok⟩ := h
  have htask := Context.mem_tasks_double.2 ⟨hd, hruns⟩
  have hsingle := TestDouble.isSingle_apply (runContext settings provider o) d k
  obtain ⟨artifacts, happly⟩ := isOk_iff_exists.1 hok
  rw [happly] at hsingle
  obtain ⟨a, rfl, hkey⟩ := hsingle
  have hyield : a ∈ (tasks (runContext settings provider o)).flatMap
      (fun t => (apply (runContext settings provider o) t.1 t.2).artifacts) :=
    List.mem_flatMap.2 ⟨_, htask, by simp [happly, Generated.artifacts]⟩
  -- another artifact of the key may have been collected instead
  have hcollected : a.key ∈ (generateFrom processors settings provider o).artifacts.map
      Artifact.key := by
    rw [artifacts_generateFrom, mem_keys_collect]
    exact List.mem_map_of_mem (List.mem_append_left _ hyield)
  obtain ⟨b, hb, hbkey⟩ := List.mem_map.1 hcollected
  exact ⟨b, hb, Artifact.key_eq_iff.1 (hbkey.trans hkey)⟩

/-- The text of an artifact that holds a class declares the class under its name. -/
theorem exists_body_of_mem_artifacts {a : Artifact} {name : String}
    (ha : a ∈ (generateFrom processors settings provider o).artifacts)
    (hname : a.className? settings.naming = some name) :
    ∃ body, a.fragments = [classOpening name a.declaration ++ body] := by
  obtain ⟨k, hk, hclass⟩ := Artifact.className?_eq_some_iff.1 hname
  obtain ⟨d, -, hd, happly⟩ := exists_doubles_of_mem_artifacts ha hk
  obtain ⟨body, hbody⟩ := TestDouble.exists_body happly
  refine ⟨body, ?_⟩
  rw [hbody, ← hclass, hd]
  rfl

/-- The artifacts of a run have different keys. -/
theorem nodup_keys_artifacts :
    ((generateFrom processors settings provider o).artifacts.map Artifact.key).Nodup := by
  rw [artifacts_generateFrom]
  exact (isCollected_collect _).nodup_keys

/-- A run without problems yields every class that is asked for. -/
theorem doubles_of_problems_eq_nil
    (hproblems : (generateFrom processors settings provider o).problems = []) {k : TestDouble}
    {d : Declaration} (hd : d ∈ (runContext settings provider o).corpus.declarations)
    (hruns : (runContext settings provider o).runs d.name k.strategy = true) :
    (runContext settings provider o).Doubles k d := by
  refine ⟨hd, hruns, ?_⟩
  have hsingle := TestDouble.isSingle_apply (runContext settings provider o) d k
  cases happly : apply (runContext settings provider o) d k.strategy with
  | ok artifacts => rfl
  | error problems =>
      rw [happly] at hsingle
      obtain ⟨p, hp⟩ := List.exists_mem_of_ne_nil problems hsingle.1
      have hreported := @mem_problems_generateFrom processors _ _ _ _ _ p
        (Context.mem_tasks_double.2 ⟨hd, hruns⟩) (by simpa [happly, Generated.problems] using hp)
      rw [hproblems] at hreported
      cases hreported

/-- **When the classes of a run have different names.**  With settings that make sense, the class in
the text of an artifact has the name for the contract and the kind of class.  These names are
different exactly if no two declarations with classes have names that meet; the mock and the stub of
one declaration never do.  A run without problems has all classes that are asked for, whether or not
their names meet. -/
theorem nodup_classNames_iff (hvalid : settings.validate = .ok ()) :
    let ctx := runContext settings provider o
    let report := generateFrom processors settings provider o
    (∀ a ∈ report.artifacts, ∀ name, a.className? settings.naming = some name →
      ∃ body, a.fragments = [classOpening name a.declaration ++ body]) ∧
    ((report.classNames settings.naming).Nodup ↔
      ∀ k d l e, ctx.Doubles k d → ctx.Doubles l e →
        settings.naming.Meet k d.simpleName l e.simpleName → d = e) ∧
    (report.problems = [] → ∀ k : TestDouble, ∀ d ∈ ctx.corpus.declarations,
      ctx.runs d.name k.strategy = true → ctx.Doubles k d) := by
  intro ctx report
  have hcorpus : ctx.corpus.IsIndexed := Corpus.isIndexed_build o.entries
  have hne := Settings.classSuffixes_ne (Settings.invalidNaming?_of_validate hvalid)
  have hkeys : (report.artifacts.map Artifact.key).Nodup := nodup_keys_artifacts
  refine ⟨fun a ha name => exists_body_of_mem_artifacts ha, ?_,
    fun hproblems k d hd => doubles_of_problems_eq_nil hproblems hd⟩
  rw [Report.classNames, nodup_filterMap_iff (List.Nodup.of_map _ hkeys)]
  constructor
  · intro hnames k d l e hd he hmeet
    obtain ⟨a, ha, hadeclaration, hastrategy⟩ := @exists_artifact_of_doubles processors _ _ _ _ _ hd
    obtain ⟨b, hb, hbdeclaration, hbstrategy⟩ := @exists_artifact_of_doubles processors _ _ _ _ _ he
    have hclass : k.className settings.naming (Text.lastSegment a.declaration) =
        l.className settings.naming (Text.lastSegment b.declaration) := by
      rw [hadeclaration, hbdeclaration]
      exact (Naming.meet_iff hne).1 hmeet
    have heq : a = b := hnames a ha b hb _ (Artifact.className?_eq_some_iff.2 ⟨k, hastrategy, rfl⟩)
      (Artifact.className?_eq_some_iff.2 ⟨l, hbstrategy, hclass.symm⟩)
    refine hcorpus.eq_of_name hd.1 he.1 ?_
    rw [← hadeclaration, heq, hbdeclaration]
  · intro hmeets a ha b hb name haname hbname
    obtain ⟨k, hk, haclass⟩ := Artifact.className?_eq_some_iff.1 haname
    obtain ⟨l, hl, hbclass⟩ := Artifact.className?_eq_some_iff.1 hbname
    obtain ⟨d, hd, hadeclaration, -⟩ := exists_doubles_of_mem_artifacts ha hk
    obtain ⟨e, he, hbdeclaration, -⟩ := exists_doubles_of_mem_artifacts hb hl
    have hclass : k.className settings.naming d.simpleName =
        l.className settings.naming e.simpleName := by
      rw [Declaration.simpleName, Declaration.simpleName, ← hadeclaration, ← hbdeclaration, haclass,
        hbclass]
    -- one declaration, and so one kind of class
    obtain rfl := hmeets k d l e hd he ((Naming.meet_iff hne).2 hclass)
    obtain rfl := TestDouble.eq_of_className_eq hne hclass
    refine List.inj_on_of_nodup_map hkeys ha hb (Artifact.key_eq_iff.2 ⟨?_, ?_⟩)
    · exact hadeclaration.trans hbdeclaration.symm
    · exact hk.trans hl.symm

end Run

/-- A store and a store that fails, where mocks end with a word and stubs with its last part: the
mock of the one and the stub of the other are `StoreFailingMock`. -/
theorem nodup_classNames_iff_stores :
    let settings : Settings :=
      { naming := { failingMockSuffix := "FailingMock", stubSuffix := "Mock" } }
    let store : Declaration := { name := "Store", position := 0, shape := .contract {} }
    let failing : Declaration :=
      { name := "Depot.StoreFailing", position := 1, shape := .contract {} }
    let o : Outcome := { entries := [⟨store, ["autoFailingMock"]⟩, ⟨failing, ["autoStub"]⟩] }
    settings.validate = .ok () ∧
      settings.naming.Meet .failingMock "Store" .stub "StoreFailing" ∧
      ¬((generateFrom 4 settings ({} : NameMap String) o).classNames settings.naming).Nodup := by
  intro settings store failing o
  have hvalid : settings.validate = .ok () := by decide
  have hmeet : settings.naming.Meet .failingMock "Store" .stub "StoreFailing" :=
    (Naming.meet_iff (by decide)).2 (by decide)
  have hstore : (runContext settings ({} : NameMap String) o).Doubles .failingMock store := by
    refine ⟨by decide +kernel, by decide +kernel, by decide +kernel⟩
  have hfailing : (runContext settings ({} : NameMap String) o).Doubles .stub failing := by
    refine ⟨by decide +kernel, by decide +kernel, by decide +kernel⟩
  refine ⟨hvalid, hmeet, ?_⟩
  intro hnodup
  have hsimple : store.simpleName = "Store" ∧ failing.simpleName = "StoreFailing" := by decide
  have heq := (@nodup_classNames_iff 4 settings _ o hvalid).2.1.1 hnodup _ _ _ _ hstore hfailing
    (by rw [hsimple.1, hsimple.2]; exact hmeet)
  exact absurd heq (by decide)

/-- Two contracts with stubs that are the same without their suffixes. -/
def loaders : List Source :=
  [⟨"A.swift", "// sourcery: autoStub
protocol LoaderProtocol {
  func load()
}
" ++
    "// sourcery: autoStub
protocol LoaderInterface {
  func load()
}"⟩]

/-- **A class is declared twice** in a run without problems: two contracts have one stem, and the
stub of each is `LoaderStub`. -/
theorem class_declared_twice :
    let settings : Settings := {}
    let report := generate 4 settings ({} : NameMap String) loaders
    settings.validate = .ok () ∧ report.problems = [] ∧
      report.artifacts.map Artifact.declaration = ["LoaderInterface", "LoaderProtocol"] ∧
      report.classNames settings.naming = ["LoaderStub", "LoaderStub"] ∧
      ∀ a ∈ report.artifacts,
        ∃ body, a.fragments = [classOpening "LoaderStub" a.declaration ++ body] := by
  intro settings report
  have hrun : report.problems = [] ∧
      report.artifacts.map Artifact.declaration = ["LoaderInterface", "LoaderProtocol"] ∧
      report.classNames settings.naming = ["LoaderStub", "LoaderStub"] ∧
      ∀ a ∈ report.artifacts, a.className? settings.naming = some "LoaderStub" := by
    decide +kernel
  obtain ⟨hproblems, hdeclarations, hnames, hclass⟩ := hrun
  refine ⟨by decide, hproblems, hdeclarations, hnames, ?_⟩
  intro a ha
  exact exists_body_of_mem_artifacts ha (hclass a ha)

end Scaffold
