/-
**How far annotations reach.**

A rejected declaration matters to a run if it has tags, or if a declaration with tags depends on its
name or on that of its parent.  A declaration with tags depends on its own name and on every name it
mentions, with the transfer objects of each and with what each is nested in.  All of this looks one
level up: from a rejected declaration to its parent, and from a mentioned name to its owner.

So the problem of a rejected declaration is reported whenever a declaration with tags depends on its
name, and whenever its parent has tags, if other rejected declarations of its name have that parent
too.  It is not reported of a declaration that lies two levels inside of one with tags, nor of one
that owns a mentioned name two levels up.

Main definitions:

* `Scaffold.Corpus.DependsOn` — a declaration with tags depends on a name;
* `Scaffold.Outcome.LiesIn`, `Scaffold.Text.Owns` — nesting at any depth, of declarations that were
  read and of names.

Main results:

* `Scaffold.mem_wantedNames_iff` — which names are wanted;
* `Scaffold.Settings.matters_iff` — when a rejected declaration matters;
* `Scaffold.problem_reported_of_dependsOn` — **which problems of rejected declarations are
  reported**;
* `Scaffold.nested_problems_left_out` — problems two levels away, which are not.
-/

import Scaffold.Proofs.Rejections

set_option relaxedAutoImplicit false
set_option autoImplicit false

namespace Scaffold

/-! ### What annotated declarations depend on -/

/-- A declaration with tags depends on a name: the name is its own or one that it mentions, that of
a transfer object of such a name, or that of what such a name is nested in. -/
def Corpus.DependsOn (corpus : Corpus) (naming : Naming) (name : String) : Prop :=
  ∃ d ∈ corpus.annotated, ∃ mention, (mention = d.name ∨ mention ∈ d.mentionedNames) ∧
    (name = mention ∨ name ∈ naming.counterparts mention ∨ Text.owner? mention = some name)

theorem mem_wantedBy_iff {naming : Naming} {mention name : String} :
    name ∈ wantedBy naming mention ↔
      name = mention ∨ name ∈ naming.counterparts mention ∨ Text.owner? mention = some name := by
  simp [wantedBy]

theorem mem_wantedNames_iff {corpus : Corpus} {naming : Naming} {name : String} :
    name ∈ wantedNames corpus naming ↔ corpus.DependsOn naming name := by
  simp only [wantedNames, List.mem_flatMap, List.mem_cons, NameSet.mem_toList, mem_wantedBy_iff,
    Corpus.DependsOn]

/-- A declaration with tags depends on itself. -/
theorem Corpus.dependsOn_name {corpus : Corpus} (naming : Naming) {d : Declaration}
    (hd : d ∈ corpus.annotated) : corpus.DependsOn naming d.name :=
  ⟨d, hd, d.name, .inl rfl, .inl rfl⟩

/-- **When a rejected declaration matters**: it has tags, or a declaration with tags depends on it
or on its parent. -/
theorem Settings.matters_iff (settings : Settings) (o : Outcome) (r : Rejected) :
    settings.Matters o r ↔
      tagsOf r.markers ≠ [] ∨
        (Corpus.build o.entries).1.DependsOn settings.naming r.declaration ∨
        ∃ parent, r.parent = some parent ∧
          (Corpus.build o.entries).1.DependsOn settings.naming parent := by
  have hparent : ∀ parent, parent ∈ (Corpus.build o.entries).1.annotated.map Declaration.name ∨
      (Corpus.build o.entries).1.DependsOn settings.naming parent ↔
        (Corpus.build o.entries).1.DependsOn settings.naming parent := by
    refine fun parent => or_iff_right_of_imp fun hmem => ?_
    obtain ⟨d, hd, rfl⟩ := List.mem_map.1 hmem
    exact Corpus.dependsOn_name _ hd
  simp only [Settings.Matters, Rejected.isRelevant, Bool.or_eq_true, Bool.not_eq_true',
    List.isEmpty_eq_false_iff, List.contains_eq_mem, decide_eq_true_eq, Option.any_eq_true,
    mem_wantedNames_iff, hparent, or_assoc]

/-! ### Nesting -/

/-- Something with the given parent lies in the outer declaration, at any depth: the parent is the
outer declaration, or one that was read and lies in it. -/
inductive Outcome.LiesIn (o : Outcome) (outer : String) : (parent : Option String) → Prop
  | directly : LiesIn o outer (some outer)
  | within {e : Entry} (mem : e ∈ o.entries) (parent : LiesIn o outer e.declaration.parent) :
      LiesIn o outer (some e.declaration.name)

/-- A dotted name is nested in an owner, at any depth. -/
inductive Text.Owns (owner : String) : (name : String) → Prop
  | directly {name : String} (last : owner? name = some owner) : Owns owner name
  | within {name inner : String} (last : owner? name = some inner) (rest : Owns owner inner) :
      Owns owner name

/-! ### Reports -/

/-- **Which problems of rejected declarations are reported.**  All rejected declarations are
accounted for.  The problem of one is passed on exactly if each rejected declaration of its name has
tags, or a declaration with tags depends on its name or on that of its parent.  Generating and
inspecting report it, and generating is no success, in two cases: a declaration with tags depends on
its name; or one is the parent of all rejected declarations of its name. -/
theorem problem_reported_of_dependsOn (processors : Nat) (settings : Settings)
    (provider : FixtureProvider) (sources : List Source) :
    let o := readUnits processors settings sources
    let corpus := (Corpus.build o.entries).1
    let reported := fun p : Problem =>
      p ∈ (generate processors settings provider sources).problems ∧
        p ∈ (inspect processors settings sources).problems ∧
        (generate processors settings provider sources).isSuccess = false
    (∃ rs, o.Accounts rs) ∧ ∀ rs, o.Accounts rs → ∀ r ∈ rs,
      (r.problem ∈ settings.passedOn o ↔
        ∀ s ∈ rs, s.rejected.declaration = r.rejected.declaration →
          tagsOf s.rejected.markers ≠ [] ∨
            corpus.DependsOn settings.naming s.rejected.declaration ∨
            ∃ parent, s.rejected.parent = some parent ∧
              corpus.DependsOn settings.naming parent) ∧
      (corpus.DependsOn settings.naming r.rejected.declaration → reported r.problem) ∧
      ∀ d ∈ corpus.annotated,
        (∀ s ∈ rs, s.rejected.declaration = r.rejected.declaration →
          s.rejected.parent = some d.name) → reported r.problem := by
  intro o corpus reported
  refine ⟨exists_accounts_readAll _ _ _, ?_⟩
  intro rs haccounts r hr
  have hproblem : r.problem ∈ o.problems := haccounts.2.subset (List.mem_map_of_mem hr)
  have hpassed : r.problem ∈ settings.passedOn o ↔
      ∀ s ∈ rs, s.rejected.declaration = r.rejected.declaration →
        settings.Matters o s.rejected := by
    rw [Rejection.problem, settings.mem_passedOn_iff hproblem, haccounts.1]
    exact List.forall_mem_map
  simp only [settings.matters_iff] at hpassed
  have hreported : r.problem ∈ settings.passedOn o → reported r.problem := by
    intro h
    have hgenerate := passedOn_subset_generate processors settings provider sources h
    refine ⟨hgenerate, passedOn_subset_inspect processors settings sources h, ?_⟩
    simpa [Report.isSuccess] using List.ne_nil_of_mem hgenerate
  refine ⟨hpassed, fun hdepends => ?_, fun d hd hparent => ?_⟩
  · -- what depends on the name depends on all rejected declarations that bear it
    refine hreported (hpassed.2 fun s _ hname => .inr (.inl ?_))
    rw [hname]
    exact hdepends
  · exact hreported (hpassed.2 fun s hs hname =>
      .inr (.inr ⟨d.name, hparent s hs hname, Corpus.dependsOn_name _ hd⟩))

/-- A protocol with a tag mentions a type two levels inside of a structure that cannot be read, and
a structure with a tag has one two levels inside that cannot be read. -/
def nestedShops : List Source :=
  [⟨"Shop.swift", "// sourcery: autoFailingMock\nprotocol Shop \x7b\n" ++
      "  func shelf() -> Depot.Hall.Shelf\n\x7d\nstruct Depot \x7b\n  var size = 3\n\x7d"⟩,
    ⟨"Order.swift", "// sourcery: autoregister\nstruct Order \x7b\n  struct Line \x7b\n" ++
      "    struct Price \x7b\n      var amount = 3\n    \x7d\n  \x7d\n\x7d"⟩]

/-- Nothing is said about the structure that owns a mentioned type, nor about the one that lies in a
structure with a tag, since both are two levels away. -/
theorem nested_problems_left_out :
    let o := readUnits 1 {} nestedShops
    let annotated := (Corpus.build o.entries).1.annotated
    let leftOut := fun p : Problem =>
      p ∈ o.problems ∧ p ∉ (generate 1 {} {} nestedShops).problems ∧
        p ∉ (inspect 1 {} nestedShops).problems
    (∃ d ∈ annotated, ∃ r ∈ o.rejected, o.LiesIn d.name r.parent ∧
      leftOut (.malformed r.declaration (some "var amount") .untypedProperty 5)) ∧
    ∃ d ∈ annotated, ∃ mention ∈ d.mentionedNames, ∃ r ∈ o.rejected,
      Text.Owns r.declaration mention ∧
      leftOut (.malformed r.declaration (some "var size") .untypedProperty 6) := by
  have hread : (∃ d ∈ (Corpus.build (readUnits 1 {} nestedShops).entries).1.annotated,
        d.name = "Order") ∧
      (∃ d ∈ (Corpus.build (readUnits 1 {} nestedShops).entries).1.annotated,
        "Depot.Hall.Shelf" ∈ d.mentionedNames.toList) ∧
      (∃ e ∈ (readUnits 1 {} nestedShops).entries, e.declaration.name = "Order.Line" ∧
        e.declaration.parent = some "Order") ∧
      (readUnits 1 {} nestedShops).rejected =
        [⟨"Depot", none, []⟩, ⟨"Order.Line.Price", some "Order.Line", []⟩] ∧
      (readUnits 1 {} nestedShops).problems =
        [.malformed "Depot" (some "var size") .untypedProperty 6,
          .malformed "Order.Line.Price" (some "var amount") .untypedProperty 5] ∧
      (generate 1 {} {} nestedShops).problems = [] ∧ (inspect 1 {} nestedShops).problems = [] := by
    decide +kernel
  obtain ⟨⟨d, hd, hname⟩, ⟨shop, hshop, hmention⟩, ⟨e, he, hline, hparent⟩, hrejected, hproblems,
    hgenerate, hinspect⟩ := hread
  have hshelf : Text.owner? "Depot.Hall.Shelf" = some "Depot.Hall" := by decide +kernel
  have hhall : Text.owner? "Depot.Hall" = some "Depot" := by decide +kernel
  simp only [hrejected, hproblems, hgenerate, hinspect]
  refine ⟨⟨d, hd, ⟨"Order.Line.Price", some "Order.Line", []⟩, by simp, ?_, by simp⟩,
    shop, hshop, _, hmention, ⟨"Depot", none, []⟩, by simp, .within hshelf (.directly hhall),
    by simp⟩
  -- the parent of the structure was read, and lies in the one with the tag
  have hin : (readUnits 1 {} nestedShops).LiesIn d.name e.declaration.parent := by
    rw [hparent, hname]
    exact .directly
  exact hline ▸ .within he hin

end Scaffold
