/-
**What a mapping brings along.**

The initializer of a mapping calls the initializers of other types, so their mappings are generated
with it.  Targets are planned one after the other, each once, and the targets that a plan calls come
next.  What is generated is the least set of targets that has the requested one and with each target
all that its plan calls.

An initializer either assigns fields or goes through cases.  It leaves no field without a value,
assigns no constant that has one, and has an arm for every case of the transfer object.  What it
calls can be told from its text as long as the names in it are those of identifiers: a name in
backticks is written without them, and may then look like a call of its own.

Main definitions:

* `Scaffold.Mapping.Expression`, `Scaffold.Mapping.Body` — what an initializer does;
* `Scaffold.Mapping.Body.Initializes` — it initializes a target from a transfer object;
* `Scaffold.Mapping.CallsWithin` — the calls in a text are those of given types;
* `Scaffold.Mapping.Worked` — pending pairs are planned one after the other;
* `Scaffold.Mapping.pairUnder?`, `Scaffold.Mapping.IsClosed` — the pair that is planned under a name,
  and sets of targets that have all that is called.

Main results:

* `Scaffold.Mapping.exists_body` — the lines of a plan are those of an initializer;
* `Scaffold.Mapping.Worked.subset`, `Scaffold.Mapping.Worked.exists_plan` — no target is planned
  without need, and what a plan calls is planned;
* `Scaffold.Mapping.generate_isLeast` — **the mappings of a declaration are closed and initialize
  completely**;
* `Scaffold.Mapping.quoted_name_called` — a name that looks like a call.
-/

import Mathlib.Data.List.Nodup
import Mathlib.Order.Bounds.Defs
import Scaffold.Proofs.MappingAgreement
import Scaffold.Run

set_option relaxedAutoImplicit false
set_option autoImplicit false

namespace Scaffold.Mapping

/-! ### What an initializer does -/

/-- A conversion of the value at a place. -/
inductive Expression where
  /-- The value itself. -/
  | itself
  /-- What is inside of an optional or a collection, converted one by one. -/
  | inside (keyed : Bool) (inner : Expression)
  /-- The initializer of a declared type. -/
  | call (type : String)
deriving DecidableEq, Repr

namespace Expression

/-- The conversion of the value at a place, as it is written. -/
def render (place : String) : Expression → String
  | itself => place
  | inside keyed inner =>
    place ++ "." ++ (if keyed then "mapValues" else "map") ++ " \x7b " ++ inner.render "$0" ++ " \x7d"
  | call type => type ++ "(dto: " ++ place ++ ")"

/-- The types whose initializers are called. -/
def calls : Expression → List String
  | itself => []
  | inside _ inner => inner.calls
  | call type => [type]

end Expression

/-- What an initializer does. -/
inductive Body where
  /-- It assigns fields, each from that of the same name. -/
  | assign (assignments : List (String × Expression))
  /-- It goes through the cases of the transfer object. -/
  | switch (arms : List (String × String))
deriving DecidableEq, Repr

namespace Body

/-- An assignment, as it is written. -/
def assignment (a : String × Expression) : String :=
  "self." ++ a.1 ++ " = " ++ a.2.render ("dto." ++ a.1)

/-- An arm, as it is written. -/
def arm (a : String × String) : String := "case ." ++ a.1 ++ ": self = ." ++ a.2

/-- The lines of an initializer. -/
def lines : Body → List String
  | assign assignments => assignments.map assignment
  | switch arms => ["switch dto \x7b"] ++ arms.map arm ++ ["\x7d"]

/-- The types whose initializers are called. -/
def calls : Body → List String
  | assign assignments => assignments.flatMap fun a => a.2.calls
  | switch _ => []

end Body

/-- The names of assigned fields are those that an initializer has to assign. -/
structure AssignsFields (assigned : List String) (target source : ValueType) : Prop where
  /-- A field without a default is assigned once. -/
  once : ∀ f ∈ target.fields, f.default = none → assigned.count f.name = 1
  /-- A constant with a default is not assigned. -/
  assignable : ∀ f ∈ target.fields, f.isMutable = false → f.default.isSome = true →
    f.name ∉ assigned
  /-- What is assigned is a field of both types. -/
  shared : ∀ name ∈ assigned, (target.field? name).isSome = true ∧ (source.field? name).isSome = true

/-- The arms go through all cases of the source, into cases of the target. -/
structure CoversCases (arms : List (String × String)) (target source : Enumeration) : Prop where
  /-- There is one arm for each case of the source. -/
  one : arms.map Prod.fst = source.cases
  /-- An arm leads to a case of the target. -/
  declared : ∀ a ∈ arms, a.2 ∈ target.cases

/-- An initializer initializes a target from a transfer object. -/
def Body.Initializes : Body → (target source : Shape) → Prop
  | assign assignments, .value t, .value s =>
    (t.fields.map Field.name).Nodup → AssignsFields (assignments.map Prod.fst) t s
  | switch arms, .enumeration t, .enumeration s => CoversCases arms t s
  | _, _, _ => False

/-! ### The lines of a plan -/

section Plans

variable {maps : String → String → Bool}

/-- A conversion is that of an expression. -/
theorem exists_expression {expr : String} {source target : TypeRef} {c : Conversion}
    (h : convert? maps expr source target = some c) :
    ∃ e : Expression, e.render expr = c.1 ∧ e.calls = c.2 := by
  fun_induction convert? maps expr source target generalizing c with
  | case1 | case4 | case7 | case11 | case15 =>
      cases h
      exact ⟨.itself, rfl, rfl⟩
  | case2 expr t s _ ih | case5 expr t s _ ih =>
      obtain ⟨inner, hinner, rfl⟩ := Option.map_eq_some_iff.1 h
      obtain ⟨e, hrender, hcalls⟩ := ih hinner
      exact ⟨.inside false e, by simp [Expression.render, inside, hrender], hcalls⟩
  | case8 expr t j s _ ih =>
      obtain ⟨inner, hinner, rfl⟩ := Option.map_eq_some_iff.1 h
      obtain ⟨e, hrender, hcalls⟩ := ih hinner
      exact ⟨.inside true e, by simp [Expression.render, inside, hrender], hcalls⟩
  | case3 expr t source _ _ ih => exact ih h
  | case12 expr t s _ =>
      cases h
      exact ⟨.call t, rfl, rfl⟩
  | case6 | case9 | case10 | case13 | case14 | case16 => cases h

/-- A field is assigned if a line comes of it. -/
def assigns (maps : String → String → Bool) (source : ValueType) (f : Field) : Bool :=
  (fieldStep maps source f).line?.isSome

/-- An assigned field has a source, and no constant with a default is assigned. -/
theorem of_assigns {source : ValueType} {f : Field} (h : assigns maps source f = true) :
    (source.field? f.name).isSome = true ∧ ¬(f.isMutable = false ∧ f.default.isSome = true) := by
  simp only [assigns, fieldStep] at h
  split at h
  · simp [FieldStep.line?] at h
  · next hkept =>
      refine ⟨?_, by simpa using hkept⟩
      split at h
      · next s hs => simp [hs]
      · split at h <;> simp [FieldStep.line?] at h

/-- A field that fits and has no default is assigned. -/
theorem assigns_of_default {source : ValueType} {f : Field}
    (hfits : fieldStep maps source f ≠ .misfit) (hdefault : f.default = none) :
    assigns maps source f = true := by
  simp only [assigns, fieldStep, hdefault, Option.isSome_none, Bool.and_false, Bool.false_eq_true,
    if_false] at hfits ⊢
  split
  · split
    · rfl
    · simp_all
  · simp_all

/-- The line of a field that is assigned is an assignment of it. -/
theorem exists_assignment {source : ValueType} {f : Field} (h : assigns maps source f = true) :
    ∃ e : Expression, fieldStep maps source f = .assign (Body.assignment (f.name, e)) e.calls := by
  simp only [assigns, fieldStep] at h ⊢
  split at h
  · simp [FieldStep.line?] at h
  · split at h
    · next s hs =>
        split at h
        · next expr nested hconvert =>
            obtain ⟨e, hrender, hcalls⟩ := exists_expression hconvert
            exact ⟨e, by simp [*, Body.assignment]⟩
        · simp [FieldStep.line?] at h
    · split at h <;> simp [FieldStep.line?] at h

/-- The steps of fields are the assignments of those that are assigned, in order. -/
theorem exists_assignments (source : ValueType) (fields : List Field) :
    ∃ assignments : List (String × Expression),
      (fields.filterMap fun f => (fieldStep maps source f).line?) =
        assignments.map Body.assignment ∧
      (fields.flatMap fun f => (fieldStep maps source f).nested) =
        assignments.flatMap (fun a => a.2.calls) ∧
      assignments.map Prod.fst = (fields.filter (assigns maps source)).map Field.name := by
  induction fields with
  | nil => exact ⟨[], rfl, rfl, rfl⟩
  | cons f fields ih =>
      obtain ⟨assignments, hlines, hcalls, hnames⟩ := ih
      cases hassigns : assigns maps source f with
      | true =>
          obtain ⟨e, he⟩ := exists_assignment hassigns
          refine ⟨(f.name, e) :: assignments, ?_, ?_, ?_⟩
          · rw [List.filterMap_cons, he, hlines]
            rfl
          · rw [List.flatMap_cons, he, hcalls]
            rfl
          · simp [hassigns, hnames]
      | false =>
          have hline : (fieldStep maps source f).line? = none := by
            simpa [assigns] using hassigns
          have hnested : (fieldStep maps source f).nested = [] := by
            cases hstep : fieldStep maps source f with
            | assign line nested => simp [hstep, FieldStep.line?] at hline
            | keep | misfit => rfl
          refine ⟨assignments, ?_, ?_, ?_⟩
          · simp [hline, hlines]
          · simp [hnested, hcalls]
          · simp [hassigns, hnames]

/-- The fields that are assigned are those that have to be, if no two have one name. -/
theorem assignsFields_of_fits {target source : ValueType}
    (hnodup : (target.fields.map Field.name).Nodup)
    (hfits : ∀ f ∈ target.fields, fieldStep maps source f ≠ .misfit) :
    AssignsFields ((target.fields.filter (assigns maps source)).map Field.name) target source where
  once := by
    intro f hf hdefault
    refine List.count_eq_one_of_mem (hnodup.sublist (List.filter_sublist.map _)) ?_
    exact List.mem_map_of_mem (List.mem_filter.2 ⟨hf, assigns_of_default (hfits f hf) hdefault⟩)
  assignable := by
    intro f hf hmutable hdefault hmem
    obtain ⟨g, hg, hname⟩ := List.mem_map.1 hmem
    obtain ⟨hg, hassigns⟩ := List.mem_filter.1 hg
    obtain rfl := List.inj_on_of_nodup_map hnodup hg hf hname
    exact (of_assigns hassigns).2 ⟨hmutable, hdefault⟩
  shared := by
    intro name hname
    obtain ⟨g, hg, rfl⟩ := List.mem_map.1 hname
    obtain ⟨hg, hassigns⟩ := List.mem_filter.1 hg
    refine ⟨?_, (of_assigns hassigns).1⟩
    rw [ValueType.field?, List.find?_isSome]
    exact ⟨g, hg, by simp⟩

theorem exists_body_of_fields {strict : Bool} {target source : ValueType} {p : Plan}
    (h : planFields maps strict target source = .ok p) :
    ∃ assignments : List (String × Expression),
      p.lines = assignments.map Body.assignment ∧
      p.nested = assignments.flatMap (fun a => a.2.calls) ∧
      ((target.fields.map Field.name).Nodup →
        AssignsFields (assignments.map Prod.fst) target source) := by
  simp only [planFields] at h
  split at h
  · next hnone =>
      cases h
      obtain ⟨assignments, hlines, hcalls, hnames⟩ := exists_assignments source target.fields
      refine ⟨assignments, ?_, ?_, ?_⟩
      · simpa [fieldSteps, List.filterMap_map, Function.comp_def] using hlines
      · simpa [fieldSteps, List.flatMap_map] using hcalls
      · intro hnodup
        rw [hnames]
        refine assignsFields_of_fits hnodup ?_
        simpa [targetMisfits, fieldSteps, List.filter_eq_nil_iff] using
          (List.append_eq_nil_iff.1 hnone).1
  · cases h

theorem exists_body_of_cases {target source : Enumeration} {p : Plan}
    (h : planCases target source = .ok p) :
    ∃ arms, p.lines = (Body.switch arms).lines ∧ p.nested = [] ∧
      CoversCases arms target source := by
  have hcovered := (planCases_isOk_iff.1 (isOk_iff_exists.2 ⟨p, h⟩)).covered
  simp only [planCases] at h
  split at h
  · cases h
  split at h
  · cases h
    refine ⟨source.cases.map fun c => (c, c), ?_, rfl, ?_, ?_⟩
    · simp [Body.lines, Body.arm, Function.comp_def]
    · simp [Function.comp_def]
    · intro a ha
      obtain ⟨c, hc, rfl⟩ := List.mem_map.1 ha
      exact hcovered c hc
  · cases h

/-- **The lines of a plan are those of an initializer**, which initializes the target from the
transfer object and calls the types that the plan relies on. -/
theorem exists_body {strict : Bool} {target source : Shape} {p : Plan}
    (h : planShapes maps strict target source = .ok p) :
    ∃ b : Body, b.lines = p.lines ∧ b.calls = p.nested ∧ b.Initializes target source := by
  match target, source, h with
  | .value t, .value s, h =>
      obtain ⟨assignments, hlines, hcalls, hassigns⟩ := exists_body_of_fields h
      exact ⟨.assign assignments, hlines.symm, hcalls.symm, hassigns⟩
  | .enumeration t, .enumeration s, h =>
      obtain ⟨arms, hlines, hcalls, hcovers⟩ := exists_body_of_cases h
      exact ⟨.switch arms, hlines.symm, hcalls.symm, hcovers⟩

end Plans

/-! ### Calls in a text -/

/-- Every opening parenthesis in a text belongs to a call of one of the given types, whose name
stands behind a blank. -/
def CallsWithin (types : Set String) (text : List Char) : Prop :=
  ∀ before behind, text = before ++ '(' :: behind →
    ∃ type ∈ types, ∃ start, before = start ++ ' ' :: type.toList

section Calls

variable {types : Set String}

theorem CallsWithin.append {xs ys : List Char} (hx : CallsWithin types xs)
    (hy : CallsWithin types ys) : CallsWithin types (xs ++ ys) := by
  intro before behind h
  rcases List.append_eq_append_iff.1 h with ⟨zs, rfl, hzs⟩ | ⟨zs, rfl, hzs⟩
  · obtain ⟨type, htype, start, rfl⟩ := hy zs behind hzs
    exact ⟨type, htype, xs ++ start, by simp⟩
  · cases zs with
    | nil =>
        obtain ⟨type, htype, start, hstart⟩ := hy [] behind (by simpa using hzs.symm)
        simp at hstart
    | cons z zs =>
        obtain ⟨rfl, -⟩ := List.cons.inj hzs
        exact hx before zs rfl

theorem callsWithin_of_notMem {text : List Char} (h : '(' ∉ text) : CallsWithin types text := by
  intro before behind heq
  exact absurd (by simp [heq]) h

/-- A call of a type that is given. -/
theorem callsWithin_call {type : String} (htype : type ∈ types) (hplain : '(' ∉ type.toList)
    {rest : List Char} (hrest : '(' ∉ rest) :
    CallsWithin types (' ' :: type.toList ++ '(' :: rest) := by
  intro before behind h
  -- the parenthesis is the only one
  have hbefore : before = ' ' :: type.toList := by
    rcases List.append_eq_append_iff.1 h with ⟨zs, hbefore, hzs⟩ | ⟨zs, hbefore, hzs⟩
    · cases zs with
      | nil => simpa using hbefore
      | cons z zs =>
          obtain ⟨-, rfl⟩ := List.cons.inj hzs
          exact absurd (by simp) hrest
    · cases zs with
      | nil => simpa using hbefore.symm
      | cons z zs =>
          obtain ⟨rfl, -⟩ := List.cons.inj hzs
          have hmem : '(' ∈ ' ' :: type.toList := by simp [hbefore]
          exact absurd hmem (by simp [hplain])
  exact ⟨type, htype, [], by simpa using hbefore⟩

/-- The calls of an expression at a plain place are those of its types, if their names are plain. -/
theorem callsWithin_render {place : String} (hplace : '(' ∉ place.toList) (e : Expression)
    (hcalls : ∀ type ∈ e.calls, type ∈ types ∧ '(' ∉ type.toList) :
    CallsWithin types (' ' :: (e.render place).toList) := by
  induction e generalizing place with
  | itself => exact callsWithin_of_notMem (by simpa [Expression.render] using hplace)
  | inside keyed inner ih =>
      have hmethod : '(' ∉ (if keyed then "mapValues" else "map").toList := by
        cases keyed <;> decide
      have htext : ' ' :: ((Expression.inside keyed inner).render place).toList =
          (' ' :: place.toList ++ '.' :: (if keyed then "mapValues" else "map").toList ++
            [' ', '\x7b']) ++ (' ' :: (inner.render "$0").toList ++ [' ', '\x7d']) := by
        simp [Expression.render]
      rw [htext]
      refine CallsWithin.append (callsWithin_of_notMem ?_) (CallsWithin.append (ih ?_ hcalls) ?_)
      · simp [hplace, hmethod]
      · decide
      · exact callsWithin_of_notMem (by decide)
  | call type =>
      obtain ⟨htype, hplain⟩ := hcalls type (List.mem_singleton.2 rfl)
      have htext : ' ' :: ((Expression.call type).render place).toList =
          ' ' :: type.toList ++ '(' :: ("dto: ".toList ++ place.toList ++ [')']) := by
        simp [Expression.render]
      rw [htext]
      exact callsWithin_call htype hplain (by simp [hplace])

end Calls

/-- The text of an initializer between its braces. -/
def bodyText (lines : List String) : String :=
  String.join (lines.map fun l => "        " ++ l ++ "\n")

theorem code_eq (target source : String) (lines : List String) :
    code target source lines =
      "extension " ++ target ++ " \x7b\n" ++ "    init(dto: " ++ source ++ ") \x7b\n" ++
        bodyText lines ++ "    \x7d\n" ++ "\x7d\n" := rfl

/-- No name that an initializer is written with has an opening parenthesis. -/
def Body.IsPlain : Body → Prop
  | assign assignments => ∀ a ∈ assignments,
      '(' ∉ a.1.toList ∧ ∀ type ∈ a.2.calls, '(' ∉ type.toList
  | switch arms => ∀ a ∈ arms, '(' ∉ a.1.toList ∧ '(' ∉ a.2.toList

/-- The names of the fields or of the cases of a shape. -/
def memberNames : Shape → List String
  | .value v => v.fields.map Field.name
  | .enumeration e => e.cases
  | .contract _ => []

/-- An initializer is written with names of fields or cases and of the types that it calls. -/
theorem Body.Initializes.isPlain {b : Body} {target source : Shape}
    (h : b.Initializes target source) (hnodup : (memberNames target).Nodup)
    (hnames : ∀ name ∈ memberNames target ++ memberNames source, '(' ∉ name.toList)
    (hcalls : ∀ type ∈ b.calls, '(' ∉ type.toList) : b.IsPlain := by
  match b, target, source, h with
  | .assign assignments, .value t, .value s, h =>
      intro a ha
      refine ⟨?_, fun type htype => hcalls type (List.mem_flatMap.2 ⟨a, ha, htype⟩)⟩
      have hfield := ((h hnodup).shared a.1 (List.mem_map_of_mem ha)).1
      rw [ValueType.field?, List.find?_isSome] at hfield
      obtain ⟨f, hf, hname⟩ := hfield
      rw [← beq_iff_eq.1 hname]
      exact hnames _ (List.mem_append_left _ (List.mem_map_of_mem hf))
  | .switch arms, .enumeration t, .enumeration s, h =>
      intro a ha
      refine ⟨hnames _ (List.mem_append_right _ ?_), hnames _ (List.mem_append_left _ ?_)⟩
      · rw [memberNames, ← h.one]
        exact List.mem_map_of_mem ha
      · exact h.declared a ha

theorem callsWithin_bodyText {types : Set String} {lines : List String}
    (h : ∀ l ∈ lines, CallsWithin types l.toList) : CallsWithin types (bodyText lines).toList := by
  induction lines with
  | nil => exact callsWithin_of_notMem (by decide)
  | cons l lines ih =>
      have htext : (bodyText (l :: lines)).toList =
          "        ".toList ++ l.toList ++ ['\n'] ++ (bodyText lines).toList := by
        simp [bodyText, String.join_cons]
      rw [htext]
      refine CallsWithin.append (CallsWithin.append (CallsWithin.append ?_ ?_) ?_) (ih ?_)
      · exact callsWithin_of_notMem (by decide)
      · exact h l (by simp)
      · exact callsWithin_of_notMem (by decide)
      · exact fun l hl => h l (List.mem_cons_of_mem _ hl)

/-- **The calls in the text of an initializer** are those of the types that it calls. -/
theorem Body.callsWithin {types : Set String} {b : Body} (hplain : b.IsPlain)
    (hcalls : ∀ type ∈ b.calls, type ∈ types) : CallsWithin types (bodyText b.lines).toList := by
  refine callsWithin_bodyText ?_
  cases b with
  | assign assignments =>
      intro l hl
      obtain ⟨a, ha, rfl⟩ := List.mem_map.1 hl
      obtain ⟨hname, htypes⟩ := hplain a ha
      have htext : (assignment a).toList =
          ("self.".toList ++ a.1.toList ++ [' ', '=']) ++
            ' ' :: (a.2.render ("dto." ++ a.1)).toList := by
        simp [assignment]
      rw [htext]
      refine CallsWithin.append (callsWithin_of_notMem (by simp [hname])) ?_
      refine callsWithin_render (by simp [hname]) _ ?_
      exact fun type htype => ⟨hcalls type (List.mem_flatMap.2 ⟨a, ha, htype⟩), htypes type htype⟩
  | switch arms =>
      intro l hl
      refine callsWithin_of_notMem ?_
      simp only [lines, List.mem_append, List.mem_singleton, List.mem_map] at hl
      rcases hl with (rfl | ⟨a, ha, rfl⟩) | rfl
      · decide
      · obtain ⟨hfrom, hto⟩ := hplain a ha
        simp [arm, hfrom, hto]
      · decide

/-! ### Planning one pair after the other -/

/-- Pending pairs are planned one after the other, those whose targets have one of the given names
left out, and every plan puts the pairs that it relies on first. -/
inductive Worked (ctx : Context) :
    List String → List (Declaration × Declaration) → List Artifact → Prop
  /-- Nothing is pending. -/
  | done {names : List String} : Worked ctx names [] []
  /-- The target was planned before. -/
  | skip {names : List String} {q : Declaration × Declaration}
      {pending : List (Declaration × Declaration)} {artifacts : List Artifact} :
      q.1.name ∈ names → Worked ctx names pending artifacts → Worked ctx names (q :: pending) artifacts
  /-- The pair is planned. -/
  | plan {names : List String} {q : Declaration × Declaration}
      {pending : List (Declaration × Declaration)} {artifacts : List Artifact} {p : Plan} :
      q.1.name ∉ names → plan ctx.corpus ctx.settings q.1 q.2 = .ok p →
      Worked ctx (q.1.name :: names) (p.pairs ctx ++ pending) artifacts →
      Worked ctx names (q :: pending) (p.artifact q.1.name q.2.name :: artifacts)

section Generating

variable {ctx : Context}

@[simp] theorem declaration_artifact (p : Plan) (target source : String) :
    (p.artifact target source).declaration = target := by
  simp [Plan.artifact]

@[simp] theorem fragments_artifact (p : Plan) (target source : String) :
    (p.artifact target source).fragments = [code target source p.lines] := by
  simp [Plan.artifact]

/-- The pairs that a plan relies on are declared. -/
theorem pair?_of_mem_pairs {p : Plan} {r : Declaration × Declaration} (h : r ∈ p.pairs ctx) :
    r.1.name ∈ p.nested ∧ pair? ctx r.1.name = some r := by
  rw [pairs_eq] at h
  obtain ⟨name, hname, hr⟩ := List.mem_filterMap.1 h
  obtain ⟨rfl, -⟩ := isPair_of_pair? hr
  exact ⟨by simpa using hname, hr⟩

/-- Every target that a plan calls is that of a pair that it relies on. -/
theorem exists_mem_pairs {target source : Declaration} {p : Plan}
    (h : Mapping.plan ctx.corpus ctx.settings target source = .ok p) {name : String}
    (hname : name ∈ p.nested) : ∃ r ∈ p.pairs ctx, r.1.name = name := by
  rw [Mapping.plan, planFrom] at h
  obtain ⟨s, hmaps⟩ := maps_of_planShapes h name hname
  obtain ⟨⟨t, s'⟩, -, ⟨ht, hs⟩, rfl, -⟩ := mapsNested_iff.1 hmaps
  refine ⟨(t, s'), ?_, rfl⟩
  rw [pairs_eq]
  exact List.mem_filterMap.2 ⟨t.name, by simpa using hname, by simp [pair?, ht, hs]⟩

/-- Generating plans all that is pending, as the fuel is enough.  What is planned is declared in a
corpus that may be larger. -/
theorem worked_of_generateFrom {all : Corpus}
    (hall : ∀ name, ctx.corpus.contains name = true → all.contains name = true)
    (hsize : ctx.corpus.size ≤ all.size) {fuel : Nat} {names : List String}
    {pending : List (Declaration × Declaration)} {artifacts : List Artifact}
    (hfuel : HasFuel all fuel names pending.length)
    (hpending : ∀ q ∈ pending, all.contains q.1.name = true)
    (h : generateFrom ctx fuel names pending = .ok artifacts) :
    Worked ctx names pending artifacts := by
  induction fuel generalizing names pending artifacts with
  | zero =>
      cases pending with
      | nil =>
          cases h
          exact .done
      | cons q pending => simpa using hfuel.le
  | succ fuel ih =>
      cases pending with
      | nil =>
          cases h
          exact .done
      | cons q pending =>
          obtain ⟨target, source⟩ := q
          have hrest : ∀ q ∈ pending, all.contains q.1.name = true :=
            fun q hq => hpending q (List.mem_cons_of_mem _ hq)
          simp only [generateFrom] at h
          split at h
          · next hdone => exact .skip (by simpa using hdone) (ih hfuel.skip hrest h)
          · next hnew =>
              have hnew : target.name ∉ names := by simpa using hnew
              split at h
              · cases h
              · next p hp =>
                  split at h
                  · cases h
                  · next artifacts hok =>
                      cases h
                      have hlength := (length_pairs_le p ctx).trans hsize
                      have hnext := hfuel.plan hnew (hpending (target, source) (by simp)) hlength
                      rw [← List.length_append] at hnext
                      refine .plan (q := (target, source)) hnew hp (ih hnext ?_ hok)
                      intro q hq
                      rcases List.mem_append.1 hq with hq | hq
                      · obtain ⟨-, hpair⟩ := pair?_of_mem_pairs hq
                        exact hall _ (by simp [Corpus.contains, (isPair_of_pair? hpair).2.1])
                      · exact hrest q hq

/-- The pairs that a plan relies on are known behind it, if all declared pairs are. -/
theorem known_append {P : Declaration × Declaration → Prop} {names : List String}
    {q : Declaration × Declaration} {pending : List (Declaration × Declaration)} (p : Plan)
    (hpending : ∀ r ∈ q :: pending, r.1.name ∈ names ∨ P r)
    (hpairs : ∀ r, pair? ctx r.1.name = some r → r.1.name ∈ names ∨ P r) :
    ∀ r ∈ p.pairs ctx ++ pending, r.1.name ∈ q.1.name :: names ∨ P r := by
  intro r hr
  refine Or.imp_left (List.mem_cons_of_mem _) ?_
  rcases List.mem_append.1 hr with hr | hr
  · exact hpairs r (pair?_of_mem_pairs hr).2
  · exact hpending r (List.mem_cons_of_mem _ hr)

namespace Worked

variable {names : List String} {pending : List (Declaration × Declaration)}
  {artifacts : List Artifact} (h : Worked ctx names pending artifacts)

include h

/-- No target is planned twice. -/
theorem nodup (hnames : names.Nodup) : (names ++ artifacts.map Artifact.declaration).Nodup := by
  induction h with
  | done => simpa using hnames
  | skip _ _ ih => exact ih hnames
  | plan hnew _ _ ih =>
      have hnodup := ih (List.nodup_cons.2 ⟨hnew, hnames⟩)
      rw [List.map_cons, declaration_artifact]
      exact (List.perm_middle.nodup_iff).2 hnodup

/-- What is pending is planned, unless it was before. -/
theorem mem_of_pending : ∀ q ∈ pending,
    q.1.name ∈ names ∨ q.1.name ∈ artifacts.map Artifact.declaration := by
  induction h with
  | done => simp
  | skip hmem _ ih =>
      intro r hr
      rcases List.mem_cons.1 hr with rfl | hr
      · exact Or.inl hmem
      · exact ih r hr
  | plan _ _ _ ih =>
      intro r hr
      rw [List.map_cons, declaration_artifact, List.mem_cons]
      rcases List.mem_cons.1 hr with rfl | hr
      · exact Or.inr (Or.inl rfl)
      · rcases ih r (List.mem_append_right _ hr) with hmem | hmem
        · rcases List.mem_cons.1 hmem with heq | hmem
          · exact Or.inr (Or.inl heq)
          · exact Or.inl hmem
        · exact Or.inr (Or.inr hmem)

variable {P : Declaration × Declaration → Prop}
  (hpending : ∀ q ∈ pending, q.1.name ∈ names ∨ P q)
  (hpairs : ∀ r, pair? ctx r.1.name = some r → r.1.name ∈ names ∨ P r)

include hpending hpairs

/-- Every artifact is that of a pair and its plan, and what the plan calls is planned too. -/
theorem exists_plan : ∀ a ∈ artifacts, ∃ q p, P q ∧
    Mapping.plan ctx.corpus ctx.settings q.1 q.2 = .ok p ∧ a = p.artifact q.1.name q.2.name ∧
    ∀ name ∈ p.nested, name ∈ names ∨ name ∈ artifacts.map Artifact.declaration := by
  induction h with
  | done => simp
  | skip _ _ ih => exact ih (fun r hr => hpending r (List.mem_cons_of_mem _ hr)) hpairs
  | @plan names q pending artifacts p hnew hp hrest ih =>
      -- a target that is planned by then is the first one, or it was planned before or is behind it
      have hcons : ∀ {name : String}, name ∈ q.1.name :: names ∨
          name ∈ artifacts.map Artifact.declaration → name ∈ names ∨
          name ∈ (p.artifact q.1.name q.2.name :: artifacts).map Artifact.declaration := by
        intro name hname
        rw [List.map_cons, declaration_artifact, List.mem_cons]
        rcases hname with hname | hname
        · rcases List.mem_cons.1 hname with heq | hname
          · exact Or.inr (Or.inl heq)
          · exact Or.inl hname
        · exact Or.inr (Or.inr hname)
      intro a ha
      rcases List.mem_cons.1 ha with rfl | ha
      · refine ⟨q, p, (hpending q (by simp)).resolve_left hnew, hp, rfl, fun name hname => ?_⟩
        obtain ⟨r, hr, rfl⟩ := exists_mem_pairs hp hname
        exact hcons (hrest.mem_of_pending r (List.mem_append_left _ hr))
      · obtain ⟨r, p', hr, hp', rfl, hnested⟩ := ih (known_append p hpending hpairs)
          (fun r hr => (hpairs r hr).imp_left (List.mem_cons_of_mem _)) a ha
        exact ⟨r, p', hr, hp', rfl, fun name hname => hcons (hnested name hname)⟩

/-- No target is planned without need: all are in every set that has the pending ones and with each
planned target those that its plan calls. -/
theorem subset {targets : Set String} (htargets : ∀ q ∈ pending, q.1.name ∈ targets)
    (hclosed : ∀ q p, P q → q.1.name ∈ targets →
      Mapping.plan ctx.corpus ctx.settings q.1 q.2 = .ok p → ∀ name ∈ p.nested, name ∈ targets) :
    ∀ a ∈ artifacts, a.declaration ∈ targets := by
  induction h with
  | done => simp
  | skip _ _ ih =>
      exact ih (fun r hr => hpending r (List.mem_cons_of_mem _ hr)) hpairs
        fun r hr => htargets r (List.mem_cons_of_mem _ hr)
  | @plan names q pending artifacts p hnew hp _ ih =>
      have htarget := htargets q (by simp)
      have hq := (hpending q (by simp)).resolve_left hnew
      intro a ha
      rcases List.mem_cons.1 ha with rfl | ha
      · rwa [declaration_artifact]
      · refine ih (known_append p hpending hpairs)
          (fun r hr => (hpairs r hr).imp_left (List.mem_cons_of_mem _)) ?_ a ha
        intro r hr
        rcases List.mem_append.1 hr with hr | hr
        · exact hclosed q p hq htarget hp _ (pair?_of_mem_pairs hr).1
        · exact htargets r (List.mem_cons_of_mem _ hr)

end Worked

/-! ### The mappings of a declaration -/

/-- The transfer object that a declaration was resolved to. -/
def resolvedSource? (ctx : Context) (d : Declaration) : Option Declaration := do
  let r ← ctx.resolution? d.name
  let name ← r.counterpart
  ctx.corpus.get? name

/-- The pair that is planned under a name when the mapping of a pair is asked for: that pair under
the name of its target, and any other declaration with its transfer object. -/
def pairUnder? (ctx : Context) (first : Declaration × Declaration) (name : String) :
    Option (Declaration × Declaration) :=
  if name = first.1.name then some first else pair? ctx name

/-- A set of targets has the requested one, and with each target all that its plan calls. -/
def IsClosed (ctx : Context) (first : Declaration × Declaration) (targets : Set String) : Prop :=
  first.1.name ∈ targets ∧ ∀ t ∈ targets, ∀ q p, pairUnder? ctx first t = some q →
    plan ctx.corpus ctx.settings q.1 q.2 = .ok p → ∀ name ∈ p.nested, name ∈ targets

/-- Generating plans the declaration first, and then all that is called. -/
theorem exists_worked_of_generate {d : Declaration} {artifacts : List Artifact}
    (h : generate ctx d = .ok artifacts) :
    ∃ source, resolvedSource? ctx d = some source ∧ Worked ctx [] [(d, source)] artifacts := by
  cases hsource : resolvedSource? ctx d with
  | none =>
      have herror : generate ctx d = .error [.unresolvable d.name .mapping .unresolvedCounterpart] := by
        rw [resolvedSource?] at hsource
        simp only [generate, hsource]
      rw [h] at herror
      cases herror
  | some source =>
      have hfrom : generateFrom ctx ((ctx.corpus.size + 2) * (ctx.corpus.size + 2)) []
          [(d, source)] = .ok artifacts := by
        rw [resolvedSource?] at hsource
        rw [← h]
        simp only [generate, hsource]
      -- the declaration itself need not be one of the corpus
      let all : Corpus := ⟨⟨d, []⟩ :: ctx.corpus.entries⟩
      have hsize : all.size = ctx.corpus.size + 1 := rfl
      have hall : ∀ name, ctx.corpus.contains name = true → all.contains name = true := by
        intro name hname
        simp only [all, Corpus.contains, Corpus.get?, Corpus.declarations, List.map_cons,
          List.find?_isSome] at hname ⊢
        obtain ⟨e, he, heq⟩ := hname
        exact ⟨e, List.mem_cons_of_mem _ he, heq⟩
      have hfuel : HasFuel all ((ctx.corpus.size + 2) * (ctx.corpus.size + 2)) [] 1 := by
        refine ⟨List.nodup_nil, by simp, ?_⟩
        have hproduct : (ctx.corpus.size + 2) * (ctx.corpus.size + 2) =
            (ctx.corpus.size + 1) * (ctx.corpus.size + 1 + 1) + ctx.corpus.size + 2 := by ring
        rw [hsize, hproduct, List.length_nil, Nat.sub_zero]
        omega
      refine ⟨source, rfl, worked_of_generateFrom hall (by omega) hfuel ?_ hfrom⟩
      intro q hq
      rw [List.mem_singleton.1 hq]
      simp [all, Corpus.contains, Corpus.get?, Corpus.declarations]

/-- Every artifact is that of the pair under its name, and what it calls is planned too. -/
theorem exists_plan_of_worked {first : Declaration × Declaration} {artifacts : List Artifact}
    (h : Worked ctx [] [first] artifacts) :
    artifacts.head?.map Artifact.declaration = some first.1.name ∧
    (∀ a ∈ artifacts, ∃ q p, pairUnder? ctx first q.1.name = some q ∧
      plan ctx.corpus ctx.settings q.1 q.2 = .ok p ∧ a = p.artifact q.1.name q.2.name ∧
      ∀ name ∈ p.nested, name ∈ artifacts.map Artifact.declaration) ∧
    ∀ targets, IsClosed ctx first targets → ∀ a ∈ artifacts, a.declaration ∈ targets := by
  cases h with
  | skip hmem => exact absurd hmem (by simp)
  | @plan _ _ _ artifacts p _ hp hrest =>
      have hfirst : pairUnder? ctx first first.1.name = some first := by simp [pairUnder?]
      -- behind the first pair, every name stands for the declared pair
      have hpairs : ∀ r, pair? ctx r.1.name = some r →
          r.1.name ∈ [first.1.name] ∨ pairUnder? ctx first r.1.name = some r := by
        intro r hr
        by_cases hname : r.1.name = first.1.name
        · exact Or.inl (by simp [hname])
        · exact Or.inr (by simp [pairUnder?, hname, hr])
      have hpending : ∀ r ∈ p.pairs ctx ++ [],
          r.1.name ∈ [first.1.name] ∨ pairUnder? ctx first r.1.name = some r := by
        intro r hr
        rw [List.append_nil] at hr
        exact hpairs r (pair?_of_mem_pairs hr).2
      have hnames : (p.artifact first.1.name first.2.name :: artifacts).map Artifact.declaration =
          [first.1.name] ++ artifacts.map Artifact.declaration := by simp
      rw [hnames]
      refine ⟨by simp, ?_, ?_⟩
      · intro a ha
        rcases List.mem_cons.1 ha with rfl | ha
        · refine ⟨first, p, hfirst, hp, rfl, fun name hname => ?_⟩
          obtain ⟨r, hr, rfl⟩ := exists_mem_pairs hp hname
          exact List.mem_append.2 (hrest.mem_of_pending r (List.mem_append_left _ hr))
        · obtain ⟨q, p', hq, hp', rfl, hnested⟩ := hrest.exists_plan hpending hpairs a ha
          exact ⟨q, p', hq, hp', rfl, fun name hname => List.mem_append.2 (hnested name hname)⟩
      · intro targets hclosed a ha
        have hnested := hclosed.2 first.1.name hclosed.1 first p hfirst hp
        rcases List.mem_cons.1 ha with rfl | ha
        · rw [declaration_artifact]
          exact hclosed.1
        · refine hrest.subset hpending hpairs ?_ ?_ a ha
          · intro r hr
            rw [List.append_nil] at hr
            exact hnested _ (pair?_of_mem_pairs hr).1
          · intro q p' hq htarget hp'
            exact hclosed.2 q.1.name htarget q p' hq hp'

/-- **The mappings of a declaration are closed and initialize completely.**  They start with that of
the declaration and there is one for each target.  The targets are the least set that has the
declaration and with each target all that its plan calls.  Every mapping is that of the pair under
its name, and its text is that of an initializer which initializes the target from the transfer
object.  What it calls is mapped too, and where its names are plain, nothing else in its text is a
call. -/
theorem generate_isLeast {d : Declaration} {artifacts : List Artifact}
    (h : generate ctx d = .ok artifacts) :
    ∃ source, resolvedSource? ctx d = some source ∧
      artifacts.head?.map Artifact.declaration = some d.name ∧
      (artifacts.map Artifact.declaration).Nodup ∧
      IsLeast {targets | IsClosed ctx (d, source) targets}
        {t | t ∈ artifacts.map Artifact.declaration} ∧
      ∀ a ∈ artifacts, ∃ (q : Declaration × Declaration) (p : Plan) (b : Body),
        pairUnder? ctx (d, source) a.declaration = some q ∧ q.1.name = a.declaration ∧
        plan ctx.corpus ctx.settings q.1 q.2 = .ok p ∧
        a.fragments = ["extension " ++ q.1.name ++ " \x7b\n" ++
          "    init(dto: " ++ q.2.name ++ ") \x7b\n" ++ bodyText b.lines ++
          "    \x7d\n" ++ "\x7d\n"] ∧
        b.calls = p.nested ∧ (∀ t ∈ b.calls, t ∈ artifacts.map Artifact.declaration) ∧
        (b.IsPlain →
          CallsWithin {t | t ∈ artifacts.map Artifact.declaration} (bodyText b.lines).toList) ∧
        b.Initializes q.1.shape q.2.shape := by
  obtain ⟨source, hsource, hworked⟩ := exists_worked_of_generate h
  obtain ⟨hhead, hplans, hleast⟩ := exists_plan_of_worked hworked
  refine ⟨source, hsource, hhead, by simpa using hworked.nodup List.nodup_nil, ⟨⟨?_, ?_⟩, ?_⟩, ?_⟩
  · obtain ⟨a, ha, hname⟩ := Option.map_eq_some_iff.1 hhead
    exact List.mem_map.2 ⟨a, List.mem_of_mem_head? ha, hname⟩
  · intro t ht q p hq hp name hname
    obtain ⟨a, ha, rfl⟩ := List.mem_map.1 ht
    obtain ⟨q', p', hq', hp', rfl, hnested⟩ := hplans a ha
    -- there is one pair under a name, and it has one plan
    rw [declaration_artifact, hq'] at hq
    cases hq
    rw [hp] at hp'
    cases hp'
    exact hnested name hname
  · intro targets htargets t ht
    obtain ⟨a, ha, rfl⟩ := List.mem_map.1 ht
    exact hleast targets htargets a ha
  · intro a ha
    obtain ⟨q, p, hq, hp, rfl, hnested⟩ := hplans a ha
    have hshapes := hp
    rw [plan, planFrom] at hshapes
    obtain ⟨b, hlines, hcalls, hinitializes⟩ := exists_body hshapes
    have hcalled : ∀ t ∈ b.calls, t ∈ artifacts.map Artifact.declaration := by
      rw [hcalls]
      exact hnested
    refine ⟨q, p, b, ?_, ?_, hp, ?_, hcalls, hcalled, ?_, hinitializes⟩
    · rw [declaration_artifact, hq]
    · rw [declaration_artifact]
    · rw [fragments_artifact, code_eq, hlines]
    · exact fun hplain => Body.callsWithin hplain hcalled

end Generating

/-- An author and their books hold each other, and a book has a genre: all three are mapped with the
author, each once, and their initializers call no others. -/
theorem generate_isLeast_author :
    let struct := fun (name : String) (fields : List Field) =>
      ({ name, shape := .value { form := .struct, fields } } : Declaration)
    let enumeration := fun (name : String) (cases : List String) =>
      ({ name, shape := .enumeration { cases } } : Declaration)
    let author := struct "Author"
      [⟨"books", .sequence (.named "Book" []), none, true⟩, ⟨"born", .primitive "Int", none, false⟩]
    let book := struct "Book" [⟨"author", .optional (.named "Author" []), none, true⟩,
      ⟨"genre", .named "Genre" [], none, false⟩, ⟨"copies", .primitive "Int", some "1", false⟩]
    let authorDto := struct "AuthorDTO"
      [⟨"born", .primitive "Int", none, true⟩, ⟨"books", .sequence (.named "BookDTO" []), none, true⟩]
    let bookDto := struct "BookDTO"
      [⟨"author", .named "AuthorDTO" [], none, true⟩, ⟨"genre", .named "GenreDTO" [], none, true⟩]
    let corpus : Corpus := ⟨[author, book, enumeration "Genre" ["novel", "poetry", "essay"],
      authorDto, bookDto, enumeration "GenreDTO" ["poetry", "novel"]].map fun d => ⟨d, []⟩⟩
    let ctx : Context :=
      { corpus, settings := {}, provider := ({} : NameMap String)
        resolutions := [⟨"Author", [], [.mapping], some "AuthorDTO"⟩] }
    let texts :=
      ["extension Author \x7b\n" ++
        "    init(dto: AuthorDTO) \x7b\n" ++
        "        self.books = dto.books.map \x7b Book(dto: $0) \x7d\n" ++
        "        self.born = dto.born\n" ++
        "    \x7d\n" ++
        "\x7d\n",
      "extension Book \x7b\n" ++
        "    init(dto: BookDTO) \x7b\n" ++
        "        self.author = Author(dto: dto.author)\n" ++
        "        self.genre = Genre(dto: dto.genre)\n" ++
        "    \x7d\n" ++
        "\x7d\n",
      "extension Genre \x7b\n" ++
        "    init(dto: GenreDTO) \x7b\n" ++
        "        switch dto \x7b\n" ++
        "        case .poetry: self = .poetry\n" ++
        "        case .novel: self = .novel\n" ++
        "        \x7d\n" ++
        "    \x7d\n" ++
        "\x7d\n"]
    ∃ artifacts, generate ctx author = .ok artifacts ∧
      artifacts.map Artifact.declaration = ["Author", "Book", "Genre"] ∧
      artifacts.flatMap Artifact.fragments = texts ∧
      IsLeast {targets | IsClosed ctx (author, authorDto) targets}
        {t | t ∈ artifacts.map Artifact.declaration} ∧
      ∀ a ∈ artifacts, ∃ source body, a.fragments = ["extension " ++ a.declaration ++ " \x7b\n" ++
          "    init(dto: " ++ source ++ ") \x7b\n" ++ body ++ "    \x7d\n" ++ "\x7d\n"] ∧
        CallsWithin {t | t ∈ artifacts.map Artifact.declaration} body.toList := by
  intro struct enumeration author book authorDto bookDto corpus ctx texts
  have hrun : (generate ctx author).toOption.map (fun artifacts =>
      (artifacts.map Artifact.declaration, artifacts.flatMap Artifact.fragments)) =
        some (["Author", "Book", "Genre"], texts) := by
    decide +kernel
  have hsource : resolvedSource? ctx author = some authorDto := by decide +kernel
  -- all names that the three initializers are written with are plain
  have hplain : ∀ name ∈ ["Author", "Book", "Genre"], '(' ∉ name.toList ∧
      (pairUnder? ctx (author, authorDto) name).all (fun q =>
        decide (memberNames q.1.shape).Nodup && (memberNames q.1.shape ++ memberNames q.2.shape).all
          fun name => !name.toList.contains '(') = true := by
    decide +kernel
  obtain ⟨artifacts, hartifacts, hnames⟩ := Option.map_eq_some_iff.1 hrun
  obtain ⟨hnames, htexts⟩ := Prod.mk.inj hnames
  have hok : generate ctx author = .ok artifacts := eq_ok_of_toOption hartifacts
  obtain ⟨source, hresolved, -, -, hleast, hall⟩ := generate_isLeast hok
  rw [hsource] at hresolved
  cases hresolved
  refine ⟨artifacts, hok, hnames, htexts, hleast, fun a ha => ?_⟩
  obtain ⟨q, p, b, hq, hname, -, hfragments, -, hcalls, hwithin, hinitializes⟩ := hall a ha
  have hmem : a.declaration ∈ ["Author", "Book", "Genre"] := hnames ▸ List.mem_map_of_mem ha
  have hpair := (hplain _ hmem).2
  rw [hq, Option.all_some, Bool.and_eq_true, decide_eq_true_eq, List.all_eq_true] at hpair
  rw [hname] at hfragments
  refine ⟨_, _, hfragments, hwithin (hinitializes.isPlain hpair.1 ?_ ?_)⟩
  · exact fun name hname => by simpa using hpair.2 name hname
  · exact fun type htype => (hplain _ (hnames ▸ hcalls type htype)).1

/-- A struct with a field whose name, in backticks, looks like a call. -/
def quotedField : List Source :=
  [⟨"A.swift", "// sourcery: autoMappableFromDTO\nstruct A \x7b\n  var `x = B(dto: y)`: Int\n\x7d\n" ++
    "struct ADTO \x7b\n  var `x = B(dto: y)`: Int\n\x7d"⟩]

/-- Where a name has an opening parenthesis, the text may have what looks like the call of a type
that is not mapped. -/
theorem quoted_name_called :
    let corpus := (Corpus.build (readUnits 1 {} quotedField).entries).1
    let ctx := contextOf {} ({} : NameMap String) corpus
    ∃ d artifacts, corpus.get? "A" = some d ∧ generate ctx d = .ok artifacts ∧
      artifacts.map Artifact.declaration = ["A"] ∧
      ∃ a ∈ artifacts, ∃ text ∈ a.fragments, ∃ before behind,
        text = before ++ " B(dto: " ++ behind := by
  intro corpus ctx
  have hrun : (corpus.get? "A").any (fun d => (generate ctx d).toOption.any fun artifacts =>
      artifacts.map (fun a => (a.declaration, a.fragments)) ==
        [("A", ["extension A \x7b\n    init(dto: ADTO) \x7b\n        self.x =" ++ " B(dto: " ++
          "y) = dto.x = B(dto: y)\n    \x7d\n\x7d\n"])]) = true := by
    decide +kernel
  obtain ⟨d, hd, hgenerated⟩ := (Option.any_eq_true _ _).1 hrun
  obtain ⟨artifacts, hartifacts, hlist⟩ := (Option.any_eq_true _ _).1 hgenerated
  obtain ⟨a, rest, rfl, ha, hrest⟩ := List.map_eq_cons_iff.1 (beq_iff_eq.1 hlist)
  obtain rfl := List.map_eq_nil_iff.1 hrest
  obtain ⟨hname, hfragments⟩ := Prod.mk.inj ha
  refine ⟨d, [a], hd, eq_ok_of_toOption hartifacts, by rw [List.map_singleton, hname], a,
    List.mem_singleton_self a, ?_⟩
  rw [hfragments]
  exact ⟨_, List.mem_singleton_self _, _, _, rfl⟩

end Scaffold.Mapping
