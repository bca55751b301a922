/-
**Readers move on.**

A reader of a type or a member ends at a place that is reached from where it started, or it fails.
What a failure says is then wrong inside a declaration: that the text cannot be divided into tokens,
or that a declaration has no name, is never said by a reader of members.

Main definitions:

* `Scaffold.Reason.isInner` — a reason that is found inside a declaration with a name;
* `Scaffold.Meets` — what holds of the value or of the error of a result;
* `Scaffold.Cursor.Reads` — a reader moves on, and fails for inner reasons only.

Main results:

* `Scaffold.Cursor.reads_type` — types;
* `Scaffold.Cursor.reads_method`, `Scaffold.Cursor.reads_initializer`,
  `Scaffold.Cursor.reads_property`, `Scaffold.Cursor.reads_cases` — **members**;
* `Scaffold.Cursor.isInner_of_header` — the headers of declarations.
-/

import Scaffold.Proofs.UnitLocality

set_option relaxedAutoImplicit false
set_option autoImplicit false

namespace Scaffold

/-! ### Reasons -/

/-- Whether a reason is that a declaration has no name. -/
def Reason.isNameless : Reason → Bool
  | .expectedName role _ => (Form.all.map Form.keyword).contains role
  | _ => false

/-- Whether a reason is that the text cannot be divided into tokens. -/
def Reason.isUnclosed : Reason → Bool
  | .unclosed _ => true
  | _ => false

/-- Whether a reason is found inside a declaration with a name. -/
def Reason.isInner (r : Reason) : Bool := !r.isNameless && !r.isUnclosed

/-- A failure for an inner reason. -/
def Failure.IsInner (f : Failure) : Prop := f.reason.isInner = true

/-- A stop for an inner reason, if it is a failure. -/
def Halt.IsInner (h : Halt) : Prop := ∀ f, h = .failure f → f.IsInner

theorem Failure.IsInner.halt {f : Failure} (h : f.IsInner) : Halt.IsInner (.failure f) := by
  rintro _ ⟨⟩
  exact h

/-! ### Results -/

/-- What holds of the value of a result, or else of its error. -/
def Meets {ε α : Type} (E : ε → Prop) (V : α → Prop) (r : Except ε α) : Prop :=
  (∀ a, r = .ok a → V a) ∧ ∀ e, r = .error e → E e

section Meets

variable {ε α β : Type} {E : ε → Prop} {V : α → Prop} {W : β → Prop}

theorem Meets.ok {a : α} (h : V a) : Meets E V (.ok a : Except ε α) := by
  constructor
  · rintro _ ⟨⟩
    exact h
  · rintro _ ⟨⟩

theorem Meets.error {e : ε} (h : E e) : Meets E V (.error e : Except ε α) := by
  constructor
  · rintro _ ⟨⟩
  · rintro _ ⟨⟩
    exact h

theorem Meets.bind {r : Except ε α} {f : α → Except ε β} (h : Meets E V r)
    (hf : ∀ a, V a → Meets E W (f a)) : Meets E W (r >>= f) := by
  cases r with
  | ok a => exact hf a (h.1 a rfl)
  | error e => exact .error (h.2 e rfl)

/-- A failure for an inner reason stops what it is part of for an inner reason. -/
theorem Meets.lift {r : Except Failure α} (h : Meets Failure.IsInner V r) :
    Meets Halt.IsInner V (liftM r : Except Halt α) := by
  cases r with
  | ok a => exact .ok (h.1 a rfl)
  | error f => exact .error (h.2 f rfl).halt

theorem Meets.inMember {r : Except Halt α} (member : String) (h : Meets Halt.IsInner V r) :
    Meets Halt.IsInner V (Scaffold.inMember member r) := by
  cases r with
  | ok a => exact .ok (h.1 a rfl)
  | error stop =>
      refine .error ?_
      cases stop with
      | failure f =>
          have hf : f.IsInner := h.2 _ rfl f rfl
          exact Failure.IsInner.halt hf
      | misplaced =>
          rintro _ ⟨⟩

end Meets

namespace Cursor

/-- A reader ends at a place that is reached from where it started, or fails for an inner reason. -/
def Reads {ε α : Type} (E : ε → Prop) (read : Cursor → Except ε (α × Cursor)) : Prop :=
  ∀ ⦃c₀ c : Cursor⦄, c₀.Leads c → Meets E (fun x => c₀.Leads x.2) (read c)

variable {c₀ c : Cursor}

theorem meets_expectMark (hc : c₀.Leads c) (m : Char) :
    Meets Failure.IsInner (fun c' => c₀.Leads c') (c.expectMark m) := by
  simp only [expectMark]
  cases h : c.mark? m with
  | none => exact .error rfl
  | some c' => exact .ok (hc.trans (leads_of_mark? h))

/-- A name that is missing is no matter of the declaration if it is not the name of one. -/
theorem reads_expectName {role : String} (hrole : (Form.all.map Form.keyword).contains role = false) :
    Reads Failure.IsInner fun c => c.expectName role := by
  intro c₀ c hc
  simp only [expectName]
  cases c.word? with
  | none =>
      refine .error ?_
      simp only [Failure.IsInner, Reason.isInner, fail, Reason.isNameless, hrole, Reason.isUnclosed]
      rfl
  | some w => exact .ok (hc.trans (leads_advance c))

/-- Items between commas are moved over if each of them is. -/
theorem reads_separated {ε α : Type} {E : ε → Prop} {lift : Failure → ε}
    {item : Nat → Cursor → Except ε (α × Cursor)} (hlift : ∀ f : Failure, f.IsInner → E (lift f))
    (hitem : ∀ index, Reads E (item index)) (close : Char) (fuel index : Nat) :
    Reads E (separated lift item close fuel index) := by
  induction fuel generalizing index with
  | zero => exact fun c₀ c hc => .error (hlift _ rfl)
  | succ fuel ih =>
      intro c₀ c hc
      simp only [separated]
      have hfirst := hitem index hc
      split
      · next e hr => exact .error (hfirst.2 e hr)
      · next x c₁ hr =>
          have hc₁ := hfirst.1 _ hr
          split
          · next c₂ hcomma =>
              have hrest := ih (index + 1) (hc₁.trans (leads_of_mark? hcomma))
              split
              · next e hr => exact .error (hrest.2 e hr)
              · next xs c₃ hr =>
                  have hc₃ : c₀.Leads c₃ := hrest.1 (xs, c₃) hr
                  exact .ok hc₃
          · have hclose := meets_expectMark hc₁ close
            split
            · next f hr => exact .error (hlift f (hclose.2 f hr))
            · next c₂ hr => exact .ok (hclose.1 _ hr)

/-! ### Types -/

theorem reads_effectsFrom (fuel : Nat) (e : Effects) : Reads Failure.IsInner (effectsFrom fuel e) := by
  induction fuel generalizing e with
  | zero => exact fun c₀ c hc => .ok hc
  | succ fuel ih =>
      intro c₀ c hc
      simp only [effectsFrom]
      cases hasync : c.keyword? "async" with
      | some c₁ => exact ih _ (hc.trans (leads_of_keyword? hasync))
      | none =>
          cases hthrows : c.keyword? "throws" with
          | some c₁ =>
              exact ih _ (hc.trans ((leads_of_keyword? hthrows).trans (leads_skipGluedParens c₁)))
          | none =>
              simp only
              split
              · exact .error rfl
              · exact .ok hc

theorem reads_effects : Reads Failure.IsInner effects :=
  fun _ c hc => reads_effectsFrom (c.rest.length + 1) {} hc

theorem meets_attributesFrom (prev : Option Token) (ts : List Token) (hc : c₀.Leads ⟨prev, ts⟩) :
    Meets Failure.IsInner (fun x => c₀.Leads x.2) (attributesFrom prev ts) := by
  have hbehind : ∀ {prev t u ts}, c₀.Leads ⟨prev, t :: u :: ts⟩ → c₀.Leads ⟨some u, ts⟩ :=
    fun {prev t u ts} hc => hc.trans
      ((leads_advance ⟨prev, t :: u :: ts⟩).trans (leads_advance ⟨some t, u :: ts⟩))
  fun_induction attributesFrom prev ts with
  | case1 prev t u ts ht w hw ws c hread ih => 
      have hc' : c₀.Leads c := (ih (hbehind hc)).1 (ws, c) hread
      exact .ok hc'
  | case2 prev t u ts ht w hw f hread ih => exact .error ((ih (hbehind hc)).2 _ hread)
  | case3 => exact .error rfl
  | case4 => exact .ok hc
  | case5 => exact .error rfl
  | case6 => exact .ok hc
  | case7 => exact .ok hc

theorem meets_attributed (attributes : List String) (line : Nat) (type : TypeRef) :
    Meets Failure.IsInner (fun _ => True) (attributed attributes line type) := by
  cases attributes with
  | nil => exact .ok trivial
  | cons a as =>
      cases type with
      | function bs params effects result => exact .ok trivial
      | _ => exact .error rfl

variable {read : Cursor → Except Failure (TypeRef × Cursor)}

theorem reads_typeWith (hread : Reads Failure.IsInner read) :
    Reads Failure.IsInner (typeWith read) := by
  intro c₀ c hc
  refine (meets_attributesFrom c.prev c.rest hc).bind ?_
  rintro ⟨attributes, c₁⟩ hc₁
  refine (hread hc₁).bind ?_
  rintro ⟨core, c₂⟩ hc₂
  refine (meets_attributed attributes c.line core).bind ?_
  rintro type -
  exact .ok (hc₂.trans (Displacement.leads_optionalsFrom type c₂.prev c₂.rest))

theorem reads_namedWith (hread : Reads Failure.IsInner read) :
    Reads Failure.IsInner (namedWith read) := by
  intro c₀ c hc
  refine (reads_expectName rfl hc).bind ?_
  rintro ⟨first, c₁⟩ hc₁
  have hc₂ := hc₁.trans (Displacement.leads_pathFrom first c₁.prev c₁.rest)
  simp only
  split
  · next c₃ hangle =>
      refine (reads_separated (fun _ hf => hf) (fun _ => hread) '>' _ 0
        (hc₂.trans (leads_of_mark? hangle))).bind ?_
      rintro ⟨args, c₄⟩ hc₄
      exact .ok hc₄
  · exact .ok hc₂

theorem reads_elementWith (hread : Reads Failure.IsInner read) :
    Reads Failure.IsInner (elementWith read) := by
  intro c₀ c hc
  have hc₁ := hc.trans (Displacement.leads_skipLabel c)
  simp only [elementWith]
  cases hinout : c.skipLabel.keyword? "inout" with
  | none => exact hread hc₁
  | some c₂ => exact hread (hc₁.trans (leads_of_keyword? hinout))

theorem reads_elementsWith (hread : Reads Failure.IsInner read) :
    Reads Failure.IsInner (elementsWith read) := by
  intro c₀ c hc
  simp only [elementsWith]
  cases hclose : c.mark? ')' with
  | some c₁ => exact .ok (hc.trans (leads_of_mark? hclose))
  | none => exact reads_separated (fun _ hf => hf) (fun _ => reads_elementWith hread) ')' _ 0 hc

theorem reads_parenthesizedWith (hread : Reads Failure.IsInner read) :
    Reads Failure.IsInner (parenthesizedWith read) := by
  intro c₀ c hc
  refine (reads_elementsWith hread (hc.trans (leads_advance c))).bind ?_
  rintro ⟨elements, c₁⟩ hc₁
  refine (reads_effects hc₁).bind ?_
  rintro ⟨effects, c₂⟩ hc₂
  simp only
  split
  · refine (hread (hc₂.trans (leads_advance c₂))).bind ?_
    rintro ⟨result, c₃⟩ hc₃
    exact .ok hc₃
  split
  · exact .error rfl
  split
  · exact .ok hc₂
  · exact .ok hc₂
  · exact .error rfl

theorem reads_collectionWith (hread : Reads Failure.IsInner read) :
    Reads Failure.IsInner (collectionWith read) := by
  intro c₀ c hc
  refine (hread (hc.trans (leads_advance c))).bind ?_
  rintro ⟨first, c₁⟩ hc₁
  simp only
  split
  · next c₂ hcolon =>
      refine (hread (hc₁.trans (leads_of_mark? hcolon))).bind ?_
      rintro ⟨value, c₃⟩ hc₃
      refine (meets_expectMark hc₃ ']').bind ?_
      rintro c₄ hc₄
      exact .ok hc₄
  · refine (meets_expectMark hc₁ ']').bind ?_
    rintro c₂ hc₂
    exact .ok hc₂

theorem reads_coreWith (hread : Reads Failure.IsInner read) :
    Reads Failure.IsInner (coreWith read) := by
  have htype := reads_typeWith hread
  intro c₀ c hc
  simp only [coreWith]
  split
  · exact reads_collectionWith htype hc
  · exact reads_parenthesizedWith htype hc
  · split
    · refine (hread (hc.trans (leads_advance c))).bind ?_
      rintro ⟨constraint, c₁⟩ hc₁
      exact .ok hc₁
    split
    · exact .error rfl
    · exact reads_namedWith htype hc
  · exact .error rfl

theorem reads_typeCore (room : Nat) : Reads Failure.IsInner (typeCore room) := by
  induction room with
  | zero => exact fun c₀ c hc => .error rfl
  | succ room ih => exact reads_coreWith ih

theorem reads_type (room : Nat) : Reads Failure.IsInner (Cursor.type room) :=
  reads_typeWith (reads_typeCore room)

/-! ### Signatures -/

theorem meets_requireText (source : List Char) (ts : List Token) {f : Failure} (hf : f.IsInner) :
    Meets Halt.IsInner (fun _ => True) (requireText source ts f) := by
  simp only [requireText]
  split
  · refine .error ?_
    rintro _ ⟨⟩
  · split
    · exact .error hf.halt
    · exact .ok trivial

theorem reads_expression (source : List Char) : Reads Halt.IsInner (expression source) := by
  intro c₀ c hc
  have hdefault : (c.fail .expectedDefault).IsInner := rfl
  refine (meets_requireText source _ hdefault).bind ?_
  rintro text -
  exact .ok (hc.trans (leads_scan c))

theorem reads_argument (source : List Char) : Reads Halt.IsInner (argument source) := by
  intro c₀ c hc
  have hdefault : (c.fail .expectedDefault).IsInner := rfl
  refine (meets_requireText source _ hdefault).bind ?_
  rintro text -
  exact .ok (hc.trans (leads_scan c))

theorem reads_parameterName (index : Nat) : Reads Failure.IsInner (parameterName index) := by
  intro c₀ c hc
  refine (reads_expectName rfl hc).bind ?_
  rintro ⟨first, c₁⟩ hc₁
  simp only
  split
  · exact .ok (hc₁.trans (leads_advance c₁))
  · split
    · exact .ok hc₁
    · exact .ok hc₁

theorem reads_default? {value : Cursor → Except Halt (String × Cursor)}
    (hvalue : Reads Halt.IsInner value) : Reads Halt.IsInner (default? value) := by
  intro c₀ c hc
  simp only [default?]
  cases hequals : c.mark? '=' with
  | some c₁ =>
      refine (hvalue (hc.trans (leads_of_mark? hequals))).bind ?_
      rintro ⟨text, c₂⟩ hc₂
      exact .ok hc₂
  | none => exact .ok hc

theorem reads_parameter (source : List Char) (room index : Nat) :
    Reads Halt.IsInner (parameter source room index) := by
  intro c₀ c hc
  refine (reads_parameterName index hc).lift.bind ?_
  rintro ⟨⟨label, name⟩, c₁⟩ hc₁
  refine (meets_expectMark hc₁ ':').lift.bind ?_
  rintro c₂ hc₂
  have hc₃ : c₀.Leads (if c₂.atWord "inout" = true then c₂.advance else c₂) := by
    split
    · exact hc₂.trans (leads_advance c₂)
    · exact hc₂
  refine (reads_type room hc₃).lift.bind ?_
  rintro ⟨type, c₄⟩ hc₄
  simp only
  split
  · exact .error (Failure.IsInner.halt rfl)
  · refine (reads_default? (reads_argument source) hc₄).bind ?_
    rintro ⟨default, c₅⟩ hc₅
    exact .ok hc₅

theorem reads_parameters (source : List Char) (room : Nat) :
    Reads Halt.IsInner (parameters source room) := by
  intro c₀ c hc
  refine (meets_expectMark hc '(').lift.bind ?_
  rintro c₁ hc₁
  split
  · next c₂ hclose => exact .ok (hc₁.trans (leads_of_mark? hclose))
  · exact reads_separated (fun _ hf => hf.halt) (reads_parameter source room) ')' _ 0 hc₁

theorem reads_result (room : Nat) : Reads Failure.IsInner (result room) := by
  intro c₀ c hc
  simp only [result]
  split
  · exact reads_type room (hc.trans (leads_advance c))
  · exact .ok hc

theorem reads_signature (source : List Char) (room : Nat) (name : String) :
    Reads Halt.IsInner (signature source room name) := by
  intro c₀ c hc
  simp only [signature]
  split
  · exact .error (Failure.IsInner.halt rfl)
  refine (reads_parameters source room hc).bind ?_
  rintro ⟨params, c₁⟩ hc₁
  refine (reads_effects hc₁).lift.bind ?_
  rintro ⟨effects, c₂⟩ hc₂
  refine (reads_result room hc₂).lift.bind ?_
  rintro ⟨result, c₃⟩ hc₃
  simp only
  split
  · exact .error (Failure.IsInner.halt rfl)
  · exact .ok hc₃

theorem reads_method (source : List Char) (room : Nat) :
    Reads Halt.IsInner (method source room) := by
  intro c₀ c hc
  refine (reads_expectName rfl (hc.trans (leads_advance c))).lift.bind ?_
  rintro ⟨name, c₁⟩ hc₁
  exact (reads_signature source room name hc₁).inMember _

theorem reads_initializer (source : List Char) (room : Nat) :
    Reads Halt.IsInner (initializer source room) := by
  intro c₀ c hc
  refine Meets.inMember "init" ?_
  simp only
  split
  · exact .error (Failure.IsInner.halt rfl)
  split
  · exact .error (Failure.IsInner.halt rfl)
  refine (reads_parameters source room (hc.trans (leads_advance c))).bind ?_
  rintro ⟨params, c₁⟩ hc₁
  refine (reads_effects hc₁).lift.bind ?_
  rintro ⟨effects, c₂⟩ hc₂
  exact .ok hc₂

/-! ### Properties and cases -/

theorem reads_propertyRest (source : List Char) (room : Nat) (name : String) (isMutable : Bool) :
    Reads Halt.IsInner (propertyRest source room name isMutable) := by
  intro c₀ c hc
  simp only [propertyRest]
  split
  · exact .error (Failure.IsInner.halt rfl)
  cases hcolon : c.mark? ':' with
  | none => exact .error (Failure.IsInner.halt rfl)
  | some c₁ =>
      refine (reads_type room (hc.trans (leads_of_mark? hcolon))).lift.bind ?_
      rintro ⟨type, c₂⟩ hc₂
      refine (reads_default? (reads_expression source) hc₂).bind ?_
      rintro ⟨default, c₃⟩ hc₃
      simp only
      split
      · exact .ok (hc₃.trans (leads_skipGroup c₃))
      · exact .ok hc₃

theorem reads_property (source : List Char) (room : Nat) (word : String) :
    Reads Halt.IsInner (property source room word) := by
  intro c₀ c hc
  refine (reads_expectName rfl (hc.trans (leads_advance c))).lift.bind ?_
  rintro ⟨name, c₁⟩ hc₁
  exact (reads_propertyRest source room name _ hc₁).inMember _

theorem reads_casesFrom (fuel : Nat) (e : Enumeration) : Reads Failure.IsInner (casesFrom fuel e) := by
  induction fuel generalizing e with
  | zero => exact fun c₀ c hc => .ok hc
  | succ fuel ih =>
      intro c₀ c hc
      refine (reads_expectName rfl hc).bind ?_
      rintro ⟨name, c₁⟩ hc₁
      have hc₂ := hc₁.trans ((Displacement.leads_caseValues c₁).trans
        (Displacement.leads_skipRawValue _))
      simp only
      split
      · next c₃ hcomma => exact ih _ (hc₂.trans (leads_of_mark? hcomma))
      · exact .ok hc₂

theorem reads_cases (e : Enumeration) : Reads Failure.IsInner (Cursor.cases e) :=
  fun _ c hc => reads_casesFrom (c.rest.length + 1) e hc

/-! ### Items of protocols, and headers -/

theorem reads_contractItem (source : List Char) (room : Nat) (contract : Contract) (t : Token) :
    Reads Halt.IsInner (contractItem source room contract t) := by
  intro c₀ c hc
  simp only [contractItem]
  split
  · exact .ok (hc.trans (leads_advance c))
  · exact .ok (hc.trans (leads_advance c))
  · exact .ok (hc.trans (leads_skipAttribute c))
  · split
    · exact .ok (hc.trans (leads_skipModifier c))
    split
    · refine (reads_method source room hc).bind ?_
      rintro ⟨m, c₁⟩ hc₁
      exact .ok hc₁
    split
    · refine (reads_initializer source room hc).bind ?_
      rintro ⟨i, c₁⟩ hc₁
      exact .ok hc₁
    · exact .error (Failure.IsInner.halt rfl)
  · exact .error (Failure.IsInner.halt rfl)

theorem meets_contractBodyFrom (source : List Char) (room fuel : Nat) (contract : Contract)
    (c : Cursor) :
    Meets Halt.IsInner (fun _ => True) (contractBodyFrom source room fuel contract c) := by
  induction fuel generalizing contract c with
  | zero => exact .ok trivial
  | succ fuel ih =>
      simp only [contractBodyFrom]
      split
      · exact .ok trivial
      · next t _ =>
          have hitem := reads_contractItem source room contract t (Leads.refl c)
          split
          · exact ih _ _
          · next stop hr => exact .error (hitem.2 stop hr)

theorem isInner_of_conformancesFrom {source : List Char} {fuel : Nat} {texts : List String}
    {c c' : Cursor} {f : Failure}
    (h : conformancesFrom source fuel texts c = some (.error f, c')) : f.IsInner := by
  induction fuel generalizing texts c with
  | zero => cases h
  | succ fuel ih =>
      simp only [conformancesFrom] at h
      split at h
      · cases h
      · split at h
        · cases h
          rfl
        · split at h
          · exact ih h
          · cases h

/-- Headers fail for inner reasons. -/
theorem isInner_of_header {source : List Char} {c c' : Cursor} {f : Failure}
    (h : c.header source = some (.error f, c')) : f.IsInner := by
  simp only [header] at h
  split at h
  · cases h
    rfl
  · split at h
    · split at h
      · cases h
        rfl
      · cases h
    · split at h
      · exact isInner_of_conformancesFrom h
      · cases h

end Cursor

end Scaffold
