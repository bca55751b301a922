/-
**Types and members further down.**

Types, signatures, properties and cases are read alike wherever they stand in a text: with more text
around the source, the readers return the same values, go on from the same places, moved along, and
fail for the same reasons, on lines that have moved along.

Main results:

* `Scaffold.Displacement.carries_type` — types;
* `Scaffold.Displacement.carries_method`, `Scaffold.Displacement.carries_initializer`,
  `Scaffold.Displacement.carries_property`, `Scaffold.Displacement.carries_cases` — **members**.
-/

import Scaffold.Proofs.Displacement

set_option relaxedAutoImplicit false
set_option autoImplicit false

namespace Scaffold

open Cursor

namespace Displacement

variable (σ : Displacement) {cs : List Char}

/-! ### Effects, attributes and marks -/

theorem carries_effectsFrom (fuel : Nat) (e : Effects) :
    σ.Carries cs σ.Fails (effectsFrom fuel e) (effectsFrom fuel e) := by
  induction fuel generalizing e with
  | zero => exact fun c hc => .ok ⟨rfl, hc⟩
  | succ fuel ih =>
      intro c hc
      simp only [effectsFrom, keyword?_cursor, atWord_cursor]
      cases hasync : c.keyword? "async" with
      | some c₁ => exact ih _ (hc.of_leads (leads_of_keyword? hasync))
      | none =>
          cases hthrows : c.keyword? "throws" with
          | some c₁ =>
              simp only [Option.map_none, Option.map_some, skipGluedParens_cursor]
              exact ih _ (hc.of_leads ((leads_of_keyword? hthrows).trans (leads_skipGluedParens c₁)))
          | none =>
              simp only [Option.map_none]
              split
              · exact .error (σ.fail_cursor hc.prev _)
              · exact .ok ⟨rfl, hc⟩

theorem carries_effects : σ.Carries cs σ.Fails effects effects := by
  intro c hc
  simp only [effects, rest_cursor, length_tokens]
  exact σ.carries_effectsFrom _ _ hc

theorem alike_attributesFrom (prev : Option Token) (ts : List Token)
    (hc : Settled cs ⟨prev, ts⟩) :
    Alike σ.Fails (σ.Steps cs) (attributesFrom prev ts)
      (attributesFrom (prev.map σ.token) (σ.tokens ts)) := by
  have hbehind : ∀ {prev t u ts}, Settled cs ⟨prev, t :: u :: ts⟩ → Settled cs ⟨some u, ts⟩ :=
    fun {prev t u ts} hc => hc.of_leads
      ((leads_advance ⟨prev, t :: u :: ts⟩).trans (leads_advance ⟨some t, u :: ts⟩))
  fun_induction attributesFrom prev ts with
  | case1 prev t u ts ht w hw ws c hread ih =>
      simp only [tokens_cons, attributesFrom, isMark_token, ht, word?_token, hw, if_true]
      rcases ih (hbehind hc) with ⟨_, _, hr, hr', rfl, hc'⟩ | ⟨_, _, hr, -, -⟩
      · cases hread.symm.trans hr
        rw [Option.map_some] at hr'
        rw [hr']
        exact .ok ⟨rfl, hc'⟩
      · cases hread.symm.trans hr
  | case2 prev t u ts ht w hw f hread ih =>
      simp only [tokens_cons, attributesFrom, isMark_token, ht, word?_token, hw, if_true]
      rcases ih (hbehind hc) with ⟨_, _, hr, -, -⟩ | ⟨_, _, hr, hr', rfl⟩
      · cases hread.symm.trans hr
      · cases hread.symm.trans hr
        rw [Option.map_some] at hr'
        rw [hr']
        exact .error rfl
  | case3 prev t u ts ht hu =>
      simp only [tokens_cons, attributesFrom, isMark_token, ht, word?_token, hu, if_true, kind_token]
      exact .error (σ.fail_cursor (c := ⟨some t, u :: ts⟩) rfl _)
  | case4 prev t u ts ht =>
      simp only [tokens_cons, attributesFrom, isMark_token, ht]
      exact .ok ⟨rfl, hc⟩
  | case5 prev t ht =>
      simp only [tokens_cons, tokens_nil, attributesFrom, isMark_token, ht, if_true]
      exact .error (σ.fail_cursor (c := ⟨some t, []⟩) rfl _)
  | case6 prev t ht =>
      simp only [tokens_cons, tokens_nil, attributesFrom, isMark_token, ht]
      exact .ok ⟨rfl, hc⟩
  | case7 prev => exact .ok ⟨rfl, hc⟩

theorem optionalsFrom_tokens (type : TypeRef) (prev : Option Token) (ts : List Token) :
    optionalsFrom type (prev.map σ.token) (σ.tokens ts) =
      ((optionalsFrom type prev ts).1, σ.cursor (optionalsFrom type prev ts).2) := by
  fun_induction optionalsFrom type prev ts with
  | case1 type prev t ts ht ih =>
      simp only [tokens_cons, optionalsFrom, isMark_token, ht, if_true]
      exact ih
  | case2 type prev t ts ht =>
      simp only [tokens_cons, optionalsFrom, isMark_token, ht]
      rfl
  | case3 => rfl

theorem leads_optionalsFrom (type : TypeRef) (prev : Option Token) (ts : List Token) :
    Leads ⟨prev, ts⟩ (optionalsFrom type prev ts).2 := by
  fun_induction optionalsFrom type prev ts with
  | case1 type prev t ts ht ih => exact (leads_advance ⟨prev, t :: ts⟩).trans ih
  | case2 => exact Leads.refl _
  | case3 => exact Leads.refl _

theorem pathFrom_tokens (name : String) (prev : Option Token) :
    (ts : List Token) → pathFrom name (prev.map σ.token) (σ.tokens ts) =
      ((pathFrom name prev ts).1, σ.cursor (pathFrom name prev ts).2)
  | [] => rfl
  | [_] => rfl
  | t :: u :: ts => by
      simp only [tokens_cons, pathFrom, isMark_token, word?_token]
      cases t.isMark '.' with
      | false => rfl
      | true =>
          cases u.word? with
          | none => rfl
          | some w => exact pathFrom_tokens (name ++ "." ++ w) (some u) ts

theorem leads_pathFrom (name : String) (prev : Option Token) :
    (ts : List Token) → Leads ⟨prev, ts⟩ (pathFrom name prev ts).2
  | [] => Leads.refl _
  | [_] => Leads.refl _
  | t :: u :: ts => by
      simp only [pathFrom]
      cases t.isMark '.' with
      | false => exact Leads.refl _
      | true =>
          cases u.word? with
          | none => exact Leads.refl _
          | some w =>
              exact (leads_advance ⟨prev, t :: u :: ts⟩).trans
                ((leads_advance ⟨some t, u :: ts⟩).trans
                  (leads_pathFrom (name ++ "." ++ w) (some u) ts))

@[simp] theorem skipLabel_cursor (c : Cursor) : (σ.cursor c).skipLabel = σ.cursor c.skipLabel := by
  obtain ⟨prev, rest⟩ := c
  rcases rest with _ | ⟨a, _ | ⟨b, rest⟩⟩
  · rfl
  · rfl
  · simp only [skipLabel, rest_cursor, tokens_cons, word?_token, isMark_token]
    cases a.word? with
    | none => rfl
    | some w =>
        cases b.isMark ':' with
        | true => rfl
        | false =>
            cases b.word? with
            | none => rfl
            | some v =>
                cases rest with
                | nil => rfl
                | cons d rest =>
                    simp only [tokens_cons, isMark_token]
                    split <;> rfl

theorem leads_skipLabel (c : Cursor) : c.Leads c.skipLabel := by
  obtain ⟨prev, rest⟩ := c
  rcases rest with _ | ⟨a, _ | ⟨b, rest⟩⟩
  · exact Leads.refl _
  · exact Leads.refl _
  · have hpair : Leads ⟨prev, a :: b :: rest⟩ ⟨some b, rest⟩ :=
      (leads_advance ⟨prev, a :: b :: rest⟩).trans (leads_advance ⟨some a, b :: rest⟩)
    simp only [skipLabel]
    split
    · exact hpair
    · next d rest _ _ _ =>
        split
        · exact hpair.trans (leads_advance ⟨some b, d :: rest⟩)
        · exact Leads.refl _
    · exact Leads.refl _

/-! ### Types -/

variable {read : Cursor → Except Failure (TypeRef × Cursor)}

theorem alike_attributed (attributes : List String) {line : Nat} (type : TypeRef) :
    Alike σ.Fails Eq (attributed attributes line type)
      (attributed attributes (σ.lines + line) type) := by
  cases attributes with
  | nil => exact .ok rfl
  | cons a as =>
      cases type with
      | function bs params effects result => exact .ok rfl
      | _ => exact .error rfl

theorem carries_typeWith (hread : σ.Carries cs σ.Fails read read) :
    σ.Carries cs σ.Fails (typeWith read) (typeWith read) := by
  intro c hc
  simp only [typeWith, prev_cursor, rest_cursor, σ.line_cursor hc.prev]
  refine (σ.alike_attributesFrom c.prev c.rest hc).bind ?_
  rintro ⟨attributes, c₁⟩ _ ⟨rfl, hc₁⟩
  refine (hread hc₁).bind ?_
  rintro ⟨core, c₂⟩ _ ⟨rfl, hc₂⟩
  refine (σ.alike_attributed attributes core).bind ?_
  rintro type _ rfl
  refine .ok ⟨σ.optionalsFrom_tokens type c₂.prev c₂.rest, ?_⟩
  exact hc₂.of_leads (leads_optionalsFrom type c₂.prev c₂.rest)

theorem carries_namedWith (hread : σ.Carries cs σ.Fails read read) :
    σ.Carries cs σ.Fails (namedWith read) (namedWith read) := by
  intro c hc
  refine (σ.alike_expectName hc "type").bind ?_
  rintro ⟨first, c₁⟩ _ ⟨rfl, hc₁⟩
  have hc₂ := hc₁.of_leads (leads_pathFrom first c₁.prev c₁.rest)
  simp only [prev_cursor, rest_cursor, pathFrom_tokens, mark?_cursor]
  cases hangle : (pathFrom first c₁.prev c₁.rest).2.mark? '<' with
  | some c₃ =>
      simp only [Option.map_some, rest_cursor, length_tokens]
      refine (σ.alike_separated (fun _ => rfl) (fun _ _ hc => hread hc) '>' _ 0
        (hc₂.of_leads (leads_of_mark? hangle))).bind ?_
      rintro ⟨args, c₄⟩ _ ⟨rfl, hc₄⟩
      exact .ok ⟨rfl, hc₄⟩
  | none => exact .ok ⟨rfl, hc₂⟩

theorem carries_elementWith (hread : σ.Carries cs σ.Fails read read) :
    σ.Carries cs σ.Fails (elementWith read) (elementWith read) := by
  intro c hc
  have hc₁ := hc.of_leads (leads_skipLabel c)
  simp only [elementWith, skipLabel_cursor, keyword?_cursor]
  cases hinout : c.skipLabel.keyword? "inout" with
  | none => exact hread hc₁
  | some c₂ => exact hread (hc₁.of_leads (leads_of_keyword? hinout))

theorem carries_elementsWith (hread : σ.Carries cs σ.Fails read read) :
    σ.Carries cs σ.Fails (elementsWith read) (elementsWith read) := by
  intro c hc
  simp only [elementsWith, mark?_cursor, rest_cursor, length_tokens]
  cases hclose : c.mark? ')' with
  | some c₁ => exact .ok ⟨rfl, hc.of_leads (leads_of_mark? hclose)⟩
  | none =>
      exact σ.alike_separated (fun _ => rfl) (fun _ _ hc => σ.carries_elementWith hread hc) ')' _ 0 hc

theorem carries_parenthesizedWith (hread : σ.Carries cs σ.Fails read read) :
    σ.Carries cs σ.Fails (parenthesizedWith read) (parenthesizedWith read) := by
  intro c hc
  simp only [parenthesizedWith, advance_cursor, σ.line_cursor hc.prev]
  refine (σ.carries_elementsWith hread (hc.of_leads (leads_advance c))).bind ?_
  rintro ⟨elements, c₁⟩ _ ⟨rfl, hc₁⟩
  refine (σ.carries_effects hc₁).bind ?_
  rintro ⟨effects, c₂⟩ _ ⟨rfl, hc₂⟩
  simp only [atArrow_cursor, advance_cursor]
  split
  · refine (hread (hc₂.of_leads (leads_advance c₂))).bind ?_
    rintro ⟨result, c₃⟩ _ ⟨rfl, hc₃⟩
    exact .ok ⟨rfl, hc₃⟩
  split
  · exact .error rfl
  split
  · exact .ok ⟨rfl, hc₂⟩
  · exact .ok ⟨rfl, hc₂⟩
  · exact .error rfl

theorem carries_collectionWith (hread : σ.Carries cs σ.Fails read read) :
    σ.Carries cs σ.Fails (collectionWith read) (collectionWith read) := by
  intro c hc
  simp only [collectionWith, advance_cursor]
  refine (hread (hc.of_leads (leads_advance c))).bind ?_
  rintro ⟨first, c₁⟩ _ ⟨rfl, hc₁⟩
  simp only [mark?_cursor]
  cases hcolon : c₁.mark? ':' with
  | some c₂ =>
      refine (hread (hc₁.of_leads (leads_of_mark? hcolon))).bind ?_
      rintro ⟨value, c₃⟩ _ ⟨rfl, hc₃⟩
      refine (σ.alike_expectMark hc₃ ']').bind ?_
      rintro c₄ _ ⟨rfl, hc₄⟩
      exact .ok ⟨rfl, hc₄⟩
  | none =>
      refine (σ.alike_expectMark hc₁ ']').bind ?_
      rintro c₂ _ ⟨rfl, hc₂⟩
      exact .ok ⟨rfl, hc₂⟩

theorem carries_coreWith (hread : σ.Carries cs σ.Fails read read) :
    σ.Carries cs σ.Fails (coreWith read) (coreWith read) := by
  have htype := σ.carries_typeWith hread
  intro c hc
  simp only [coreWith, found_cursor, advance_cursor]
  split
  · exact σ.carries_collectionWith htype hc
  · exact σ.carries_parenthesizedWith htype hc
  · split
    · refine (hread (hc.of_leads (leads_advance c))).bind ?_
      rintro ⟨constraint, c₁⟩ _ ⟨rfl, hc₁⟩
      exact .ok ⟨rfl, hc₁⟩
    split
    · exact .error (σ.fail_cursor hc.prev _)
    · exact σ.carries_namedWith htype hc
  · exact .error (σ.fail_cursor hc.prev _)

theorem carries_typeCore (room : Nat) : σ.Carries cs σ.Fails (typeCore room) (typeCore room) := by
  induction room with
  | zero => exact fun c hc => .error (σ.fail_cursor hc.prev _)
  | succ room ih => exact σ.carries_coreWith ih

/-- Types are read alike further down. -/
theorem carries_type (room : Nat) : σ.Carries cs σ.Fails (Cursor.type room) (Cursor.type room) :=
  σ.carries_typeWith (σ.carries_typeCore room)

/-! ### Signatures -/

variable {σ} in
/-- A failure stops what it is part of. -/
theorem alike_lift {α β : Type} {V : α → β → Prop} {r : Except Failure α} {r' : Except Failure β}
    (h : Alike σ.Fails V r r') :
    Alike σ.Halts V (liftM r : Except Halt α) (liftM r' : Except Halt β) := by
  rcases h with ⟨a, b, rfl, rfl, hab⟩ | ⟨f, _, rfl, rfl, rfl⟩
  · exact .ok hab
  · exact .error ⟨f, rfl, rfl⟩

variable {σ} in
theorem alike_inMember {α β : Type} {V : α → β → Prop} {r : Except Halt α} {r' : Except Halt β}
    (member : String) (h : Alike σ.Halts V r r') :
    Alike σ.Halts V (inMember member r) (inMember member r') := by
  rcases h with ⟨a, b, rfl, rfl, hab⟩ | ⟨_, _, rfl, rfl, f, rfl, rfl⟩
  · exact .ok hab
  · exact .error ⟨f.inMember member, rfl, rfl⟩

theorem halts_fail {c : Cursor} (hc : c.Settled cs) (reason : Reason) :
    σ.Halts (.failure (c.fail reason)) (.failure ((σ.cursor c).fail reason)) :=
  ⟨c.fail reason, rfl, by rw [σ.fail_cursor hc.prev]⟩

theorem carries_parameterName (index : Nat) :
    σ.Carries cs σ.Fails (parameterName index) (parameterName index) := by
  intro c hc
  refine (σ.alike_expectName hc "parameter").bind ?_
  rintro ⟨first, c₁⟩ _ ⟨rfl, hc₁⟩
  simp only [word?_cursor, advance_cursor]
  split
  · exact .ok ⟨rfl, hc₁.of_leads (leads_advance c₁)⟩
  · split
    · exact .ok ⟨rfl, hc₁⟩
    · exact .ok ⟨rfl, hc₁⟩

theorem carries_default? {value value' : Cursor → Except Halt (String × Cursor)}
    (hvalue : σ.Carries cs σ.Halts value value') :
    σ.Carries cs σ.Halts (default? value) (default? value') := by
  intro c hc
  simp only [default?, mark?_cursor]
  cases hequals : c.mark? '=' with
  | some c₁ =>
      refine (hvalue (hc.of_leads (leads_of_mark? hequals))).bind ?_
      rintro ⟨text, c₂⟩ _ ⟨rfl, hc₂⟩
      exact .ok ⟨rfl, hc₂⟩
  | none => exact .ok ⟨rfl, hc⟩

theorem carries_parameter (room index : Nat) :
    σ.Carries cs σ.Halts (parameter cs room index) (parameter (σ.source cs) room index) := by
  intro c hc
  refine (alike_lift (σ.carries_parameterName index hc)).bind ?_
  rintro ⟨⟨label, name⟩, c₁⟩ _ ⟨rfl, hc₁⟩
  refine (alike_lift (σ.alike_expectMark hc₁ ':')).bind ?_
  rintro c₂ _ ⟨rfl, hc₂⟩
  have hinout : (if c₂.atWord "inout" = true then (σ.cursor c₂).advance else σ.cursor c₂) =
      σ.cursor (if c₂.atWord "inout" = true then c₂.advance else c₂) := by
    rw [advance_cursor]
    split <;> rfl
  have hc₃ : (if c₂.atWord "inout" = true then c₂.advance else c₂).Settled cs := by
    split
    · exact hc₂.of_leads (leads_advance c₂)
    · exact hc₂
  simp only [atWord_cursor, hinout]
  refine (alike_lift (σ.carries_type room hc₃)).bind ?_
  rintro ⟨type, c₄⟩ _ ⟨rfl, hc₄⟩
  simp only [atMark_cursor]
  split
  · exact .error (σ.halts_fail hc₄ _)
  · refine (σ.carries_default? σ.carries_argument hc₄).bind ?_
    rintro ⟨default, c₅⟩ _ ⟨rfl, hc₅⟩
    exact .ok ⟨rfl, hc₅⟩

theorem carries_parameters (room : Nat) :
    σ.Carries cs σ.Halts (parameters cs room) (parameters (σ.source cs) room) := by
  intro c hc
  refine (alike_lift (σ.alike_expectMark hc '(')).bind ?_
  rintro c₁ _ ⟨rfl, hc₁⟩
  simp only [mark?_cursor, rest_cursor, length_tokens]
  cases hclose : c₁.mark? ')' with
  | some c₂ => exact .ok ⟨rfl, hc₁.of_leads (leads_of_mark? hclose)⟩
  | none =>
      exact σ.alike_separated (fun f => ⟨f, rfl, rfl⟩)
        (fun index _ hc => σ.carries_parameter room index hc) ')' _ 0 hc₁

theorem carries_result (room : Nat) : σ.Carries cs σ.Fails (result room) (result room) := by
  intro c hc
  simp only [result, atArrow_cursor, advance_cursor]
  split
  · exact σ.carries_type room (hc.of_leads (leads_advance c))
  · exact .ok ⟨rfl, hc⟩

theorem carries_signature (room : Nat) (name : String) :
    σ.Carries cs σ.Halts (signature cs room name) (signature (σ.source cs) room name) := by
  intro c hc
  simp only [signature, atMark_cursor]
  split
  · exact .error (σ.halts_fail hc _)
  refine (σ.carries_parameters room hc).bind ?_
  rintro ⟨params, c₁⟩ _ ⟨rfl, hc₁⟩
  refine (alike_lift (σ.carries_effects hc₁)).bind ?_
  rintro ⟨effects, c₂⟩ _ ⟨rfl, hc₂⟩
  refine (alike_lift (σ.carries_result room hc₂)).bind ?_
  rintro ⟨result, c₃⟩ _ ⟨rfl, hc₃⟩
  simp only [atWord_cursor]
  split
  · exact .error (σ.halts_fail hc₃ _)
  · exact .ok ⟨rfl, hc₃⟩

theorem carries_method (room : Nat) :
    σ.Carries cs σ.Halts (method cs room) (method (σ.source cs) room) := by
  intro c hc
  simp only [method, advance_cursor]
  refine (alike_lift (σ.alike_expectName (hc.of_leads (leads_advance c)) "method")).bind ?_
  rintro ⟨name, c₁⟩ _ ⟨rfl, hc₁⟩
  exact alike_inMember _ (σ.carries_signature room name hc₁)

theorem carries_initializer (room : Nat) :
    σ.Carries cs σ.Halts (initializer cs room) (initializer (σ.source cs) room) := by
  intro c hc
  simp only [initializer, advance_cursor, atMark_cursor]
  refine alike_inMember _ ?_
  split
  · exact .error (σ.halts_fail hc _)
  split
  · exact .error (σ.halts_fail hc _)
  refine (σ.carries_parameters room (hc.of_leads (leads_advance c))).bind ?_
  rintro ⟨params, c₁⟩ _ ⟨rfl, hc₁⟩
  refine (alike_lift (σ.carries_effects hc₁)).bind ?_
  rintro ⟨effects, c₂⟩ _ ⟨rfl, hc₂⟩
  exact .ok ⟨rfl, hc₂⟩

@[simp] theorem skipBody_cursor (c : Cursor) : (σ.cursor c).skipBody = σ.cursor c.skipBody := by
  simp only [skipBody, atMark_cursor, skipGroup_cursor]
  split <;> rfl

theorem leads_skipBody (c : Cursor) : c.Leads c.skipBody := by
  simp only [skipBody]
  split
  · exact leads_skipGroup c
  · exact Leads.refl c

/-! ### Properties and cases -/

theorem carries_propertyRest (room : Nat) (name : String) (isMutable : Bool) :
    σ.Carries cs σ.Halts (propertyRest cs room name isMutable)
      (propertyRest (σ.source cs) room name isMutable) := by
  intro c hc
  simp only [propertyRest, atMark_cursor, mark?_cursor]
  split
  · exact .error (σ.halts_fail hc _)
  cases hcolon : c.mark? ':' with
  | none => exact .error (σ.halts_fail hc _)
  | some c₁ =>
      refine (alike_lift (σ.carries_type room (hc.of_leads (leads_of_mark? hcolon)))).bind ?_
      rintro ⟨type, c₂⟩ _ ⟨rfl, hc₂⟩
      refine (σ.carries_default? σ.carries_expression hc₂).bind ?_
      rintro ⟨default, c₃⟩ _ ⟨rfl, hc₃⟩
      simp only [atMark_cursor, advance_cursor, rest_cursor, opensObservers_tokens, skipGroup_cursor]
      split
      · exact .ok ⟨rfl, hc₃.of_leads (leads_skipGroup c₃)⟩
      · exact .ok ⟨rfl, hc₃⟩

theorem carries_property (room : Nat) (word : String) :
    σ.Carries cs σ.Halts (property cs room word) (property (σ.source cs) room word) := by
  intro c hc
  simp only [property, advance_cursor]
  refine (alike_lift (σ.alike_expectName (hc.of_leads (leads_advance c)) "property")).bind ?_
  rintro ⟨name, c₁⟩ _ ⟨rfl, hc₁⟩
  exact alike_inMember _ (σ.carries_propertyRest room name _ hc₁)

theorem caseValues_cursor (c : Cursor) :
    (σ.cursor c).caseValues = (c.caseValues.1, σ.cursor c.caseValues.2) := by
  simp only [caseValues, atMark_cursor, skipGroup_cursor]
  split <;> rfl

theorem leads_caseValues (c : Cursor) : c.Leads c.caseValues.2 := by
  simp only [caseValues]
  split
  · exact leads_skipGroup c
  · exact Leads.refl c

@[simp] theorem skipRawValue_cursor (c : Cursor) :
    (σ.cursor c).skipRawValue = σ.cursor c.skipRawValue := by
  simp only [skipRawValue, mark?_cursor]
  cases c.mark? '=' with
  | none => rfl
  | some c₁ => simp only [Option.map_some, skipMark_cursor, advance_cursor]

theorem leads_skipRawValue (c : Cursor) : c.Leads c.skipRawValue := by
  simp only [skipRawValue]
  cases h : c.mark? '=' with
  | none => exact Leads.refl c
  | some c₁ => exact (leads_of_mark? h).trans ((leads_skipMark c₁ '-').trans (leads_advance _))

theorem carries_casesFrom (fuel : Nat) (e : Enumeration) :
    σ.Carries cs σ.Fails (casesFrom fuel e) (casesFrom fuel e) := by
  induction fuel generalizing e with
  | zero => exact fun c hc => .ok ⟨rfl, hc⟩
  | succ fuel ih =>
      intro c hc
      simp only [casesFrom]
      refine (σ.alike_expectName hc "case").bind ?_
      rintro ⟨name, c₁⟩ _ ⟨rfl, hc₁⟩
      have hc₂ := hc₁.of_leads ((leads_caseValues c₁).trans (leads_skipRawValue _))
      simp only [caseValues_cursor, skipRawValue_cursor, mark?_cursor]
      cases hcomma : c₁.caseValues.2.skipRawValue.mark? ',' with
      | some c₃ => exact ih _ (hc₂.of_leads (leads_of_mark? hcomma))
      | none => exact .ok ⟨rfl, hc₂⟩

theorem carries_cases (e : Enumeration) :
    σ.Carries cs σ.Fails (Cursor.cases e) (Cursor.cases e) := by
  intro c hc
  simp only [Cursor.cases, rest_cursor, length_tokens]
  exact σ.carries_casesFrom _ e hc

end Displacement

end Scaffold
