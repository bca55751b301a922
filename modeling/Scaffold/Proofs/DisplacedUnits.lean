/-
**Declarations further down.**

Bodies, declarations and the items of a unit are read alike wherever they stand in a text.  What they
yield is the same, except that the lines of declarations and problems have moved along.

Main definitions:

* `Scaffold.Outcome.move` — an outcome on later lines.

Main results:

* `Scaffold.Displacement.bodies_body` — bodies, if the declarations nested in them are read alike;
* `Scaffold.Displacement.carriesNested_declaration` — **declarations**;
* `Scaffold.Displacement.exists_itemsFrom` — the items of a unit.
-/

import Scaffold.Proofs.DisplacedMembers
import Scaffold.Source.Unit

set_option relaxedAutoImplicit false
set_option autoImplicit false

namespace Scaffold

/-! ### Outcomes on later lines -/

/-- A problem on a later line. -/
def Problem.move (lines : Nat) : Problem → Problem
  | .malformed declaration member reason line => .malformed declaration member reason (lines + line)
  | p => p

/-- A declaration on a later line. -/
def Entry.move (lines : Nat) (e : Entry) : Entry :=
  { e with declaration := { e.declaration with line := lines + e.declaration.line } }

/-- An outcome on later lines. -/
def Outcome.move (lines : Nat) (o : Outcome) : Outcome :=
  ⟨o.entries.map (Entry.move lines), o.problems.map (Problem.move lines), o.rejected⟩

@[simp] theorem Outcome.move_append (lines : Nat) (a b : Outcome) :
    (a ++ b).move lines = a.move lines ++ b.move lines := by
  show Outcome.mk _ _ _ = Outcome.mk _ _ _
  simp [Outcome.move]

theorem Cursor.leads_skipHeaderRest (c : Cursor) : c.Leads c.skipHeaderRest := leads_scan c

namespace Displacement

variable (σ : Displacement) {cs : List Char}

open Cursor

/-! ### Bodies of protocols -/

theorem unclassifiable_cursor {c : Cursor} (hc : c.Settled cs) (word : String) :
    (σ.cursor c).unclassifiable word = σ.failure (c.unclassifiable word) := by
  simp only [unclassifiable, secondWord?_cursor, σ.fail_cursor hc.prev]
  rfl

theorem carries_contractItem (room : Nat) (contract : Contract) (t : Token) :
    σ.Carries cs σ.Halts (contractItem cs room contract t)
      (contractItem (σ.source cs) room contract (σ.token t)) := by
  intro c hc
  simp only [contractItem, kind_token, advance_cursor, skipAttribute_cursor, skipModifier_cursor]
  split
  · exact .ok ⟨rfl, hc.of_leads (leads_advance c)⟩
  · exact .ok ⟨rfl, hc.of_leads (leads_advance c)⟩
  · exact .ok ⟨rfl, hc.of_leads (leads_skipAttribute c)⟩
  · split
    · exact .ok ⟨rfl, hc.of_leads (leads_skipModifier c)⟩
    split
    · refine (σ.carries_method room hc).bind ?_
      rintro ⟨m, c₁⟩ _ ⟨rfl, hc₁⟩
      exact .ok ⟨rfl, hc₁⟩
    split
    · refine (σ.carries_initializer room hc).bind ?_
      rintro ⟨i, c₁⟩ _ ⟨rfl, hc₁⟩
      exact .ok ⟨rfl, hc₁⟩
    · exact .error ⟨_, rfl, by rw [σ.unclassifiable_cursor hc]⟩
  · exact .error (σ.halts_fail hc _)

theorem alike_contractBodyFrom (room fuel : Nat) (contract : Contract) {c : Cursor}
    (hc : c.Settled cs) :
    Alike σ.Halts Eq (contractBodyFrom cs room fuel contract c)
      (contractBodyFrom (σ.source cs) room fuel contract (σ.cursor c)) := by
  induction fuel generalizing contract c with
  | zero => exact .ok rfl
  | succ fuel ih =>
      simp only [contractBodyFrom, next?_cursor]
      cases c.next? with
      | none => exact .ok rfl
      | some t =>
          simp only [Option.map_some]
          rcases σ.carries_contractItem room contract t hc with
            ⟨⟨contract', c'⟩, _, hr, hr', rfl, hc'⟩ | ⟨h, h', hr, hr', hh⟩
          · simp only [hr, hr']
            exact ih contract' hc'
          · simp only [hr, hr']
            exact .error hh

/-- What a body yields is the same further down. -/
def Bodies {α : Type} (r r' : BodyResult α) : Prop :=
  ∃ o x x', r = some (o, x) ∧ r' = some (o.move σ.lines, x') ∧ Alike σ.Fails Eq x x'

theorem bodies_contractBody (room : Nat) {c : Cursor} (hc : c.Settled cs) :
    σ.Bodies (contractBody cs room c) (contractBody (σ.source cs) room (σ.cursor c)) := by
  simp only [contractBody, rest_cursor, length_tokens]
  rcases σ.alike_contractBodyFrom room (c.rest.length + 1) {} hc with
    ⟨contract, _, hr, hr', rfl⟩ | ⟨_, _, hr, hr', f, rfl, rfl⟩
  · simp only [hr, hr']
    exact ⟨{}, _, _, rfl, rfl, .ok rfl⟩
  · simp only [hr, hr']
    exact ⟨{}, _, _, rfl, rfl, .error rfl⟩

/-! ### Bodies of structs, classes and actors -/

/-- What is known of a value type, with what its nested declarations yield on later lines. -/
def valueState (s : ValueState) : ValueState := { s with outcome := s.outcome.move σ.lines }

theorem attributed_valueState (s : ValueState) :
    (σ.valueState s).attributed = s.attributed := by
  cases s
  rfl

theorem afterMember_valueState (s : ValueState) (o : Outcome) :
    { σ.valueState s with outcome := (σ.valueState s).outcome ++ o.move σ.lines }.afterMember =
      σ.valueState { s with outcome := s.outcome ++ o }.afterMember := by
  simp [valueState, ValueState.afterMember]

/-- A step through a body is the same further down. -/
def BodySteps {S : Type} (move : S → S) (cs : List Char) (r r' : BodyStep S) : Prop :=
  ∃ s x x', r = some (s, x) ∧ r' = some (move s, x') ∧ Alike σ.Fails (σ.Moves cs) x x'

/-- A reader of nested declarations does the same further down. -/
def CarriesNested (cs : List Char) (nested nested' : NestedReader) : Prop :=
  ∀ form markers ⦃c⦄, c.Settled cs →
    ∃ o c', nested form markers c = some (o, c') ∧
      nested' form markers (σ.cursor c) = some (o.move σ.lines, σ.cursor c') ∧ c'.Settled cs

@[simp] theorem opensTypeMember_cursor (c : Cursor) :
    (σ.cursor c).opensTypeMember = c.opensTypeMember := by
  simp [opensTypeMember]

variable {σ} in
theorem BodySteps.ok {S : Type} {move : S → S} {s : S} {c : Cursor} (hc : c.Settled cs) :
    σ.BodySteps move cs (some (s, .ok c)) (some (move s, .ok (σ.cursor c))) :=
  ⟨s, _, _, rfl, rfl, .ok ⟨rfl, hc⟩⟩

variable {σ} in
theorem BodySteps.error {S : Type} {move : S → S} {s : S} {f : Failure} :
    σ.BodySteps move cs (some (s, .error f)) (some (move s, .error (σ.failure f))) :=
  ⟨s, _, _, rfl, rfl, .error rfl⟩

theorem bodySteps_memberStep {α : Type} (s : ValueState) {c : Cursor} (hc : c.Settled cs)
    {read read' : Except Halt (α × Cursor)} (hread : Alike σ.Halts (σ.Steps cs) read read')
    (keep : ValueType → α → ValueType) :
    σ.BodySteps σ.valueState cs (memberStep s c read keep)
      (memberStep (σ.valueState s) (σ.cursor c) read' keep) := by
  rcases hread with ⟨⟨x, c₁⟩, _, rfl, rfl, rfl, hc₁⟩ | ⟨_, _, rfl, rfl, f, rfl, rfl⟩
  · simp only [memberStep, skipBody_cursor]
    exact .ok (hc₁.of_leads (leads_skipBody c₁))
  · simp only [memberStep, σ.skipStatement_cursor hc.prev]
    exact .ok (hc.of_leads (leads_skipStatement c))

section Members

variable {nested nested' : NestedReader} (hnested : σ.CarriesNested cs nested nested')

include hnested

theorem bodySteps_nested {S : Type} {move : S → S} {next : Outcome → S} {next' : Outcome → S}
    (hnext : ∀ o, next' (o.move σ.lines) = move (next o)) (form : Form) (markers : List String)
    {c : Cursor} (hc : c.Settled cs) :
    σ.BodySteps move cs
      (match nested form markers c with
        | some (o, c) => some (next o, .ok c)
        | none => none)
      (match nested' form markers (σ.cursor c) with
        | some (o, c) => some (next' o, .ok c)
        | none => none) := by
  obtain ⟨o, c', hr, hr', hc'⟩ := hnested form markers hc
  simp only [hr, hr', hnext]
  exact .ok hc'

theorem bodySteps_valueMember (room : Nat) (s : ValueState) (word : String) {c : Cursor}
    (hc : c.Settled cs) :
    σ.BodySteps σ.valueState cs (valueMember cs room nested s word c)
      (valueMember (σ.source cs) room nested' (σ.valueState s) word (σ.cursor c)) := by
  have hskip : σ.BodySteps σ.valueState cs (some (s.afterMember, .ok c.skipStatement))
      (some ((σ.valueState s).afterMember, .ok (σ.cursor c).skipStatement)) := by
    rw [σ.skipStatement_cursor hc.prev]
    exact .ok (hc.of_leads (leads_skipStatement c))
  simp only [valueMember, opensTypeMember_cursor, attributed_valueState]
  split
  · exact hskip
  split
  · exact hskip
  split
  · split
    · exact hskip
    · rcases σ.carries_property room word hc with
        ⟨⟨field, c₁⟩, _, hr, hr', rfl, hc₁⟩ | ⟨_, _, hr, hr', f, rfl, rfl⟩
      · simp only [hr, hr']
        exact .ok hc₁
      · simp only [hr, hr']
        exact .error
  split
  · exact σ.bodySteps_memberStep s hc (σ.carries_method room hc) _
  split
  · exact σ.bodySteps_memberStep s hc (σ.carries_initializer room hc) _
  split
  · exact σ.bodySteps_nested hnested (σ.afterMember_valueState s) _ _ hc
  · rw [σ.fail_cursor hc.prev]
    exact .error

theorem bodySteps_valueItem (markerPrefix : String) (room : Nat) (s : ValueState) (t : Token)
    {c : Cursor} (hc : c.Settled cs) :
    σ.BodySteps σ.valueState cs (valueItem cs markerPrefix room nested s t c)
      (valueItem (σ.source cs) markerPrefix room nested' (σ.valueState s) (σ.token t)
        (σ.cursor c)) := by
  simp only [valueItem, kind_token, advance_cursor, skipAttribute_cursor, skipModifier_cursor,
    σ.skipStatement_cursor hc.prev, σ.fail_cursor hc.prev]
  split
  · exact .ok (hc.of_leads (leads_advance c))
  · exact .ok (hc.of_leads (leads_advance c))
  · exact .ok (hc.of_leads (leads_skipAttribute c))
  · exact .ok (hc.of_leads (leads_skipStatement c))
  · split
    · exact .ok (hc.of_leads (leads_skipModifier c))
    · exact σ.bodySteps_valueMember hnested room s _ hc
  · exact .error

theorem bodies_valueBodyFrom (markerPrefix : String) (room fuel : Nat) (s : ValueState)
    {c : Cursor} (hc : c.Settled cs) :
    σ.Bodies (valueBodyFrom cs markerPrefix room nested fuel s c)
      (valueBodyFrom (σ.source cs) markerPrefix room nested' fuel (σ.valueState s)
        (σ.cursor c)) := by
  induction fuel generalizing s c with
  | zero => exact ⟨s.outcome, _, _, rfl, rfl, .ok rfl⟩
  | succ fuel ih =>
      simp only [valueBodyFrom, next?_cursor]
      cases c.next? with
      | none => exact ⟨s.outcome, _, _, rfl, rfl, .ok rfl⟩
      | some t =>
          simp only [Option.map_some]
          obtain ⟨s', x, x', hr, hr', hx⟩ := σ.bodySteps_valueItem hnested markerPrefix room s t hc
          rcases hx with ⟨c', _, rfl, rfl, rfl, hc'⟩ | ⟨f, _, rfl, rfl, rfl⟩
          · simp only [hr, hr']
            exact ih s' hc'
          · simp only [hr, hr']
            exact ⟨s'.outcome, _, _, rfl, rfl, .error rfl⟩

/-! ### Bodies of enumerations -/

end Members

/-- What is known of an enumeration, with what its nested declarations yield on later lines. -/
def enumerationState (s : EnumerationState) : EnumerationState :=
  { s with outcome := s.outcome.move σ.lines }

theorem afterMember_enumerationState (s : EnumerationState) (o : Outcome) :
    { σ.enumerationState s with
      outcome := (σ.enumerationState s).outcome ++ o.move σ.lines }.afterMember =
      σ.enumerationState { s with outcome := s.outcome ++ o }.afterMember := by
  simp [enumerationState, EnumerationState.afterMember]

section Members

variable {nested nested' : NestedReader} (hnested : σ.CarriesNested cs nested nested')

include hnested

theorem bodySteps_enumerationMember (s : EnumerationState) (word : String) {c : Cursor}
    (hc : c.Settled cs) :
    σ.BodySteps σ.enumerationState cs (enumerationMember nested s word c)
      (enumerationMember nested' (σ.enumerationState s) word (σ.cursor c)) := by
  have hskip : σ.BodySteps σ.enumerationState cs (some (s.afterMember, .ok c.skipStatement))
      (some ((σ.enumerationState s).afterMember, .ok (σ.cursor c).skipStatement)) := by
    rw [σ.skipStatement_cursor hc.prev]
    exact .ok (hc.of_leads (leads_skipStatement c))
  simp only [enumerationMember, opensTypeMember_cursor, advance_cursor]
  split
  · rcases σ.carries_cases s.enumeration (hc.of_leads (leads_advance c)) with
      ⟨⟨e, c₁⟩, _, hr, hr', rfl, hc₁⟩ | ⟨f, _, hr, hr', rfl⟩
    · simp only [hr, enumerationState, hr']
      exact .ok hc₁
    · simp only [hr, enumerationState, hr']
      exact .error
  split
  · exact hskip
  split
  · exact σ.bodySteps_nested hnested (σ.afterMember_enumerationState s) _ _ hc
  · exact hskip

theorem bodySteps_enumerationItem (markerPrefix : String) (s : EnumerationState) (t : Token)
    {c : Cursor} (hc : c.Settled cs) :
    σ.BodySteps σ.enumerationState cs (enumerationItem markerPrefix nested s t c)
      (enumerationItem markerPrefix nested' (σ.enumerationState s) (σ.token t) (σ.cursor c)) := by
  simp only [enumerationItem, kind_token, advance_cursor, skipAttribute_cursor, skipModifier_cursor,
    σ.fail_cursor hc.prev]
  split
  · exact .ok (hc.of_leads (leads_advance c))
  · exact .ok (hc.of_leads (leads_advance c))
  · exact .ok (hc.of_leads (leads_skipAttribute c))
  · split
    · exact .ok (hc.of_leads (leads_skipModifier c))
    · exact σ.bodySteps_enumerationMember hnested s _ hc
  · exact .error

theorem bodies_enumerationBodyFrom (markerPrefix : String) (fuel : Nat) (s : EnumerationState)
    {c : Cursor} (hc : c.Settled cs) :
    σ.Bodies (enumerationBodyFrom markerPrefix nested fuel s c)
      (enumerationBodyFrom markerPrefix nested' fuel (σ.enumerationState s) (σ.cursor c)) := by
  induction fuel generalizing s c with
  | zero => exact ⟨s.outcome, _, _, rfl, rfl, .ok rfl⟩
  | succ fuel ih =>
      simp only [enumerationBodyFrom, next?_cursor]
      cases c.next? with
      | none => exact ⟨s.outcome, _, _, rfl, rfl, .ok rfl⟩
      | some t =>
          simp only [Option.map_some]
          obtain ⟨s', x, x', hr, hr', hx⟩ := σ.bodySteps_enumerationItem hnested markerPrefix s t hc
          rcases hx with ⟨c', _, rfl, rfl, rfl, hc'⟩ | ⟨f, _, rfl, rfl, rfl⟩
          · simp only [hr, hr']
            exact ih s' hc'
          · simp only [hr, hr']
            exact ⟨s'.outcome, _, _, rfl, rfl, .error rfl⟩

omit hnested in
variable {σ} in
theorem Bodies.map {α β : Type} {r r' : BodyResult α} (h : σ.Bodies r r') (f : α → β) :
    σ.Bodies (r.map fun (outcome, result) => (outcome, result.map f))
      (r'.map fun (outcome, result) => (outcome, result.map f)) := by
  obtain ⟨o, x, x', rfl, rfl, hx⟩ := h
  refine ⟨o, x.map f, x'.map f, rfl, rfl, ?_⟩
  rcases hx with ⟨a, _, rfl, rfl, rfl⟩ | ⟨e, _, rfl, rfl, rfl⟩
  · exact .ok rfl
  · exact .error rfl

/-- Bodies are read alike further down, if the declarations nested in them are. -/
theorem bodies_body (markerPrefix : String) (room : Nat) (form : Form)
    (conformances : List String) {c : Cursor} (hc : c.Settled cs) :
    σ.Bodies (body cs markerPrefix room nested form conformances c)
      (body (σ.source cs) markerPrefix room nested' form conformances (σ.cursor c)) := by
  cases form with
  | contract => exact (σ.bodies_contractBody room hc).map _
  | value form =>
      refine Bodies.map ?_ _
      simp only [valueBody, rest_cursor, length_tokens]
      exact σ.bodies_valueBodyFrom hnested markerPrefix room _ { value := { form := form } } hc
  | enumeration =>
      refine Bodies.map ?_ _
      simp only [enumerationBody, rest_cursor, length_tokens]
      exact σ.bodies_enumerationBodyFrom hnested markerPrefix _ {} hc

end Members

/-! ### Headers -/

theorem startsNextItem_token (prev : Option Token) (t : Token) :
    startsNextItem (prev.map σ.token) (σ.token t) = startsNextItem prev t := by
  cases prev with
  | none => simp [startsNextItem]
  | some p => simp [startsNextItem]

theorem conformance_cursor (c : Cursor) :
    (σ.cursor c).conformance = (σ.tokens c.conformance.1, σ.tokens c.conformance.2) := by
  refine σ.scan_tokens (f := Option.map σ.token) ?_ (fun _ _ => rfl) c.prev none c.rest
  intro prev t ts
  simp only [startsNextItem_token, isMark_token, isWord_token]

@[simp] theorem skipHeaderRest_cursor (c : Cursor) :
    (σ.cursor c).skipHeaderRest = σ.cursor c.skipHeaderRest := by
  simp only [skipHeaderRest, prev_cursor, rest_cursor]
  rw [σ.scan_tokens (f := Option.map σ.token) ?_ (fun _ _ => rfl), past_cursor]
  intro prev t ts
  simp only [startsNextItem_token, isMark_token]

/-- What a header yields is the same further down. -/
def Headers (cs : List Char) (r r' : Option HeaderResult) : Prop :=
  ∃ x x' c, r = some (x, c) ∧ r' = some (x', σ.cursor c) ∧ Alike σ.Fails Eq x x' ∧ c.Settled cs

theorem headers_conformancesFrom (fuel : Nat) (texts : List String) {c : Cursor}
    (hc : c.Settled cs) :
    σ.Headers cs (conformancesFrom cs fuel texts c)
      (conformancesFrom (σ.source cs) fuel texts (σ.cursor c)) := by
  induction fuel generalizing texts c with
  | zero => exact ⟨_, _, c, rfl, rfl, .ok rfl, hc⟩
  | succ fuel ih =>
      have hparts : c.conformance.1 ++ c.conformance.2 = c.rest := scan_append _ _ _ _ _ _
      have hanchored : Anchored cs c.conformance.1 :=
        hc.anchored.sublist (hparts ▸ List.sublist_append_left _ _)
      have hc₁ := hc.of_leads (leads_past hparts)
      obtain ⟨text, htext, htext'⟩ := σ.exists_sourceText?_eq hanchored
      simp only [conformancesFrom, conformance_cursor, htext, htext', past_cursor, mark?_cursor]
      split
      · exact ⟨_, _, _, rfl, rfl, .error (σ.fail_cursor hc₁.prev _), hc₁⟩
      · cases hcomma : (c.past c.conformance.1 c.conformance.2).mark? ',' with
        | some c₂ => exact ih _ (hc₁.of_leads (leads_of_mark? hcomma))
        | none => exact ⟨_, _, _, rfl, rfl, .ok rfl, hc₁⟩

theorem headers_header {c : Cursor} (hc : c.Settled cs) :
    σ.Headers cs (header cs c) (header (σ.source cs) (σ.cursor c)) := by
  have hwhere : ∀ texts {c₁ : Cursor}, c₁.Settled cs → σ.Headers cs
      (if c₁.atWord "where" then some (.error (c₁.fail .whereClause), c₁) else some (.ok texts, c₁))
      (if c₁.atWord "where" then some (.error ((σ.cursor c₁).fail .whereClause), σ.cursor c₁)
        else some (.ok texts, σ.cursor c₁)) := by
    intro texts c₁ hc₁
    split
    · exact ⟨_, _, c₁, rfl, rfl, .error (σ.fail_cursor hc₁.prev _), hc₁⟩
    · exact ⟨_, _, c₁, rfl, rfl, .ok rfl, hc₁⟩
  simp only [header, atMark_cursor, mark?_cursor]
  split
  · exact ⟨_, _, c, rfl, rfl, .error (σ.fail_cursor hc.prev _), hc⟩
  cases hcolon : c.mark? ':' with
  | none =>
      simp only [Option.map_none, atWord_cursor]
      exact hwhere [] hc
  | some c₁ =>
      obtain ⟨x, x', c₂, hr, hr', hx, hc₂⟩ := σ.headers_conformancesFrom (c₁.rest.length + 1) []
        (hc.of_leads (leads_of_mark? hcolon))
      simp only [Option.map_some, rest_cursor, length_tokens, hr, hr']
      rcases hx with ⟨texts, _, rfl, rfl, rfl⟩ | ⟨f, _, rfl, rfl, rfl⟩
      · simp only [atWord_cursor]
        exact hwhere texts hc₂
      · exact ⟨_, _, c₂, rfl, rfl, .error rfl, hc₂⟩

/-! ### Declarations -/

theorem declared_move {entry entry' : Shape → Entry} {reject reject' : Failure → Outcome}
    (hentry : ∀ shape, entry' shape = (entry shape).move σ.lines)
    (hreject : ∀ f, reject' (σ.failure f) = (reject f).move σ.lines) (o : Outcome)
    {x x' : Except Failure Shape} (hx : Alike σ.Fails Eq x x') :
    declared entry' reject' (o.move σ.lines) x' = (declared entry reject o x).move σ.lines := by
  rcases hx with ⟨shape, _, rfl, rfl, rfl⟩ | ⟨f, _, rfl, rfl, rfl⟩
  · simp [declared, Outcome.move, hentry]
  · simp only [declared, Outcome.move_append, hreject]
    rfl

/-- **Declarations are read alike further down.** -/
theorem carriesNested_declaration (unit markerPrefix : String) (room : Nat)
    (parent : Option String) :
    σ.CarriesNested cs (declaration unit cs markerPrefix room parent)
      (declaration unit (σ.source cs) markerPrefix room parent) := by
  induction room using Nat.strongRecOn generalizing parent with
  | _ room ih =>
      intro form markers c hc
      rw [declaration.eq_def unit cs, declaration.eq_def unit (σ.source cs)]
      simp only [advance_cursor, σ.line_cursor hc.prev]
      rcases σ.alike_expectName (hc.of_leads (leads_advance c)) form.keyword with
        ⟨⟨name, c₁⟩, _, hname, hname', rfl, hc₁⟩ | ⟨f, _, hname, hname', rfl⟩
      · simp only [hname, hname']
        obtain ⟨x, x', c₂, hheader, hheader', hx, hc₂⟩ := σ.headers_header hc₁
        simp only [hheader, hheader']
        rcases hx with ⟨conformances, _, rfl, rfl, rfl⟩ | ⟨f, _, rfl, rfl, rfl⟩
        · have hc₃ := hc₂.of_leads (leads_skipComments c₂)
          simp only [skipComments_cursor, rest_cursor]
          cases hrest : c₂.skipComments.rest with
          | nil => exact ⟨_, _, rfl, rfl, hc₂⟩
          | cons t ts =>
              simp only [tokens_cons, isMark_token, kind_token, split_tokens]
              split
              · exact ⟨_, _, rfl, rfl, hc₂⟩
              cases hsplit : Group.split { bracket := .curly } ts with
              | none =>
                  simp only [Option.map_none, toEnd_cursor]
                  exact ⟨_, _, rfl, rfl, hc₃.of_leads (leads_toEnd _)⟩
              | some parts =>
                  obtain ⟨inside, close, after⟩ := parts
                  have hclose := hc₃.of_leads (leads_close hrest hsplit)
                  simp only [Option.map_some]
                  cases room with
                  | zero => exact ⟨_, _, rfl, rfl, hclose⟩
                  | succ room =>
                      have hinside : Settled cs ⟨some t, inside⟩ := by
                        refine ⟨rfl, hc₃.anchored.sublist ?_⟩
                        rw [hrest, ← Group.split_append hsplit]
                        exact (List.sublist_append_left _ _).trans (List.sublist_cons_self _ _)
                      obtain ⟨o, y, y', hbody, hbody', hy⟩ := σ.bodies_body
                        (ih room (Nat.lt_succ_self room) (some (qualified parent name)))
                        markerPrefix room form conformances hinside
                      simp only [cursor, Option.map_some] at hbody'
                      simp only [hbody, hbody']
                      refine ⟨_, _, rfl, ?_, hclose⟩
                      refine congrArg (fun o => some (o, σ.cursor ⟨some close, after⟩))
                        (σ.declared_move ?_ ?_ o hy)
                      · exact fun _ => rfl
                      · exact fun _ => rfl
        · have hc₃ := hc₂.of_leads (leads_skipHeaderRest c₂)
          have hc₄ := hc₃.of_leads (leads_skipComments _)
          simp only [skipHeaderRest_cursor, skipComments_cursor, rest_cursor]
          cases hrest : c₂.skipHeaderRest.skipComments.rest with
          | nil => exact ⟨_, _, rfl, rfl, hc₃⟩
          | cons t ts =>
              simp only [tokens_cons, isMark_token, split_tokens]
              split
              · exact ⟨_, _, rfl, rfl, hc₃⟩
              cases hsplit : Group.split { bracket := .curly } ts with
              | none =>
                  simp only [Option.map_none, toEnd_cursor]
                  exact ⟨_, _, rfl, rfl, hc₄.of_leads (leads_toEnd _)⟩
              | some parts => exact ⟨_, _, rfl, rfl, hc₄.of_leads (leads_close hrest hsplit)⟩
      · simp only [hname, hname']
        rw [σ.skipStatement_cursor ((leads_advance c).prev hc.prev)]
        exact ⟨_, _, rfl, rfl, hc.of_leads ((leads_advance c).trans (leads_skipStatement _))⟩

/-! ### Items -/

section Items

variable {nested nested' : NestedReader} (hnested : σ.CarriesNested cs nested nested')

include hnested

/-- An item of a unit is read alike further down. -/
theorem exists_item (markerPrefix : String) (markers : List String) (t : Token) {c : Cursor}
    (hc : c.Settled cs) :
    ∃ m o c', item nested markerPrefix markers t c = some (m, o, c') ∧
      item nested' markerPrefix markers (σ.token t) (σ.cursor c) =
        some (m, o.move σ.lines, σ.cursor c') ∧ c'.Settled cs := by
  simp only [item, kind_token, advance_cursor, skipAttribute_cursor, skipModifier_cursor,
    σ.skipStatement_cursor hc.prev]
  split
  · exact ⟨_, _, _, rfl, rfl, hc.of_leads (leads_advance c)⟩
  · exact ⟨_, _, _, rfl, rfl, hc.of_leads (leads_skipAttribute c)⟩
  · split
    · exact ⟨_, _, _, rfl, rfl, hc.of_leads (leads_skipModifier c)⟩
    split
    · next form _ =>
        obtain ⟨o, c', hr, hr', hc'⟩ := hnested form markers hc
        simp only [hr, hr']
        exact ⟨_, _, _, rfl, rfl, hc'⟩
    · exact ⟨_, _, _, rfl, rfl, hc.of_leads (leads_skipStatement c)⟩
  · exact ⟨_, _, _, rfl, rfl, hc.of_leads (leads_skipStatement c)⟩

/-- **The items of a unit are read alike further down**, and they always can be read. -/
theorem exists_itemsFrom (markerPrefix : String) (fuel : Nat) (markers : List String) {c : Cursor}
    (hc : c.Settled cs) :
    ∃ o, itemsFrom nested markerPrefix fuel markers c = some o ∧
      itemsFrom nested' markerPrefix fuel markers (σ.cursor c) = some (o.move σ.lines) := by
  induction fuel generalizing markers c with
  | zero => exact ⟨{}, rfl, rfl⟩
  | succ fuel ih =>
      simp only [itemsFrom, next?_cursor]
      cases c.next? with
      | none => exact ⟨{}, rfl, rfl⟩
      | some t =>
          obtain ⟨m, o, c', hr, hr', hc'⟩ := σ.exists_item hnested markerPrefix markers t hc
          obtain ⟨rest, hrest, hrest'⟩ := ih m hc'
          simp only [Option.map_some, hr, hr', hrest, hrest']
          exact ⟨_, rfl, by rw [Outcome.move_append]⟩

end Items

end Displacement

end Scaffold
