/-
**What reading preserves.**

Bodies and units are read item by item.  An item either is passed over, so that only the place
changes, or it is a declaration, which adds what it yields to what was read so far.  So a property of
both, the outcome so far and the place reached, holds at the end of a body or a unit if it is kept
where reading moves on, and where a declaration is read.

Main definitions:

* `Scaffold.IsInvariant` — a property that is kept where reading moves on;
* `Scaffold.NestedReader.Keeps` — a property that is kept where a declaration is read;
* `Scaffold.Cursor.DeclarationCase` — what a declaration may yield, and where it ends.

Main results:

* `Scaffold.IsInvariant.exists_of_body` — **bodies keep what declarations keep**, and fail for inner
  reasons;
* `Scaffold.IsInvariant.exists_of_itemsFrom` — so do the items of a unit;
* `Scaffold.Cursor.declaration_cases` — **a declaration has no name, or is rejected, or its body is
  read**.
-/

import Scaffold.Proofs.ReadingOn
import Scaffold.Proofs.UnitSplitting

set_option relaxedAutoImplicit false
set_option autoImplicit false

namespace Scaffold

/-- A property of what was read so far and of the place reached, which is kept where reading moves
on. -/
def IsInvariant (I : Outcome → Cursor → Prop) : Prop :=
  ∀ ⦃o : Outcome⦄ ⦃c c' : Cursor⦄, I o c → c.Leads c' → I o c'

/-- A property that is kept where a declaration is read. -/
def NestedReader.Keeps (nested : NestedReader) (I : Outcome → Cursor → Prop) : Prop :=
  ∀ ⦃form : Form⦄ ⦃markers : List String⦄ ⦃o o' : Outcome⦄ ⦃c c' : Cursor⦄, I o c →
    nested form markers c = some (o', c') → I (o ++ o') c'

namespace IsInvariant

open Cursor

variable {I : Outcome → Cursor → Prop} (hI : IsInvariant I) {nested : NestedReader}
  (hnested : nested.Keeps I) {source : List Char} {markerPrefix : String} {room : Nat}

/-- A step through a body keeps the property: it holds at the place reached, or else where the step
failed, for an inner reason. -/
def Steps (I : Outcome → Cursor → Prop) (o : Outcome) (c : Cursor) (r : Except Failure Cursor) :
    Prop :=
  Meets (fun f => f.IsInner ∧ I o c) (I o) r

/-! ### Bodies of structs, classes and actors -/

include hI in
theorem memberStep {α : Type} {s s' : ValueState} {c : Cursor} {read : Except Halt (α × Cursor)}
    {keep : ValueType → α → ValueType} {r : Except Failure Cursor} (hs : I s.outcome c)
    (hread : Meets Halt.IsInner (fun x => c.Leads x.2) read)
    (hstep : Cursor.memberStep s c read keep = some (s', r)) : Steps I s'.outcome c r := by
  simp only [Cursor.memberStep] at hstep
  split at hstep
  · next x behind =>
      cases hstep
      exact .ok (hI hs ((hread.1 _ rfl).trans (Displacement.leads_skipBody behind)))
  · cases hstep
    exact .ok (hI hs (Cursor.leads_skipStatement c))
  · cases hstep

include hI hnested in
/-- The member of a value type that a word opens. -/
theorem valueMember {s s' : ValueState} {word : String} {c : Cursor} {r : Except Failure Cursor}
    (hs : I s.outcome c) (hstep : c.valueMember source room nested s word = some (s', r)) :
    Steps I s'.outcome c r := by
  have hskip : Steps I s.outcome c (.ok c.skipStatement) :=
    .ok (hI hs (Cursor.leads_skipStatement c))
  simp only [Cursor.valueMember] at hstep
  split at hstep
  · cases hstep
    exact hskip
  split at hstep
  · cases hstep
    exact hskip
  split at hstep
  · split at hstep
    · cases hstep
      exact hskip
    · have hproperty := Cursor.reads_property source room word (Cursor.Leads.refl c)
      split at hstep
      · next field c₁ hr =>
          cases hstep
          have hc₁ : c.Leads c₁ := hproperty.1 (field, c₁) hr
          exact .ok (hI hs hc₁)
      · next f hr =>
          cases hstep
          exact .error ⟨hproperty.2 _ hr f rfl, hs⟩
      · cases hstep
  split at hstep
  · exact hI.memberStep hs (Cursor.reads_method source room (Cursor.Leads.refl c)) hstep
  split at hstep
  · exact hI.memberStep hs (Cursor.reads_initializer source room (Cursor.Leads.refl c)) hstep
  split at hstep
  · split at hstep
    · next o c₁ hr =>
        cases hstep
        exact .ok (hnested hs hr)
    · cases hstep
  · cases hstep
    exact .error ⟨rfl, hs⟩

include hI hnested in
theorem valueItem {s s' : ValueState} {t : Token} {c : Cursor} {r : Except Failure Cursor}
    (hs : I s.outcome c)
    (hstep : c.valueItem source markerPrefix room nested s t = some (s', r)) :
    Steps I s'.outcome c r := by
  simp only [Cursor.valueItem] at hstep
  split at hstep
  · cases hstep
    exact .ok (hI hs (Cursor.leads_advance c))
  · cases hstep
    exact .ok (hI hs (Cursor.leads_advance c))
  · cases hstep
    exact .ok (hI hs (Cursor.leads_skipAttribute c))
  · cases hstep
    exact .ok (hI hs (Cursor.leads_skipStatement c))
  · split at hstep
    · cases hstep
      exact .ok (hI hs (Cursor.leads_skipModifier c))
    · exact hI.valueMember hnested hs hstep
  · cases hstep
    exact .error ⟨rfl, hs⟩

/-- What holds at the end of a body, and of why it could not be read. -/
def Finishes {α : Type} (I : Outcome → Cursor → Prop) (o : Outcome) (r : Except Failure α) : Prop :=
  (∃ c, I o c) ∧ Meets Failure.IsInner (fun _ => True) r

include hI hnested in
theorem valueBodyFrom {fuel : Nat} {s : ValueState} {c : Cursor} {o : Outcome}
    {r : Except Failure ValueType} (hs : I s.outcome c)
    (hread : Cursor.valueBodyFrom source markerPrefix room nested fuel s c = some (o, r)) :
    Finishes I o r := by
  induction fuel generalizing s c with
  | zero =>
      cases hread
      exact ⟨⟨c, hs⟩, .ok trivial⟩
  | succ fuel ih =>
      simp only [Cursor.valueBodyFrom] at hread
      split at hread
      · cases hread
        exact ⟨⟨c, hs⟩, .ok trivial⟩
      · split at hread
        · next hstep => exact ih ((hI.valueItem hnested hs hstep).1 _ rfl) hread
        · next hstep =>
            cases hread
            obtain ⟨hf, hs'⟩ := (hI.valueItem hnested hs hstep).2 _ rfl
            exact ⟨⟨c, hs'⟩, .error hf⟩
        · cases hread

/-! ### Bodies of enumerations -/

include hI hnested in
theorem enumerationMember {s s' : EnumerationState} {word : String} {c : Cursor}
    {r : Except Failure Cursor} (hs : I s.outcome c)
    (hstep : c.enumerationMember nested s word = some (s', r)) : Steps I s'.outcome c r := by
  have hskip : Steps I s.outcome c (.ok c.skipStatement) :=
    .ok (hI hs (Cursor.leads_skipStatement c))
  simp only [Cursor.enumerationMember] at hstep
  split at hstep
  · have hcases := Cursor.reads_cases s.enumeration (Cursor.leads_advance c)
    split at hstep
    · next e c₁ hr =>
        cases hstep
        have hc₁ : c.Leads c₁ := hcases.1 (e, c₁) hr
        exact .ok (hI hs hc₁)
    · next f hr =>
        cases hstep
        exact .error ⟨hcases.2 f hr, hs⟩
  split at hstep
  · cases hstep
    exact hskip
  split at hstep
  · split at hstep
    · next o c₁ hr =>
        cases hstep
        exact .ok (hnested hs hr)
    · cases hstep
  · cases hstep
    exact hskip

include hI hnested in
theorem enumerationItem {s s' : EnumerationState} {t : Token} {c : Cursor}
    {r : Except Failure Cursor} (hs : I s.outcome c)
    (hstep : c.enumerationItem markerPrefix nested s t = some (s', r)) :
    Steps I s'.outcome c r := by
  simp only [Cursor.enumerationItem] at hstep
  split at hstep
  · cases hstep
    exact .ok (hI hs (Cursor.leads_advance c))
  · cases hstep
    exact .ok (hI hs (Cursor.leads_advance c))
  · cases hstep
    exact .ok (hI hs (Cursor.leads_skipAttribute c))
  · split at hstep
    · cases hstep
      exact .ok (hI hs (Cursor.leads_skipModifier c))
    · exact hI.enumerationMember hnested hs hstep
  · cases hstep
    exact .error ⟨rfl, hs⟩

include hI hnested in
theorem enumerationBodyFrom {fuel : Nat} {s : EnumerationState} {c : Cursor} {o : Outcome}
    {r : Except Failure Enumeration} (hs : I s.outcome c)
    (hread : Cursor.enumerationBodyFrom markerPrefix nested fuel s c = some (o, r)) :
    Finishes I o r := by
  induction fuel generalizing s c with
  | zero =>
      cases hread
      exact ⟨⟨c, hs⟩, .ok trivial⟩
  | succ fuel ih =>
      simp only [Cursor.enumerationBodyFrom] at hread
      split at hread
      · cases hread
        exact ⟨⟨c, hs⟩, .ok trivial⟩
      · split at hread
        · next hstep => exact ih ((hI.enumerationItem hnested hs hstep).1 _ rfl) hread
        · next hstep =>
            cases hread
            obtain ⟨hf, hs'⟩ := (hI.enumerationItem hnested hs hstep).2 _ rfl
            exact ⟨⟨c, hs'⟩, .error hf⟩
        · cases hread

/-! ### Bodies and units -/

theorem Finishes.map {α β : Type} {o : Outcome} {r : Except Failure α} (h : Finishes I o r)
    (f : α → β) : Finishes I o (r.map f) := by
  refine ⟨h.1, ?_⟩
  cases r with
  | ok a => exact .ok trivial
  | error e => exact .error (h.2.2 e rfl)

include hI hnested in
/-- **Bodies keep what declarations keep**, and fail for inner reasons. -/
theorem exists_of_body {form : Form} {conformances : List String} {c : Cursor} {o : Outcome}
    {r : Except Failure Shape} (hc : I {} c)
    (hread : Cursor.body source markerPrefix room nested form conformances c = some (o, r)) :
    Finishes I o r := by
  cases form with
  | contract =>
      obtain ⟨⟨o', r'⟩, hbody, heq⟩ := Option.map_eq_some_iff.1 hread
      cases heq
      refine Finishes.map ?_ _
      have hcontract := Cursor.meets_contractBodyFrom source room (c.rest.length + 1) {} c
      simp only [Cursor.contractBody] at hbody
      split at hbody
      · cases hbody
        exact ⟨⟨c, hc⟩, .ok trivial⟩
      · next f hr =>
          cases hbody
          exact ⟨⟨c, hc⟩, .error (hcontract.2 _ hr f rfl)⟩
      · cases hbody
  | value form =>
      obtain ⟨⟨o', r'⟩, hbody, heq⟩ := Option.map_eq_some_iff.1 hread
      cases heq
      exact (hI.valueBodyFrom hnested hc hbody).map _
  | enumeration =>
      obtain ⟨⟨o', r'⟩, hbody, heq⟩ := Option.map_eq_some_iff.1 hread
      cases heq
      exact (hI.enumerationBodyFrom hnested hc hbody).map _

include hI hnested in
theorem item {markers markers' : List String} {t : Token} {o o' : Outcome} {c c' : Cursor}
    (hc : I o c) (hread : c.item nested markerPrefix markers t = some (markers', o', c')) :
    I (o ++ o') c' := by
  simp only [Cursor.item] at hread
  split at hread
  · cases hread
    exact o.append_empty.symm ▸ hI hc (Cursor.leads_advance c)
  · cases hread
    exact o.append_empty.symm ▸ hI hc (Cursor.leads_skipAttribute c)
  · split at hread
    · cases hread
      exact o.append_empty.symm ▸ hI hc (Cursor.leads_skipModifier c)
    split at hread
    · obtain ⟨⟨o₁, c₁⟩, hdeclaration, heq⟩ := Option.map_eq_some_iff.1 hread
      cases heq
      exact hnested hc hdeclaration
    · cases hread
      exact o.append_empty.symm ▸ hI hc (Cursor.leads_skipStatement c)
  · cases hread
    exact o.append_empty.symm ▸ hI hc (Cursor.leads_skipStatement c)

include hI hnested in
/-- **The items of a unit keep what declarations keep.** -/
theorem exists_of_itemsFrom {fuel : Nat} {markers : List String} {o o' : Outcome} {c : Cursor}
    (hc : I o c) (hread : Cursor.itemsFrom nested markerPrefix fuel markers c = some o') :
    ∃ c', I (o ++ o') c' := by
  induction fuel generalizing markers o o' c with
  | zero =>
      cases hread
      exact ⟨c, o.append_empty.symm ▸ hc⟩
  | succ fuel ih =>
      simp only [Cursor.itemsFrom] at hread
      split at hread
      · cases hread
        exact ⟨c, o.append_empty.symm ▸ hc⟩
      · split at hread
        · cases hread
        · next markers' o₁ c₁ hitem =>
            split at hread
            · cases hread
            · next rest hrest =>
                cases hread
                obtain ⟨c', hc'⟩ := ih (hI.item hnested hc hitem) hrest
                exact ⟨c', Outcome.append_assoc o o₁ rest ▸ hc'⟩

end IsInvariant

/-! ### Declarations -/

namespace Cursor

section Declaration

variable (unit : String) (source : List Char) (markerPrefix : String) (room : Nat)
  (parent : Option String) (form : Form) (markers : List String) (c : Cursor)

/-- What the declaration at a place may yield, and the place behind it. -/
inductive DeclarationCase : Outcome → Cursor → Prop
  /-- It has no name. -/
  | nameless {f : Failure} : c.advance.expectName form.keyword = .error f →
      DeclarationCase (Outcome.nameless (parent.getD unit) f) c.advance.skipStatement
  /-- It is rejected, whatever its body holds. -/
  | rejected {name : String} {f : Failure} {c' : Cursor} : f.IsInner → c.Leads c' →
      DeclarationCase (Outcome.reject (qualified parent name) parent markers f) c'
  /-- Its body is read with one level less. -/
  | braced {conformances : List String} {opener close : Token} {inside after : List Token}
      (name : String) (inner : Nat) (o : Outcome) (r : Except Failure Shape) : room = inner + 1 →
      inside ++ close :: after <:+ c.advance.rest →
      body source markerPrefix inner
          (declaration unit source markerPrefix inner (some (qualified parent name))) form
          conformances ⟨some opener, inside⟩ = some (o, r) →
      DeclarationCase
        (declared (fun shape => Entry.mk
            { name := qualified parent name, parent, unit, line := c.line, shape } markers)
          (Outcome.reject (qualified parent name) parent markers) o r)
        ⟨some close, after⟩

variable {unit source markerPrefix room parent form markers c}

/-- **A declaration has no name, or it is rejected, or its body is read.** -/
theorem declaration_cases {o : Outcome} {c' : Cursor}
    (h : declaration unit source markerPrefix room parent form markers c = some (o, c')) :
    DeclarationCase unit source markerPrefix room parent form markers c o c' := by
  rw [declaration] at h
  split at h
  · next hname =>
      cases h
      exact .nameless hname
  next name behind hname =>
  simp only at h
  split at h
  · cases h
  next headed behind' hheader =>
  obtain ⟨-, rfl⟩ := word?_of_expectName hname
  have hhead : c.advance.Leads behind' := (leads_advance _).trans (leads_header hheader)
  cases headed with
  | error f =>
      -- what follows the head only tells where the rejected declaration ends
      have hf := isInner_of_header hheader
      have hresume : c.Leads behind'.skipHeaderRest :=
        (leads_advance c).trans (hhead.trans (leads_skipHeaderRest behind'))
      have hopening := hresume.trans (leads_skipComments _)
      simp only at h
      split at h
      · cases h
        exact .rejected hf hresume
      next t ts hopen =>
      split at h
      · cases h
        exact .rejected hf hresume
      cases hsplit : Group.split { bracket := .curly } ts with
      | none =>
          simp only [hsplit] at h
          cases h
          exact .rejected hf (hopening.trans (leads_toEnd _))
      | some parts =>
          obtain ⟨inside, close, after⟩ := parts
          simp only [hsplit] at h
          cases h
          exact .rejected hf (hopening.trans (leads_close hopen hsplit))
  | ok conformances =>
      have hbehind : c.Leads behind' := (leads_advance c).trans hhead
      have hopening := hbehind.trans (leads_skipComments behind')
      simp only at h
      split at h
      · cases h
        exact .rejected rfl hbehind
      next t ts hopen =>
      split at h
      · cases h
        exact .rejected rfl hbehind
      cases hsplit : Group.split { bracket := .curly } ts with
      | none =>
          simp only [hsplit] at h
          cases h
          exact .rejected rfl (hopening.trans (leads_toEnd _))
      | some parts =>
          obtain ⟨inside, close, after⟩ := parts
          simp only [hsplit] at h
          cases room with
          | zero =>
              cases h
              exact .rejected rfl (hopening.trans (leads_close hopen hsplit))
          | succ inner =>
              simp only at h
              split at h
              · cases h
              next outcome result hbody =>
              cases h
              refine .braced name inner outcome result rfl ?_ hbody
              have hrest := (hhead.trans (leads_skipComments behind')).rest
              rw [hopen, ← Group.split_append hsplit] at hrest
              exact (List.suffix_cons t _).trans hrest

end Declaration

end Cursor

end Scaffold
