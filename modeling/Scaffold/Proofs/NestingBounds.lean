/-
**How deeply things are nested.**

Readers of types and declarations count the levels below them and refuse what lies too deep.  Every
constructor of a type takes a level but one: the marks that make a type optional are read in a row,
without counting.  So apart from optional types, what is read is nested no deeper than the bound, a
declaration and the types of its members together; with optional types there is no bound.

Main definitions:

* `Scaffold.TypeRef.height` — how deeply constructors are nested in a type, where an optional type
  may count for nothing;
* `Scaffold.Shape.types` — the types of the members of a declaration;
* `Scaffold.TypeRef.Fits` — a type is no higher than the room of a body;
* `Scaffold.Nested` — declarations inside each other with a number of levels;
* `Scaffold.Declaration.enclosing` — a declaration and those around it.

Main results:

* `Scaffold.Derives.isWithin` — a type is no higher than its derivation in the grammar, apart from
  optional types;
* `Scaffold.Cursor.fits_body` — the types of members fit into the room of a body;
* `Scaffold.Nested.exists_enclosing` — nested declarations keep to the number of levels;
* `Scaffold.Source.nesting_read` — **what is read is nested no deeper than the bound, apart from
  optional types**;
* `Scaffold.TypeRef.nesting_unbounded` — optional types are nested deeper.
-/

import Mathlib.Logic.Function.Iterate
import Scaffold.Proofs.OutcomeForm
import Scaffold.Proofs.TypeGrammar
import Scaffold.Proofs.TypeRoundTrip

set_option relaxedAutoImplicit false
set_option autoImplicit false

namespace Scaffold

/-! ### Types -/

namespace TypeRef

mutual

/-- How deeply constructors are nested in a type, when an optional type counts for `mark`. -/
def height (mark : Nat) : TypeRef → Nat
  | .primitive _ => 1
  | .named _ args => heightAll mark args + 1
  | .sequence element => height mark element + 1
  | .mapping key value => max (height mark key) (height mark value) + 1
  | .optional wrapped => height mark wrapped + mark
  | .function _ params _ result => max (heightAll mark params) (height mark result) + 1
  | .existential constraint => height mark constraint + 1

/-- How deeply constructors are nested in the types of a list. -/
def heightAll (mark : Nat) : List TypeRef → Nat
  | [] => 0
  | t :: ts => max (height mark t) (heightAll mark ts)

end

theorem heightAll_le_iff {mark : Nat} {ts : List TypeRef} {n : Nat} :
    heightAll mark ts ≤ n ↔ ∀ t ∈ ts, t.height mark ≤ n := by
  induction ts with
  | nil => simp [heightAll]
  | cons t ts ih => rw [heightAll, Nat.max_le, ih, List.forall_mem_cons]

theorem height_optionals (mark n : Nat) (t : TypeRef) :
    (TypeRef.optional^[n] t).height mark = t.height mark + n * mark := by
  induction n with
  | zero => simp
  | succ n ih => rw [Function.iterate_succ_apply', height, ih, Nat.succ_mul, Nat.add_assoc]

theorem height_withAttributes (mark : Nat) (t : TypeRef) (attributes : List String) :
    (t.withAttributes attributes).height mark = t.height mark := by
  cases t <;> cases attributes <;> rfl

/-- A name with arguments is a level higher than these, or as high as the type it makes optional. -/
theorem height_ofApplication_le {name : String} {args : List TypeRef} {n : Nat}
    (h : ∀ t ∈ args, t.height 0 ≤ n) : (ofApplication name args).height 0 ≤ n + 1 := by
  have hargs : heightAll 0 args ≤ n := heightAll_le_iff.2 h
  simp only [ofApplication]
  split
  · simp only [height, heightAll] at hargs ⊢
    omega
  · simp only [height, heightAll] at hargs ⊢
    omega
  · simp only [height, heightAll] at hargs ⊢
    omega
  · split <;> simp only [height, heightAll] <;> omega
  · simp only [height]
    omega

end TypeRef

/-- What a part of the grammar stands for is no higher than a bound, apart from optional types. -/
def Phrase.IsWithin (n : Nat) : (part : Phrase) → part.Meaning → Prop
  | .type, t => t.height 0 ≤ n
  | .core, t => t.height 0 ≤ n
  | .element, t => t.height 0 ≤ n
  | .list item, xs => ∀ x ∈ xs, item.IsWithin n x

/-- **What is derived is no higher than its derivation**, apart from optional types. -/
theorem Derives.isWithin {n : Nat} {part : Phrase} {ts : List Token} {x : part.Meaning}
    (h : Derives n part ts x) : part.IsWithin n x := by
  induction h with
  | type _ _ _ _ ih =>
      simpa [Phrase.IsWithin, TypeRef.height_optionals, TypeRef.height_withAttributes] using ih
  | sequence _ _ _ ih => exact Nat.succ_le_succ ih
  | mapping _ _ _ _ _ ihkey ihvalue => exact Nat.succ_le_succ (Nat.max_le.2 ⟨ihkey, ihvalue⟩)
  | action _ _ _ _ _ ih => exact Nat.succ_le_succ (Nat.max_le.2 ⟨Nat.zero_le _, ih⟩)
  | function _ _ _ _ _ _ ihparams ihresult =>
      exact Nat.succ_le_succ (Nat.max_le.2 ⟨TypeRef.heightAll_le_iff.2 ihparams, ihresult⟩)
  | unit => exact Nat.succ_le_succ (Nat.zero_le _)
  | group _ _ _ ih => exact Nat.le_succ_of_le ih
  | existential _ _ ih => exact Nat.succ_le_succ ih
  | name _ _ _ _ => exact TypeRef.height_ofApplication_le (by simp)
  | application _ _ _ _ _ _ _ ih => exact TypeRef.height_ofApplication_le ih
  | element _ _ _ ih => exact ih
  | inout _ _ _ ih => exact ih
  | last _ ih =>
      intro y hy
      obtain rfl := List.mem_singleton.1 hy
      exact ih
  | more _ _ _ ihfirst ihothers =>
      intro y hy
      rcases List.mem_cons.1 hy with rfl | hy
      · exact ihfirst
      · exact ihothers y hy

/-! ### Members -/

/-- The types of parameters. -/
def parameterTypes (params : List Parameter) : List TypeRef := params.map Parameter.type

/-- The types in a method signature. -/
def Method.types (m : Method) : List TypeRef := m.result :: parameterTypes m.params

/-- The types in an initializer signature. -/
def Initializer.types (i : Initializer) : List TypeRef := parameterTypes i.params

/-- The types of the members of a protocol. -/
def Contract.types (c : Contract) : List TypeRef :=
  c.methods.flatMap Method.types ++ c.initializers.flatMap Initializer.types

/-- The types of the members of a struct, class or actor. -/
def ValueType.types (v : ValueType) : List TypeRef :=
  v.fields.map Field.type ++
    (v.methods.flatMap Method.types ++ v.initializers.flatMap Initializer.types)

/-- The types of the members of a declaration; the values of cases are not kept. -/
def Shape.types : Shape → List TypeRef
  | .contract c => c.types
  | .value v => v.types
  | .enumeration _ => []

/-- A type is no higher than the room that a body has, apart from optional types; a result that is
not written is a level of its own. -/
def TypeRef.Fits (room : Nat) (t : TypeRef) : Prop := t.height 0 ≤ max 1 room

/-- All types of a list fit. -/
def FitAll (room : Nat) (ts : List TypeRef) : Prop := ∀ t ∈ ts, t.Fits room

theorem fitAll_nil (room : Nat) : FitAll room [] := by
  intro t ht
  cases ht

theorem fitAll_append {room : Nat} {ts us : List TypeRef} :
    FitAll room (ts ++ us) ↔ FitAll room ts ∧ FitAll room us := List.forall_mem_append

theorem fitAll_cons {room : Nat} {t : TypeRef} {ts : List TypeRef} :
    FitAll room (t :: ts) ↔ t.Fits room ∧ FitAll room ts := List.forall_mem_cons

/-- What holds of the value of a result, if it has one. -/
abbrev Ensures {ε α : Type} (V : α → Prop) (r : Except ε α) : Prop := Meets (fun _ => True) V r

namespace Cursor

section

variable {ε α : Type} {V : α → Prop}

theorem ensures_true (r : Except ε α) : Ensures (fun _ => True) r :=
  ⟨fun _ _ => trivial, fun _ _ => trivial⟩

theorem ensures_liftM {r : Except Failure α} (h : Ensures V r) :
    Ensures V (liftM r : Except Halt α) := by
  cases r with
  | ok a => exact .ok (h.1 a rfl)
  | error f => exact .error trivial

theorem ensures_inMember {r : Except Halt α} (member : String) (h : Ensures V r) :
    Ensures V (inMember member r) := by
  cases r with
  | ok a => exact .ok (h.1 a rfl)
  | error stop => exact .error trivial

/-- What holds of each item holds of all items between commas. -/
theorem ensures_separated {lift : Failure → ε} {item : Nat → Cursor → Except ε (α × Cursor)}
    (hitem : ∀ index c, Ensures (fun x => V x.1) (item index c)) (close : Char)
    (fuel index : Nat) (c : Cursor) :
    Ensures (fun x => ∀ y ∈ x.1, V y) (separated lift item close fuel index c) := by
  induction fuel generalizing index c with
  | zero => exact .error trivial
  | succ fuel ih =>
      simp only [separated]
      split
      · exact .error trivial
      · next x c₁ hfirst =>
          have hx : V x := (hitem index c).1 _ hfirst
          split
          · next c₂ _ =>
              split
              · exact .error trivial
              · next xs c₃ hothers =>
                  exact .ok (List.forall_mem_cons.2 ⟨hx, (ih (index + 1) c₂).1 _ hothers⟩)
          · split
            · exact .error trivial
            · exact .ok (List.forall_mem_singleton.2 hx)

end

/-- A type that is read fits into the room. -/
theorem fits_type (room : Nat) (c : Cursor) :
    Ensures (fun x => x.1.Fits room) (Cursor.type room c) := by
  refine ⟨?_, fun _ _ => trivial⟩
  rintro ⟨t, c'⟩ hread
  obtain ⟨ts, hts, -⟩ := isSound_type room hread
  exact Nat.le_trans hts.isWithin (Nat.le_max_right 1 room)

variable (source : List Char) (room : Nat)

theorem fits_parameter (index : Nat) (c : Cursor) :
    Ensures (fun x => x.1.type.Fits room) (parameter source room index c) := by
  refine (ensures_true _).bind ?_
  rintro ⟨⟨label, name⟩, c₁⟩ -
  refine (ensures_true _).bind ?_
  rintro c₂ -
  refine (ensures_liftM (fits_type room _)).bind ?_
  rintro ⟨type, c₃⟩ htype
  simp only
  split
  · exact .error trivial
  · refine (ensures_true _).bind ?_
    rintro ⟨default, c₄⟩ -
    exact .ok htype

theorem fits_parameters (c : Cursor) :
    Ensures (fun x => FitAll room (parameterTypes x.1)) (parameters source room c) := by
  refine (ensures_true _).bind ?_
  rintro c₁ -
  split
  · exact .ok (fitAll_nil room)
  · have hall : Ensures (fun x => ∀ p ∈ x.1, p.type.Fits room)
        (separated Halt.failure (parameter source room) ')' (c₁.rest.length + 1) 0 c₁) :=
      ensures_separated (fits_parameter source room) _ _ _ _
    exact ⟨fun x hx => List.forall_mem_map.2 (hall.1 x hx), fun _ _ => trivial⟩

theorem fits_result (c : Cursor) : Ensures (fun x => x.1.Fits room) (result room c) := by
  simp only [result]
  split
  · exact fits_type room _
  · exact .ok (Nat.le_max_left 1 room)

theorem fits_signature (name : String) (c : Cursor) :
    Ensures (fun x => FitAll room x.1.types) (signature source room name c) := by
  simp only [signature]
  split
  · exact .error trivial
  refine (fits_parameters source room c).bind ?_
  rintro ⟨params, c₁⟩ hparams
  refine (ensures_true _).bind ?_
  rintro ⟨effects, c₂⟩ -
  refine (ensures_liftM (fits_result room c₂)).bind ?_
  rintro ⟨result, c₃⟩ hresult
  simp only
  split
  · exact .error trivial
  · exact .ok (fitAll_cons.2 ⟨hresult, hparams⟩)

theorem fits_method (c : Cursor) :
    Ensures (fun x => FitAll room x.1.types) (method source room c) := by
  refine (ensures_true _).bind ?_
  rintro ⟨name, c₁⟩ -
  exact ensures_inMember _ (fits_signature source room name c₁)

theorem fits_initializer (c : Cursor) :
    Ensures (fun x => FitAll room x.1.types) (initializer source room c) := by
  refine ensures_inMember "init" ?_
  simp only
  split
  · exact .error trivial
  split
  · exact .error trivial
  refine (fits_parameters source room _).bind ?_
  rintro ⟨params, c₁⟩ hparams
  refine (ensures_true _).bind ?_
  rintro ⟨effects, c₂⟩ -
  exact .ok hparams

theorem fits_property (word : String) (c : Cursor) :
    Ensures (fun x => ∀ field ∈ x.1, field.type.Fits room) (property source room word c) := by
  refine (ensures_true _).bind ?_
  rintro ⟨name, c₁⟩ -
  refine ensures_inMember _ ?_
  simp only [propertyRest]
  split
  · exact .error trivial
  split
  · exact .error trivial
  next c₂ _ =>
  refine (ensures_liftM (fits_type room c₂)).bind ?_
  rintro ⟨type, c₃⟩ htype
  refine (ensures_true _).bind ?_
  rintro ⟨default, c₄⟩ -
  have hfield : ∀ {field : Field} {keep : Bool}, field.type = type →
      ∀ f ∈ (if keep then some field else none), f.type.Fits room := by
    rintro field (_ | _) rfl f hf
    · cases hf
    · cases hf
      exact htype
  simp only
  split
  · exact .ok (hfield rfl)
  · refine .ok fun f hf => ?_
    cases hf
    exact htype

/-! ### Bodies -/

theorem fits_contractItem {contract : Contract} (h : FitAll room contract.types) (t : Token)
    (c : Cursor) :
    Ensures (fun x => FitAll room x.1.types) (contractItem source room contract t c) := by
  simp only [contractItem]
  split
  · exact .ok h
  · exact .ok h
  · exact .ok h
  · split
    · exact .ok h
    simp only [Contract.types, fitAll_append] at h
    split
    · refine (fits_method source room c).bind ?_
      rintro ⟨m, c₁⟩ hm
      refine .ok ?_
      simp only [Contract.types, List.flatMap_append, List.flatMap_singleton, fitAll_append]
      exact ⟨⟨h.1, hm⟩, h.2⟩
    split
    · refine (fits_initializer source room c).bind ?_
      rintro ⟨i, c₁⟩ hi
      refine .ok ?_
      simp only [Contract.types, List.flatMap_append, List.flatMap_singleton, fitAll_append]
      exact ⟨h.1, h.2, hi⟩
    · exact .error trivial
  · exact .error trivial

theorem fits_contractBodyFrom (fuel : Nat) {contract : Contract} (h : FitAll room contract.types)
    (c : Cursor) :
    Ensures (fun x => FitAll room x.types) (contractBodyFrom source room fuel contract c) := by
  induction fuel generalizing contract c with
  | zero => exact .ok h
  | succ fuel ih =>
      simp only [contractBodyFrom]
      split
      · exact .ok h
      · next t _ =>
          split
          · next hitem => exact ih ((fits_contractItem source room h t c).1 _ hitem) _
          · exact .error trivial

variable {source : List Char} {room : Nat} {nested : NestedReader} {markerPrefix : String}

theorem fits_memberStep {α : Type} {s s' : ValueState} {c : Cursor}
    {read : Except Halt (α × Cursor)} {keep : ValueType → α → ValueType} {r : Except Failure Cursor}
    (h : FitAll room s.value.types)
    (hkeep : ∀ x c', read = .ok (x, c') → FitAll room (keep s.value x).types)
    (hstep : memberStep s c read keep = some (s', r)) : FitAll room s'.value.types := by
  simp only [memberStep] at hstep
  split at hstep
  · cases hstep
    exact hkeep _ _ rfl
  · cases hstep
    exact h
  · cases hstep

theorem fits_valueMember {s s' : ValueState} {word : String} {c : Cursor}
    {r : Except Failure Cursor} (h : FitAll room s.value.types)
    (hstep : c.valueMember source room nested s word = some (s', r)) :
    FitAll room s'.value.types := by
  have hvalue := h
  simp only [ValueType.types, fitAll_append] at hvalue
  simp only [valueMember] at hstep
  split at hstep
  · cases hstep
    exact h
  split at hstep
  · cases hstep
    exact h
  split at hstep
  · split at hstep
    · cases hstep
      exact h
    split at hstep
    · next field c₁ hread =>
        cases hstep
        have hfield := (fits_property source room word c).1 _ hread
        simp only [ValueState.afterMember, ValueType.types, List.map_append, fitAll_append]
        refine ⟨⟨hvalue.1, List.forall_mem_map.2 fun f hf => ?_⟩, hvalue.2⟩
        exact hfield f (Option.mem_toList.1 hf)
    · cases hstep
      exact h
    · cases hstep
  split at hstep
  · refine fits_memberStep h (fun m c' hread => ?_) hstep
    have hm := (fits_method source room c).1 _ hread
    simp only [ValueType.types, List.flatMap_append, List.flatMap_singleton, fitAll_append]
    exact ⟨hvalue.1, ⟨hvalue.2.1, hm⟩, hvalue.2.2⟩
  split at hstep
  · refine fits_memberStep h (fun i c' hread => ?_) hstep
    have hi := (fits_initializer source room c).1 _ hread
    simp only [ValueType.types, List.flatMap_append, List.flatMap_singleton, fitAll_append]
    exact ⟨hvalue.1, hvalue.2.1, hvalue.2.2, hi⟩
  split at hstep
  · split at hstep
    · cases hstep
      exact h
    · cases hstep
  · cases hstep
    exact h

theorem fits_valueItem {s s' : ValueState} {t : Token} {c : Cursor} {r : Except Failure Cursor}
    (h : FitAll room s.value.types)
    (hstep : c.valueItem source markerPrefix room nested s t = some (s', r)) :
    FitAll room s'.value.types := by
  simp only [valueItem] at hstep
  split at hstep
  · cases hstep
    exact h
  · cases hstep
    exact h
  · cases hstep
    exact h
  · cases hstep
    exact h
  · split at hstep
    · cases hstep
      exact h
    · exact fits_valueMember h hstep
  · cases hstep
    exact h

theorem fits_valueBodyFrom {fuel : Nat} {s : ValueState} {c : Cursor} {o : Outcome}
    {r : Except Failure ValueType} (h : FitAll room s.value.types)
    (hread : valueBodyFrom source markerPrefix room nested fuel s c = some (o, r)) :
    Ensures (fun v => FitAll room v.types) r := by
  induction fuel generalizing s c with
  | zero =>
      cases hread
      exact .ok h
  | succ fuel ih =>
      simp only [valueBodyFrom] at hread
      split at hread
      · cases hread
        exact .ok h
      · split at hread
        · next hstep => exact ih (fits_valueItem h hstep) hread
        · cases hread
          exact .error trivial
        · cases hread

/-- **The types of the members in a body fit into its room.** -/
theorem fits_body {form : Form} {conformances : List String} {c : Cursor} {o : Outcome}
    {shape : Shape}
    (hread : body source markerPrefix room nested form conformances c = some (o, .ok shape)) :
    FitAll room shape.types := by
  cases form with
  | contract =>
      obtain ⟨⟨o', r⟩, hbody, heq⟩ := Option.map_eq_some_iff.1 hread
      simp only [contractBody] at hbody
      split at hbody
      · next contract hcontract =>
          cases hbody
          cases heq
          have hempty : FitAll room (Contract.types {}) := fitAll_nil room
          have hfits : FitAll room contract.types :=
            (fits_contractBodyFrom source room _ hempty c).1 _ hcontract
          exact hfits
      · cases hbody
        cases heq
      · cases hbody
  | value form =>
      obtain ⟨⟨o', r⟩, hbody, heq⟩ := Option.map_eq_some_iff.1 hread
      cases r with
      | ok value =>
          cases heq
          have hvalue : FitAll room value.types :=
            (fits_valueBodyFrom (fitAll_nil room) hbody).1 _ rfl
          exact hvalue
      | error f => cases heq
  | enumeration =>
      obtain ⟨⟨o', r⟩, -, heq⟩ := Option.map_eq_some_iff.1 hread
      cases r with
      | ok e =>
          cases heq
          exact fitAll_nil room
      | error f => cases heq

end Cursor

/-! ### Declarations -/

/-- Declarations inside a given one, if any, with a number of levels left for them and what is
nested inside them; the types of their members fit into the levels below. -/
inductive Nested : (room : Nat) → Option String → List Declaration → Prop
  /-- There are none. -/
  | nil {room : Nat} {parent : Option String} : Nested room parent []
  /-- The first, those nested inside it, and the others. -/
  | cons {room : Nat} {parent : Option String} {d : Declaration} {inner rest : List Declaration}
      {name : String} :
      d.parent = parent → d.name = Cursor.qualified parent name → FitAll room d.shape.types →
      Nested room (some d.name) inner → Nested (room + 1) parent rest →
      Nested (room + 1) parent (d :: (inner ++ rest))

namespace Nested

variable {room : Nat} {parent : Option String} {ds es : List Declaration}

theorem append (h : Nested room parent ds) (h' : Nested room parent es) :
    Nested room parent (ds ++ es) := by
  induction h with
  | nil => exact h'
  | cons hparent hname hfit hinner _ _ ih =>
      rw [List.cons_append, List.append_assoc]
      exact .cons hparent hname hfit hinner (ih h')

theorem forest (h : Nested room parent ds) : Forest parent ds := by
  induction h with
  | nil => exact .nil
  | cons hparent hname _ _ _ ihinner ihrest => exact .cons hparent hname ihinner ihrest

end Nested

/-- A reader of declarations yields such as are nested. -/
def Nests (room : Nat) (parent : Option String) (nested : NestedReader) : Prop :=
  nested.Yields fun o => Nested room parent (o.entries.map Entry.declaration)

theorem Nests.keeps {room : Nat} {parent : Option String} {nested : NestedReader}
    (h : Nests room parent nested) :
    nested.Keeps fun o _ => Nested room parent (o.entries.map Entry.declaration) := by
  intro form markers o o' c c' ho hread
  rw [Outcome.entries_append, List.map_append]
  exact ho.append (h form markers c o' c' hread)

/-- **A declaration yields what is nested no deeper than its room.** -/
theorem nests_declaration (unit : String) (source : List Char) (markerPrefix : String) (room : Nat)
    (parent : Option String) :
    Nests room parent (Cursor.declaration unit source markerPrefix room parent) := by
  induction room using Nat.strongRecOn generalizing parent with
  | _ room ih =>
      intro form markers c o c' hread
      cases Cursor.declaration_cases hread with
      | nameless _ => exact .nil
      | rejected _ _ => exact .nil
      | braced name inner outcome r hroom _ hbody =>
          subst hroom
          cases r with
          | error f => exact .nil
          | ok shape =>
              have hinvariant : IsInvariant fun o _ =>
                  Nested inner (some (Cursor.qualified parent name))
                    (o.entries.map Entry.declaration) := fun _ _ _ ho _ => ho
              obtain ⟨⟨-, hnested⟩, -⟩ := hinvariant.exists_of_body
                (ih inner (Nat.lt_succ_self inner) _).keeps .nil hbody
              have hone : Nested (inner + 1) parent
                  ({ name := Cursor.qualified parent name, parent, unit, line := c.line, shape } ::
                    (outcome.entries.map Entry.declaration ++ [])) :=
                .cons rfl rfl (Cursor.fits_body hbody) hnested .nil
              rwa [List.append_nil] at hone

namespace Declaration

/-- A declaration and those around it, from the inside, given those before it in reverse: the one
around a declaration is the last before it that has the name of its parent. -/
def enclosing : (before : List Declaration) → Declaration → List Declaration
  | [], d => [d]
  | e :: before, d =>
    if d.parent = some e.name then d :: enclosing before e else enclosing before d

theorem enclosing_of_forall_ne {before : List Declaration} {d : Declaration}
    (h : ∀ e ∈ before, d.parent ≠ some e.name) : d.enclosing before = [d] := by
  induction before with
  | nil => rfl
  | cons e before ih =>
      rw [enclosing, if_neg (h e List.mem_cons_self)]
      exact ih fun e' he' => h e' (List.mem_cons_of_mem e he')

theorem enclosing_ne_nil (before : List Declaration) (d : Declaration) :
    d.enclosing before ≠ [] := by
  induction before generalizing d with
  | nil => exact List.cons_ne_nil _ _
  | cons e before ih =>
      rw [enclosing]
      split
      · exact List.cons_ne_nil _ _
      · exact ih d

/-- The declarations around the outermost one are found further in front. -/
theorem enclosing_append {before : List Declaration} (front : List Declaration)
    {d top : Declaration} {inside : List Declaration} (h : d.enclosing before = inside ++ [top]) :
    d.enclosing (before ++ front) = inside ++ top.enclosing front := by
  induction before generalizing d inside with
  | nil =>
      obtain ⟨rfl, rfl⟩ : inside = [] ∧ d = top := by
        cases inside with
        | nil => exact ⟨rfl, (List.cons.inj h).1⟩
        | cons x xs =>
            have hlength := congrArg List.length h
            simp [enclosing] at hlength
      rfl
  | cons e before ih =>
      rw [enclosing] at h
      rw [List.cons_append, enclosing]
      split
      · next hparent =>
          rw [if_pos hparent] at h
          cases inside with
          | nil => exact absurd (List.cons.inj h).2 (enclosing_ne_nil _ _)
          | cons x xs =>
              obtain ⟨rfl, htail⟩ := List.cons.inj h
              rw [ih htail, List.cons_append]
      · next hparent =>
          rw [if_neg hparent] at h
          exact ih h

end Declaration

/-- A name that begins with that of a declaration is not the name of what is around it. -/
theorem parent_ne_qualified_append (parent : Option String) (name more : String) :
    parent ≠ some (Cursor.qualified parent name ++ more) := by
  cases parent with
  | none => exact nofun
  | some p =>
      intro h
      have hlength := congrArg String.length (Option.some.inj h)
      simp only [Cursor.qualified, String.length_append] at hlength
      have hdot : ".".length = 1 := rfl
      omega

/-- **The declarations around one that is nested reach to the outermost level**, and together with
the types of its members they keep to the number of levels. -/
theorem Nested.exists_enclosing {room : Nat} {parent : Option String} {ds : List Declaration}
    (h : Nested room parent ds) {before after : List Declaration} {d : Declaration}
    (hsplit : ds = before ++ d :: after) :
    ∃ inside top, d.enclosing before.reverse = inside ++ [top] ∧ top.parent = parent ∧
      inside.length < room ∧ FitAll (room - (inside.length + 1)) d.shape.types := by
  induction h generalizing before after with
  | nil => simp at hsplit
  | @cons room parent root inner rest name hparent hname hfit hinner _ ihinner ihrest =>
      rcases List.cons_eq_append_iff.1 hsplit with ⟨rfl, heq⟩ | ⟨before, rfl, heq⟩
      · cases heq
        exact ⟨[], d, rfl, hparent, Nat.succ_pos room, hfit⟩
      -- what stands behind the first and what is nested inside it is not nested in these
      have hbehind : ∀ more, before = inner ++ more → rest = more ++ d :: after →
          ∃ inside top, d.enclosing (root :: before).reverse = inside ++ [top] ∧
            top.parent = parent ∧ inside.length < room + 1 ∧
            FitAll (room + 1 - (inside.length + 1)) d.shape.types := by
        rintro more rfl hrest
        obtain ⟨inside, top, henclosing, htop, hlength, hfits⟩ := ihrest hrest
        have hroot : ∀ e ∈ inner.reverse ++ [root], top.parent ≠ some e.name := by
          intro e he
          rw [htop]
          rcases List.mem_append.1 he with he | he
          · obtain ⟨n, hn⟩ := hinner.forest.exists_name_eq e (List.mem_reverse.1 he)
            rw [hn, hname, String.append_assoc]
            exact parent_ne_qualified_append parent name _
          · rw [List.mem_singleton.1 he, hname]
            have hne := parent_ne_qualified_append parent name ""
            rwa [String.append_empty] at hne
        refine ⟨inside, top, ?_, htop, hlength, hfits⟩
        rw [List.reverse_cons, List.reverse_append, List.append_assoc,
          Declaration.enclosing_append _ henclosing, Declaration.enclosing_of_forall_ne hroot]
      rcases List.append_eq_append_iff.1 heq with ⟨more, hbefore, hrest⟩ | ⟨more, hinner', hrest⟩
      · exact hbehind more hbefore hrest
      cases more with
      | nil => exact hbehind [] (by simpa using hinner'.symm) hrest.symm
      | cons e more =>
          obtain ⟨rfl, -⟩ := List.cons.inj hrest
          obtain ⟨inside, top, henclosing, htop, hlength, hfits⟩ := ihinner hinner'
          refine ⟨inside ++ [top], root, ?_, hparent, ?_, ?_⟩
          · rw [List.reverse_cons, Declaration.enclosing_append _ henclosing,
              Declaration.enclosing, if_pos htop, List.append_assoc]
            rfl
          · rw [List.length_append]
            exact Nat.succ_lt_succ hlength
          · rw [List.length_append, List.length_singleton, Nat.add_sub_add_right]
            exact hfits

/-! ### Units -/

/-- The declarations that a unit yields are nested no deeper than the bound. -/
theorem Source.nested_read (markerPrefix : String) (s : Source) :
    Nested maxNesting none ((s.read markerPrefix).entries.map Entry.declaration) := by
  rw [Source.read]
  cases hread : s.read? markerPrefix with
  | none => exact .nil
  | some o =>
      simp only [Source.read?] at hread
      split at hread
      · cases hread
        exact .nil
      · have hinvariant : IsInvariant fun o _ =>
            Nested maxNesting none (o.entries.map Entry.declaration) := fun _ _ _ ho _ => ho
        have hempty : Nested maxNesting none (({} : Outcome).entries.map Entry.declaration) := .nil
        obtain ⟨-, hnested⟩ := hinvariant.exists_of_itemsFrom
          (nests_declaration _ _ _ _ _).keeps hempty hread
        exact hnested

/-- A type that a whole text spells keeps to the bound, apart from optional types. -/
theorem TypeRef.height_le_of_parse {text : String} {t : TypeRef} (h : TypeRef.parse text = .ok t) :
    t.height 0 ≤ maxNesting := by
  simp only [TypeRef.parse] at h
  split at h
  · cases h
  split at h
  · cases h
  · next u c hread =>
      split at h
      · cases h
        obtain ⟨ts, hts, -⟩ := Cursor.isSound_type maxNesting hread
        exact hts.isWithin
      · cases h

/-- **Nesting is bounded, apart from optional types.**  A declaration that is read stands inside so
many others, none of them missing, that there are no more than the bound with itself; the types of
its members are nested no deeper than what is then left, or are not nested at all.  A type that a
whole text spells is nested no deeper than the bound. -/
theorem Source.nesting_read (markerPrefix : String) (s : Source) :
    (∀ before e after, (s.read markerPrefix).entries = before ++ e :: after →
      let chain := e.declaration.enclosing (before.map Entry.declaration).reverse
      chain.length ≤ maxNesting ∧ (∀ top ∈ chain.getLast?, top.parent = none) ∧
        ∀ t ∈ e.declaration.shape.types, t.height 0 ≤ max 1 (maxNesting - chain.length)) ∧
      ∀ text t, TypeRef.parse text = .ok t → t.height 0 ≤ maxNesting := by
  refine ⟨?_, fun text t ht => TypeRef.height_le_of_parse ht⟩
  intro before e after hsplit chain
  have hdeclarations : (s.read markerPrefix).entries.map Entry.declaration =
      before.map Entry.declaration ++ e.declaration :: after.map Entry.declaration := by
    rw [hsplit, List.map_append, List.map_cons]
  obtain ⟨inside, top, hchain, htop, hlength, hfits⟩ :=
    (s.nested_read markerPrefix).exists_enclosing hdeclarations
  have hcount : chain.length = inside.length + 1 := by
    simp only [chain, hchain, List.length_append, List.length_singleton]
  refine ⟨by omega, ?_, ?_⟩
  · intro last hlast
    simp only [chain, hchain, List.getLast?_concat] at hlast
    cases hlast
    exact htop
  · rw [hcount]
    exact hfits

/-! ### Optional types -/

namespace TypeRef

theorem nesting_optionals (n : Nat) : (TypeRef.optional^[n] (.primitive "Int")).nesting = 1 := by
  induction n with
  | zero => rfl
  | succ n ih =>
      have hparens : (TypeRef.optional^[n] (.primitive "Int")).needsParens = false := by
        cases n with
        | zero => rfl
        | succ n =>
            rw [Function.iterate_succ_apply']
            rfl
      rw [Function.iterate_succ_apply', nesting, if_neg (by rw [hparens]; exact Bool.false_ne_true),
        ih]

theorem isWellFormed_optionals (n : Nat) :
    (TypeRef.optional^[n] (.primitive "Int")).isWellFormed = true := by
  induction n with
  | zero => decide
  | succ n ih => rw [Function.iterate_succ_apply', isWellFormed, ih]

/-- However many question marks stand behind a type, it is read back. -/
theorem parse_optionals (n : Nat) :
    TypeRef.parse (TypeRef.optional^[n] (.primitive "Int")).render =
      .ok (TypeRef.optional^[n] (.primitive "Int")) := by
  have hformed := isWellFormed_optionals n
  have htokens := tokenize_spelled (toList_render _)
    ((isPhrase_pieces hformed).spelled none endsName_none)
  have hnesting : (TypeRef.optional^[n] (.primitive "Int")).nesting ≤ maxNesting := by
    rw [nesting_optionals]
    decide
  obtain ⟨last, hread⟩ := (readBack hformed maxNesting hnesting).takes _ none [] (spells_lay 0 1 _)
    (endsWith_nil _)
  rw [List.append_nil] at hread
  simp only [TypeRef.parse, htokens, Cursor.start, hread]
  rfl

/-- **Optional types are nested without a bound**, which that of other types is far from. -/
theorem nesting_unbounded (n : Nat) : ∃ text t, TypeRef.parse text = .ok t ∧ n < t.height 1 := by
  refine ⟨_, _, parse_optionals n, ?_⟩
  rw [height_optionals]
  simp [height]

/-- **A type may be nested deeper than the bound.**  The type is `Int` with as many question marks
as the bound allows levels. -/
theorem height_not_le_of_parse :
    ¬ ∀ text t, TypeRef.parse text = .ok t → t.height 1 ≤ maxNesting := by
  intro h
  have hbound := h _ _ (parse_optionals 128)
  rw [height_optionals] at hbound
  exact absurd hbound (by decide)

end TypeRef

end Scaffold
