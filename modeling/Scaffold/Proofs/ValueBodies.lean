/-
**Reading back the bodies of value types.**

The body of a value type is read item by item.  Every item takes tokens, so that the bound on their
number never matters, and one item after the other leads from one state to the next.

Main definitions:

* `Scaffold.Reaches` — reading tokens of a body gets from one state to another;
* `Scaffold.blockPieces` — the row of a member with a body in braces.

Main results:

* `Scaffold.reaches_method`, `Scaffold.reaches_initializer`, `Scaffold.reaches_property`,
  `Scaffold.reaches_comment`, `Scaffold.reaches_nested` — one item;
* `Scaffold.reaches_flatMap` — **items one behind the other**;
* `Scaffold.valueBody_of_reaches` — what a whole body yields.
-/

import Scaffold.Proofs.ValueTexts

set_option relaxedAutoImplicit false
set_option autoImplicit false

namespace Scaffold

open Cursor (ValueState)

variable {source : List Char} {markerPrefix : String} {room : Nat} {nested : NestedReader}

/-- Reading the first tokens of a body gets from one state to another, as long as the bound on the
number of items exceeds that of the tokens. -/
def Reaches (source : List Char) (markerPrefix : String) (room : Nat) (nested : NestedReader)
    (s s' : ValueState) (ts rest : List Token) : Prop :=
  ∀ prev fuel, (ts ++ rest).length < fuel → ∃ last fuel', rest.length < fuel' ∧
    Cursor.valueBodyFrom source markerPrefix room nested fuel s ⟨prev, ts ++ rest⟩ =
      Cursor.valueBodyFrom source markerPrefix room nested fuel' s' ⟨last, rest⟩

theorem Reaches.refl (s : ValueState) (rest : List Token) :
    Reaches source markerPrefix room nested s s [] rest := by
  intro prev fuel hfuel
  exact ⟨prev, fuel, hfuel, rfl⟩

theorem Reaches.trans {s s' s'' : ValueState} {ts us rest : List Token}
    (h : Reaches source markerPrefix room nested s s' ts (us ++ rest))
    (h' : Reaches source markerPrefix room nested s' s'' us rest) :
    Reaches source markerPrefix room nested s s'' (ts ++ us) rest := by
  intro prev fuel hfuel
  rw [List.append_assoc] at hfuel ⊢
  obtain ⟨last, fuel', hfuel', hread⟩ := h prev fuel hfuel
  obtain ⟨last', fuel'', hfuel'', hread'⟩ := h' last fuel' hfuel'
  exact ⟨last', fuel'', hfuel'', hread.trans hread'⟩

/-- One item. -/
theorem reaches_of_item {s s' : ValueState} {t : Token} {ts rest : List Token}
    (h : ∀ prev, ∃ last, Cursor.valueItem source markerPrefix room nested s t
      ⟨prev, t :: (ts ++ rest)⟩ = some (s', .ok ⟨last, rest⟩)) :
    Reaches source markerPrefix room nested s s' (t :: ts) rest := by
  intro prev fuel hfuel
  obtain ⟨fuel, rfl⟩ : ∃ n, fuel = n + 1 := ⟨fuel - 1, by omega⟩
  obtain ⟨last, hitem⟩ := h prev
  refine ⟨last, fuel, ?_, ?_⟩
  · simp only [List.cons_append, List.length_cons, List.length_append] at hfuel
    omega
  · rw [List.cons_append, Cursor.valueBodyFrom]
    simp only [Cursor.next?, List.head?_cons, hitem]

/-- What a whole body yields. -/
theorem valueBody_of_reaches {form : ValueForm} {s' : ValueState} {ts : List Token}
    (h : Reaches source markerPrefix room nested { value := { form := form } } s' ts [])
    (prev : Option Token) :
    Cursor.valueBody source markerPrefix room nested form ⟨prev, ts⟩ =
      some (s'.outcome, .ok s'.value) := by
  obtain ⟨last, fuel', -, hread⟩ := h prev (ts.length + 1) (by simp)
  rw [List.append_nil] at hread
  rw [Cursor.valueBody, hread]
  cases fuel' <;> rfl

/-! ### Items -/

namespace Cursor.ValueState

/-- The state behind a method. -/
def addMethod (s : ValueState) (m : Method) : ValueState :=
  { s with value := { s.value with methods := s.value.methods ++ [m] } }.afterMember

/-- The state behind an initializer. -/
def addInitializer (s : ValueState) (i : Initializer) : ValueState :=
  { s with value := { s.value with initializers := s.value.initializers ++ [i] } }.afterMember

/-- The state behind a stored property. -/
def addField (s : ValueState) (f : Field) : ValueState :=
  { s with value := { s.value with fields := s.value.fields ++ [f] } }.afterMember

/-- The state behind a nested declaration. -/
def addOutcome (s : ValueState) (o : Outcome) : ValueState :=
  { s with outcome := s.outcome ++ o }.afterMember

end Cursor.ValueState

/-- A comment adds to the markers only. -/
theorem reaches_comment {s : ValueState} {t : Token} {text : String} (h : t.kind = .comment text)
    (rest : List Token) :
    Reaches source markerPrefix room nested s
      { s with markers := s.markers ++ markersIn markerPrefix text } [t] rest := by
  apply reaches_of_item
  intro prev
  exact ⟨some t, by simp [Cursor.valueItem, h, Cursor.advance]⟩

/-- The row of a member with a body in braces. -/
def blockPieces (signature body : List Piece) : List Piece :=
  signature ++ .space :: .mark '{' :: (body ++ [.mark '}'])

/-- A member that is read is kept, and its body passed over. -/
theorem memberStep_of_takes {α : Type} {read : Cursor → Except Halt (α × Cursor)} {x : α}
    {signature body : List Piece} (hread : Takes read signature (· = .mark '{') x)
    (hbody : Balanced .curly body) (s : ValueState) (keep : ValueType → α → ValueType)
    {ts rest : List Token} (prev : Option Token) (hts : Spells ts (blockPieces signature body)) :
    ∃ last, Cursor.memberStep s ⟨prev, ts ++ rest⟩ (read ⟨prev, ts ++ rest⟩) keep =
      some ({ s with value := keep s.value x }.afterMember, .ok ⟨last, rest⟩) := by
  obtain ⟨ss, bs, rfl, hss, hbs⟩ := spells_append.1 hts
  obtain ⟨b, bs, rfl, hb, hbs⟩ := spells_mark.1 (spells_space.1 hbs)
  obtain ⟨is, cs, rfl, his, hcs⟩ := spells_append.1 hbs
  obtain ⟨c, cs, rfl, hc, hcs⟩ := spells_mark.1 hcs
  obtain rfl := spells_nil.1 hcs
  obtain ⟨last, hread⟩ := hread ss prev (b :: (is ++ c :: rest)) hss (endsWith_cons.2 hb)
  have hskip : (⟨last, b :: (is ++ c :: rest)⟩ : Cursor).skipBody = ⟨some c, rest⟩ := by
    rw [Cursor.skipBody, if_pos (Cursor.atMark_of_mark hb)]
    exact skipGroup_of_balanced hbody his hb hc last
  refine ⟨some c, ?_⟩
  simp only [List.append_assoc, List.cons_append, List.nil_append]
  simp only [Cursor.memberStep, hread, hskip]

/-- A word that is no modifier opens a member. -/
theorem valueItem_of_word {s : ValueState} {t : Token} {w : String} (h : t.kind = .word w)
    (hw : (modifiers.contains w || implementationModifiers.contains w) = false) (c : Cursor) :
    Cursor.valueItem source markerPrefix room nested s t c =
      c.valueMember source room nested s w := by
  simp only [Cursor.valueItem, h, hw, Bool.false_eq_true, if_false]

theorem valueMember_func (s : ValueState) (c : Cursor) :
    c.valueMember source room nested s "func" =
      Cursor.memberStep s c (c.method source room) fun v m =>
        { v with methods := v.methods ++ [m] } := rfl

theorem valueMember_init (s : ValueState) (c : Cursor) :
    c.valueMember source room nested s "init" =
      Cursor.memberStep s c (c.initializer source room) fun v i =>
        { v with initializers := v.initializers ++ [i] } := rfl

/-- A method with a body. -/
theorem reaches_method {s : ValueState} {m : Method} {body : List Piece}
    (h : m.isReadable room = true) (hbody : Balanced .curly body) {ts : List Token}
    (hts : Spells ts (blockPieces m.pieces body)) (rest : List Token) :
    Reaches source markerPrefix room nested s (s.addMethod m) ts rest := by
  have hfirst := hts
  rw [blockPieces, Method.pieces] at hfirst
  obtain ⟨t, us, rfl, ht, -⟩ := spells_word.1 hfirst
  apply reaches_of_item
  intro prev
  rw [valueItem_of_word ht (by decide), valueMember_func]
  exact memberStep_of_takes (takes_method h) hbody s
    (fun v m => { v with methods := v.methods ++ [m] }) prev hts

/-- An initializer with a body. -/
theorem reaches_initializer {s : ValueState} {i : Initializer} {body : List Piece}
    (h : i.isReadable room = true) (hbody : Balanced .curly body) {ts : List Token}
    (hts : Spells ts (blockPieces i.pieces body)) (rest : List Token) :
    Reaches source markerPrefix room nested s (s.addInitializer i) ts rest := by
  have hfirst := hts
  rw [blockPieces, Initializer.pieces] at hfirst
  obtain ⟨t, us, rfl, ht, -⟩ := spells_word.1 hfirst
  apply reaches_of_item
  intro prev
  rw [valueItem_of_word ht (by decide), valueMember_init]
  exact memberStep_of_takes (takes_initializer h) hbody s
    (fun v i => { v with initializers := v.initializers ++ [i] }) prev hts

/-- What follows a stored property without a value: another member, or a comment. -/
def FollowsProperty (k : TokenKind) : Prop := (∃ w, k = .word w) ∨ ∃ text, k = .comment text

theorem followsType_of_followsProperty {k : TokenKind} (h : FollowsProperty k) : FollowsType k := by
  rcases h with ⟨w, rfl⟩ | ⟨text, rfl⟩ <;> simp [FollowsType, FollowsName, FollowsOptional]

/-- The row of a stored property without a value. -/
def propertyPieces (word name : String) (type : TypeRef) : List Piece :=
  .word word :: .space :: .word name :: .mark ':' :: .space :: type.pieces

/-- The row of a variable property. -/
def variablePieces (name : String) (type : TypeRef) : List Piece := propertyPieces "var" name type

/-- The tokens of the value of a property on a line of a text, if it has one. -/
def IsDefault (source : List Char) (line : Nat) : Option String → List Token → Prop
  | none, ts => ts = []
  | some value, ts => ∃ e us, ts = e :: us ∧ e.kind = .mark '=' ∧ IsValue source line value us

/-- The type of a property ends before its value. -/
theorem IsDefault.endsWith_followsType {line : Nat} {default : Option String} {ts rest : List Token}
    (h : IsDefault source line default ts) (hrest : EndsWith FollowsProperty rest) :
    EndsWith FollowsType (ts ++ rest) := by
  cases default with
  | none =>
      obtain rfl : ts = [] := h
      exact hrest.mono fun k hk => followsType_of_followsProperty hk
  | some value =>
      obtain ⟨e, us, rfl, he, -⟩ := h
      exact endsWith_cons.2 (by simp [he, FollowsType, FollowsName, FollowsOptional])

/-- The value of a property is read back, before a member on a later line. -/
theorem IsDefault.default? {line : Nat} {default : Option String} {ts rest : List Token}
    (h : IsDefault source line default ts) (hrest : EndsWith FollowsProperty rest)
    (hbelow : default.isSome = true → StartsBelow line rest) (prev : Option Token) :
    ∃ last, Cursor.default? (Cursor.expression source) ⟨prev, ts ++ rest⟩ =
      .ok (default, ⟨last, rest⟩) := by
  cases default with
  | none =>
      obtain rfl : ts = [] := h
      have hequals : (⟨prev, rest⟩ : Cursor).mark? '=' = none := by
        refine Cursor.mark?_eq_none (hrest.mono fun k hk => ?_)
        rcases hk with ⟨w, rfl⟩ | ⟨text, rfl⟩ <;> simp
      exact ⟨prev, by rw [List.nil_append, Cursor.default?, hequals]⟩
  | some value =>
      obtain ⟨e, us, rfl, he, hvalue⟩ := h
      refine ⟨us.getLast?.or (some e), ?_⟩
      simp only [List.cons_append, Cursor.default?, Cursor.mark?_of_mark he,
        hvalue.expression (hbelow rfl) (some e), bind, Except.bind, pure, Except.pure]

/-- The word that opens a property. -/
def Field.keyword (f : Field) : String := if f.isMutable then "var" else "let"

theorem valueMember_property {s : ValueState} (h : s.attributed = false) {c c' : Cursor} {f : Field}
    (hread : c.property source room f.keyword = .ok (some f, c')) :
    c.valueMember source room nested s f.keyword = some (s.addField f, .ok c') := by
  have hkeyword : f.keyword ∉ Cursor.passedOver ∧ f.keyword ≠ "class" ∧
      (f.keyword = "let" ∨ f.keyword = "var") := by
    simp only [Field.keyword]
    split <;> decide
  simp [Cursor.valueMember, hkeyword, h, hread, ValueState.addField]

/-- A stored property, with or without a value. -/
theorem reaches_property {s : ValueState} {f : Field} (hs : s.attributed = false)
    (h : f.type.isWellFormed = true) (hn : f.type.nesting ≤ room) {line : Nat}
    {ts vs rest : List Token} (hts : Spells ts (propertyPieces f.keyword f.name f.type))
    (hvs : IsDefault source line f.default vs) (hrest : EndsWith FollowsProperty rest)
    (hbelow : f.default.isSome = true → StartsBelow line rest) :
    Reaches source markerPrefix room nested s (s.addField f) (ts ++ vs) rest := by
  rw [propertyPieces] at hts
  obtain ⟨t, us, rfl, ht, hus⟩ := spells_word.1 hts
  obtain ⟨n, ns, rfl, hname, hns⟩ := spells_word.1 (spells_space.1 hus)
  obtain ⟨c, cs, rfl, hc, hcs⟩ := spells_mark.1 hns
  obtain ⟨last, hread⟩ := (TypeRef.readBack h room hn).takes cs (some c) (vs ++ rest)
    (spells_space.1 hcs) (hvs.endsWith_followsType hrest)
  obtain ⟨last', hdefault⟩ := hvs.default? hrest hbelow last
  -- no accessors follow, and it is one property only
  have hbrace : (⟨last', rest⟩ : Cursor).atMark '{' = false := by
    refine Cursor.atMark_eq_false (hrest.mono fun k hk => ?_)
    rcases hk with ⟨w, rfl⟩ | ⟨text, rfl⟩ <;> simp
  have hcomma : (⟨some n, c :: (cs ++ (vs ++ rest))⟩ : Cursor).atMark ',' = false :=
    Cursor.atMark_eq_false (endsWith_cons.2 (by simp [hc]))
  have hmodifier : (modifiers.contains f.keyword ||
      implementationModifiers.contains f.keyword) = false := by
    simp only [Field.keyword]
    split <;> decide
  have hmutable : (f.keyword == "var") = f.isMutable := by
    simp only [Field.keyword]
    split <;> simp_all
  rw [List.cons_append]
  apply reaches_of_item
  intro prev
  refine ⟨last', ?_⟩
  rw [valueItem_of_word ht hmodifier]
  apply valueMember_property hs
  simp only [List.cons_append, List.append_assoc, Cursor.property, Cursor.advance,
    Cursor.expectName_of_word hname, Cursor.propertyRest, hcomma, Cursor.mark?_of_mark hc, hread,
    hdefault, hbrace, hmutable, bind, Except.bind, pure, Except.pure, lift_ok, Bool.false_eq_true,
    if_false, inMember_ok]

/-- A variable property without a value. -/
theorem reaches_variable {s : ValueState} {name : String} {type : TypeRef}
    (hs : s.attributed = false) (h : type.isWellFormed = true) (hn : type.nesting ≤ room)
    {ts rest : List Token} (hts : Spells ts (variablePieces name type))
    (hrest : EndsWith FollowsProperty rest) :
    Reaches source markerPrefix room nested s (s.addField { name, type, isMutable := true }) ts
      rest := by
  let f : Field := { name, type, isMutable := true }
  have hvs : IsDefault source 0 f.default [] := rfl
  have hread : Reaches source markerPrefix room nested s (s.addField f) (ts ++ []) rest :=
    reaches_property hs h hn hts hvs hrest (by simp [f])
  rwa [List.append_nil] at hread

/-- A nested declaration. -/
theorem reaches_nested {s : ValueState} {form : Form} {t : Token} {ts rest : List Token}
    {outcome : Outcome} (ht : t.kind = .word form.keyword) (hform : form ≠ .value .classForm)
    (h : ∀ prev, ∃ last, nested form s.markers ⟨prev, t :: (ts ++ rest)⟩ =
      some (outcome, ⟨last, rest⟩)) :
    Reaches source markerPrefix room nested s (s.addOutcome outcome) (t :: ts) rest := by
  apply reaches_of_item
  intro prev
  obtain ⟨last, hnested⟩ := h prev
  refine ⟨last, ?_⟩
  -- the keyword of a form opens no other kind of member, but for that of a class
  have hkeyword : (modifiers.contains form.keyword ||
      implementationModifiers.contains form.keyword) = false ∧
      form.keyword ∉ Cursor.passedOver ∧ form.keyword ≠ "class" ∧
      form.keyword ≠ "let" ∧ form.keyword ≠ "var" ∧ form.keyword ≠ "func" ∧
      form.keyword ≠ "init" ∧ Form.ofKeyword? form.keyword = some form := by
    cases form with
    | contract => decide
    | enumeration => decide
    | value v =>
        cases v with
        | struct => decide
        | actor => decide
        | classForm => exact absurd rfl hform
  obtain ⟨hmodifier, hpassed, hclass, hlet, hvar, hfunc, hinit, hof⟩ := hkeyword
  rw [valueItem_of_word ht hmodifier]
  simp [Cursor.valueMember, hpassed, hclass, hlet, hvar, hfunc, hinit, hof, hnested,
    ValueState.addOutcome]

/-! ### Items one behind the other -/

/-- **Items one behind the other**: where each of them gets from a state to the next, all of them
get from the first state to the last. -/
theorem reaches_flatMap {α : Type} {row : α → List Piece} {step : ValueState → α → ValueState}
    {xs : List α}
    (h : ∀ x ∈ xs, ∀ s ts rest, Spells ts (row x) →
      Reaches source markerPrefix room nested s (step s x) ts rest) :
    ∀ s ts rest, Spells ts (xs.flatMap row) →
      Reaches source markerPrefix room nested s (xs.foldl step s) ts rest := by
  induction xs with
  | nil =>
      intro s ts rest hts
      obtain rfl := spells_nil.1 hts
      exact Reaches.refl s rest
  | cons x xs ih =>
      intro s ts rest hts
      rw [List.flatMap_cons] at hts
      obtain ⟨us, vs, rfl, hus, hvs⟩ := spells_append.1 hts
      have hfirst := h x (by simp) s us (vs ++ rest) hus
      exact hfirst.trans (ih (fun y hy => h y (List.mem_cons_of_mem _ hy)) (step s x) vs rest hvs)

end Scaffold
