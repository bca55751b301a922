/-
**Types by positions.**

Types are read by moving a position, with every access that can fail written out: tokens and their
neighbours, the arguments of a name, and the depth of nesting, which is counted up where a type core
opens and down where it ends.

Main definitions:

* `Scaffold.Checked.Renders` — a reader by positions follows a reader by places everywhere;
* `Scaffold.Checked.nested` — a reader one level further inside;
* `Scaffold.Checked.effects`, `Scaffold.Checked.typeCore`, `Scaffold.Checked.type` — the readers;
* `Scaffold.Checked.parseType` — the type that a whole text spells.

Main results:

* `Scaffold.Checked.renders_typeCore`, `Scaffold.Checked.renders_type` — **types are the same**;
* `Scaffold.Checked.parseType_eq` — no access fails where a text is read as a type.
-/

import Scaffold.Proofs.CheckedLexer
import Scaffold.Proofs.CheckedReaders

set_option relaxedAutoImplicit false
set_option autoImplicit false

namespace Scaffold

/-! ### Steps of readers by places -/

namespace Cursor

theorem mark?_eq_some_iff {c c' : Cursor} {m : Char} :
    c.mark? m = some c' ↔ ∃ t, c.rest = t :: c'.rest ∧ t.isMark m = true ∧ c'.prev = some t := by
  obtain ⟨prev, rest⟩ := c
  obtain ⟨prev', rest'⟩ := c'
  cases rest with
  | nil => simp [mark?, atMark, next?]
  | cons t ts =>
      rw [mark?, Option.ite_none_right_eq_some, Option.some.injEq]
      constructor
      · rintro ⟨hm, heq⟩
        cases heq
        exact ⟨t, rfl, hm, rfl⟩
      · rintro ⟨_, hrest, hm, rfl⟩
        cases hrest
        exact ⟨hm, rfl⟩

theorem isMark_of_mark?_eq_none {c : Cursor} {m : Char} (h : c.mark? m = none) {t : Token}
    {ts : List Token} (hrest : c.rest = t :: ts) : t.isMark m = false := by
  simpa [mark?, atMark, next?, hrest] using h

/-- An attribute is an at sign with a name behind it. -/
theorem attributesFrom_of_mark? {c c₁ : Cursor} (h : c.mark? '@' = some c₁) :
    attributesFrom c.prev c.rest = (do
      let (a, c₂) ← c₁.expectName "attribute"
      let (as, c₃) ← attributesFrom c₂.prev c₂.rest
      return (a :: as, c₃)) := by
  obtain ⟨t, hrest, ht, hprev⟩ := mark?_eq_some_iff.1 h
  obtain ⟨prev₁, rest₁⟩ := c₁
  simp only at hrest hprev
  subst hprev
  rw [hrest]
  cases rest₁ with
  | nil =>
      simp only [attributesFrom, ht, if_true]
      rfl
  | cons u us =>
      simp only [attributesFrom, ht, if_true, expectName, word?, next?, List.head?_cons,
        Option.bind_some, advance]
      cases u.word? with
      | none => rfl
      | some w =>
          simp only
          change _ = Except.bind (attributesFrom (some u) us) _
          cases attributesFrom (some u) us <;> rfl

theorem attributesFrom_of_mark?_eq_none {c : Cursor} (h : c.mark? '@' = none) :
    attributesFrom c.prev c.rest = .ok ([], c) := by
  obtain ⟨prev, rest⟩ := c
  cases rest with
  | nil => rfl
  | cons t ts =>
      have ht := isMark_of_mark?_eq_none h rfl
      cases ts <;> simp only [attributesFrom, ht, Bool.false_eq_true, if_false]

theorem optionalsFrom_of_mark? {c c₁ : Cursor} {m : Char} (hm : m = '?' ∨ m = '!')
    (h : c.mark? m = some c₁) (type : TypeRef) :
    optionalsFrom type c.prev c.rest = optionalsFrom (.optional type) c₁.prev c₁.rest := by
  obtain ⟨t, hrest, ht, hprev⟩ := mark?_eq_some_iff.1 h
  have hmark : (t.isMark '?' || t.isMark '!') = true := by
    rcases hm with rfl | rfl <;> simp [ht]
  rw [hrest, optionalsFrom, if_pos hmark, hprev]

theorem optionalsFrom_of_mark?_eq_none {c : Cursor} (hquestion : c.mark? '?' = none)
    (hexclamation : c.mark? '!' = none) (type : TypeRef) :
    optionalsFrom type c.prev c.rest = (type, c) := by
  obtain ⟨prev, rest⟩ := c
  cases rest with
  | nil => rfl
  | cons t ts =>
      simp only [optionalsFrom, isMark_of_mark?_eq_none hquestion rfl,
        isMark_of_mark?_eq_none hexclamation rfl, Bool.or_false, Bool.false_eq_true, if_false]

/-- A dotted name goes on where a dot is followed by a name. -/
theorem pathFrom_of_atMark {c : Cursor} (hdot : c.atMark '.' = true) {w : String}
    (hword : c.secondWord? = some w) (name : String) :
    (.ok (pathFrom name c.prev c.rest) : Except Failure (String × Cursor)) = (do
      let (w, c₂) ← c.advance.expectName "type"
      .ok (pathFrom (name ++ "." ++ w) c₂.prev c₂.rest)) := by
  obtain ⟨prev, rest⟩ := c
  cases rest with
  | nil => cases hdot
  | cons t ts =>
      cases ts with
      | nil => cases hword
      | cons u us =>
          have ht : t.isMark '.' = true := hdot
          have hu : u.word? = some w := hword
          simp only [pathFrom, ht, hu, expectName, word?, next?, advance, List.head?_cons,
            Option.bind_some]
          rfl

theorem pathFrom_of_not {c : Cursor} (h : (c.atMark '.' && c.secondWord?.isSome) = false)
    (name : String) : pathFrom name c.prev c.rest = (name, c) := by
  obtain ⟨prev, rest⟩ := c
  cases rest with
  | nil => rfl
  | cons t ts =>
      cases ts with
      | nil => rfl
      | cons u us =>
          have hnot : (t.isMark '.' && u.word?.isSome) = false := h
          rw [pathFrom.eq_def]
          cases ht : t.isMark '.' with
          | false => simp only [ht]
          | true =>
              cases hu : u.word? with
              | none => simp only [ht, hu]
              | some w => simp [ht, hu] at hnot

end Cursor

namespace Checked

/-! ### Readers of types -/

section Readers

variable (i : Input)

/-- Reads effects in any order. -/
def effectsFrom : (fuel : Nat) → Effects → Reader Effects
  | 0, _ => access none
  | fuel + 1, e => do
    if ← takeWord i "async" then effectsFrom fuel { e with isAsync := true }
    else if ← takeWord i "throws" then
      skipGluedParens i
      effectsFrom fuel { e with isThrowing := true }
    else
      let s ← get
      if i.atWord s "rethrows" then throw (i.fail s .rethrowing) else return e

/-- Reads effects in any order; the error type that `throws` may name is passed over. -/
def effects : Reader Effects := effectsFrom i (i.tokens.length + 1) {}

/-- Reads the attributes before a type core. -/
def attributesFrom : (fuel : Nat) → Reader (List String)
  | 0 => access none
  | fuel + 1 => do
    if ← takeMark i '@' then
      let a ← expectName i "attribute"
      let as ← attributesFrom fuel
      return a :: as
    else return []

/-- Reads the marks behind a type that make it optional. -/
def optionalsFrom : (fuel : Nat) → TypeRef → Reader TypeRef
  | 0, _ => access none
  | fuel + 1, type => do
    if ← takeMark i '?' then optionalsFrom fuel (.optional type)
    else if ← takeMark i '!' then optionalsFrom fuel (.optional type)
    else return type

/-- A type core with the attributes that stand before it. -/
def attributed (attributes : List String) (line : Nat) (type : TypeRef) : Reader TypeRef :=
  if attributes.isEmpty then return type
  else
    match type with
    | .function _ params effects result => return .function attributes params effects result
    | _ => do
      let first ← access attributes[0]?
      throw { reason := .attributePlace first, line := line }

/-- Reads a type, given a reader of its core. -/
def typeWith (core : Reader TypeRef) : Reader TypeRef := do
  let s ← get
  let attributes ← attributesFrom i (i.tokens.length + 1)
  let type ← core
  let type ← attributed attributes (i.line s) type
  optionalsFrom i (i.tokens.length + 1) type

/-- Reads the rest of a dotted name. -/
def pathFrom : (fuel : Nat) → String → Reader String
  | 0, _ => access none
  | fuel + 1, name => do
    let s ← get
    if i.atMark s '.' && (i.secondWord? s).isSome then
      moveTo (s.pos + 1)
      let w ← expectName i "type"
      pathFrom fuel (name ++ "." ++ w)
    else return name

/-- Reads items with commas between them up to a closing mark. -/
def separated {α : Type} (item : Nat → Reader α) (close : Char) :
    (fuel index : Nat) → Reader (List α)
  | 0, _ => access none
  | fuel + 1, index => do
    let x ← item index
    if ← takeMark i ',' then
      let xs ← separated item close fuel (index + 1)
      return x :: xs
    else
      expectMark i close
      return [x]

/-- The type that a name with generic arguments refers to; the arguments are taken by index. -/
def applied (name : String) (args : List TypeRef) : Option TypeRef :=
  if name = "Optional" ∧ args.length = 1 then args[0]?.map .optional
  else if name = "Array" ∧ args.length = 1 then args[0]?.map .sequence
  else if name = "Dictionary" ∧ args.length = 2 then do
    let value ← args[1]?
    let key ← args[0]?
    some (.mapping key value)
  else if args.length = 0 then some (.ofName name)
  else some (.named name args)

/-- Reads a name with generic arguments, given a reader of types. -/
def namedWith (type : Reader TypeRef) : Reader TypeRef := do
  let first ← expectName i "type"
  let name ← pathFrom i (i.tokens.length + 1) first
  if ← takeMark i '<' then
    let args ← separated i (fun _ => type) '>' (i.tokens.length + 1) 0
    access (applied name args)
  else access (applied name [])

/-- Moves behind a label such as `name:` or `_ name:`, if there is one. -/
def skipLabel : Reader Unit := do
  let s ← get
  let word := fun offset => ((i.peekAt s offset).bind Token.word?).isSome
  let colon := fun offset => (i.peekAt s offset).any (·.isMark ':')
  if word 0 && colon 1 then moveTo (s.pos + 2)
  else if word 0 && word 1 && colon 2 then moveTo (s.pos + 3)
  else return ()

/-- Reads one element of a list in parentheses. -/
def elementWith (type : Reader TypeRef) : Reader TypeRef := do
  skipLabel i
  let _ ← takeWord i "inout"
  type

/-- Reads the elements of a list in parentheses behind the opening one, given a reader of types. -/
def elementsWith (type : Reader TypeRef) : Reader (List TypeRef) := do
  if ← takeMark i ')' then return []
  else separated i (fun _ => elementWith i type) ')' (i.tokens.length + 1) 0

/-- Reads `()`, `(T)` or a function type, given a reader of types. -/
def parenthesizedWith (type : Reader TypeRef) : Reader TypeRef := do
  let s ← get
  moveTo (s.pos + 1)
  let elements ← elementsWith i type
  let effects ← effects i
  let behind ← get
  if i.atArrow behind then
    moveTo (behind.pos + 1)
    let result ← type
    return .function [] elements effects result
  else if effects.isAsync || effects.isThrowing then
    throw { reason := .expectedArrow, line := i.line s }
  else if elements.length = 0 then return .void
  else if elements.length = 1 then access elements[0]?
  else throw { reason := .tuple, line := i.line s }

/-- Reads `[T]` or `[K: V]`, given a reader of types. -/
def collectionWith (type : Reader TypeRef) : Reader TypeRef := do
  let s ← get
  moveTo (s.pos + 1)
  let first ← type
  if ← takeMark i ':' then
    let value ← type
    expectMark i ']'
    return .mapping first value
  else
    expectMark i ']'
    return .sequence first

/-- Reads a type core, given a reader of the cores inside it. -/
def coreWith (core : Reader TypeRef) : Reader TypeRef := do
  let s ← get
  match i.found s with
  | some (.mark '[') => collectionWith i (typeWith i core)
  | some (.mark '(') => parenthesizedWith i (typeWith i core)
  | some (.word w) =>
    if w = "any" then do
      moveTo (s.pos + 1)
      let constraint ← core
      return .existential constraint
    else if w = "some" then throw (i.fail s .opaqueType)
    else namedWith i (typeWith i core)
  | found => throw (i.fail s (.expectedType found))

/-- A reader one level further inside; the level is left again also where the reader fails. -/
def nested {α : Type} (x : Reader α) : Reader α := do
  modify fun s => { s with depth := s.depth + 1 }
  let r ← attempt x
  let s ← get
  let depth ← access (minus? s.depth 1)
  set { s with depth := depth }
  match r with
  | .ok a => return a
  | .error f => throw f

/-- Reads a type core. -/
def typeCore : (fuel : Nat) → Reader TypeRef
  | 0 => access none
  | fuel + 1 => do
    let s ← get
    if maxNesting ≤ s.depth then throw (i.fail s .typeNesting)
    else nested (coreWith i (typeCore fuel))

/-- Reads a type. -/
def type : Reader TypeRef := typeWith i (typeCore i (maxNesting + 1))

end Readers

/-- The type that a whole text spells. -/
def parseType (text : String) : Option (Except Reason TypeRef) := do
  match ← tokenize text with
  | .error e => some (.error (.unclosed e))
  | .ok tokens =>
    let i : Input := ⟨text.toList, tokens⟩
    let (r, s) ← (type i).run.run { pos := 0, stop := tokens.length }
    match r with
    | .error f => some (.error f.reason)
    | .ok t => if (i.next? s).isSome then some (.error (.trailing (i.found s))) else some (.ok t)

/-- A reader by positions follows a reader by places from every place. -/
def Renders {ε α : Type} (i : Input) (room : Nat) (E : Failure → ε → Prop) (x : Reader α)
    (read : Cursor → Except ε (α × Cursor)) : Prop :=
  ∀ ⦃least : Nat⦄ ⦃s : State⦄ ⦃c : Cursor⦄, Stands i room least s c →
    Follows E (Reaches i room least) s x (read c)

section Steps

variable {i : Input} {room least : Nat} {s : State} {c : Cursor} (h : Stands i room least s c)

include h

/-! ### Effects -/

theorem follows_effectsFrom {fuel fuel' : Nat} (e : Effects) (hfuel : s.stop < s.pos + fuel)
    (hfuel' : s.stop < s.pos + fuel') :
    Follows Eq (Reaches i room least) s (effectsFrom i fuel e) (c.effectsFrom fuel' e) := by
  have hstop := h.stop_eq
  induction fuel generalizing fuel' e s c with
  | zero => omega
  | succ fuel ih =>
      obtain ⟨fuel', rfl⟩ : ∃ n, fuel' = n + 1 := ⟨fuel' - 1, by omega⟩
      rw [Cursor.effectsFrom]
      refine h.takeWord ?_ ?_
      · intro c₁ hasync hc₁
        simp only [hasync, if_true]
        exact ih hc₁ _ (by simp; omega) (by simp; omega) hc₁.stop_eq
      intro hasync
      simp only [hasync, Bool.false_eq_true, if_false]
      refine h.takeWord ?_ ?_
      · intro c₁ hthrows hc₁
        simp only [hthrows, if_true]
        refine (movesTo_skipGluedParens (hc₁.raise (Nat.le_refl _))).bind ?_
        intro n hc₂
        have hleast := hc₂.least
        simp only [State.pos_to, State.to_to] at hleast hc₂
        exact ih (hc₂.lower (Nat.le_succ_of_le h.least)) _ (by simp; omega) (by simp; omega)
          hc₂.stop_eq
      intro hthrows
      simp only [hthrows, Bool.false_eq_true, if_false]
      refine .get ?_
      rw [h.atWord, h.fail]
      split
      · exact .throw rfl
      · exact .pure ⟨rfl, h⟩

theorem follows_effects :
    Follows Eq (Reaches i room least) s (effects i) c.effects := by
  have := h.stop_le
  exact follows_effectsFrom h _ (by omega) h.stop_lt_fuel

/-! ### Attributes, optionals and names -/

theorem follows_attributesFrom {fuel : Nat} (hfuel : s.stop < s.pos + fuel) :
    Follows Eq (Reaches i room least) s (attributesFrom i fuel)
      (Cursor.attributesFrom c.prev c.rest) := by
  have hstop := h.stop_eq
  induction fuel generalizing s c with
  | zero => omega
  | succ fuel ih =>
      refine h.takeMark ?_ ?_
      · intro c₁ hmark hc₁
        rw [Cursor.attributesFrom_of_mark? hmark, if_pos rfl]
        refine (follows_expectName (hc₁.raise (Nat.le_refl _)) "attribute").bind ?_
        rintro _ n ⟨a, c₂⟩ ⟨rfl, hc₂⟩
        have hleast := hc₂.least
        simp only [State.pos_to, State.to_to] at hleast hc₂
        refine (ih (hc₂.lower (Nat.le_succ_of_le h.least)) (by simp; omega) hc₂.stop_eq).bind ?_
        rintro _ m ⟨as, c₃⟩ ⟨rfl, hc₃⟩
        exact .pure ⟨rfl, hc₃⟩
      · intro hmark
        rw [Cursor.attributesFrom_of_mark?_eq_none hmark, if_neg Bool.false_ne_true]
        exact .pure ⟨rfl, h⟩

theorem follows_optionalsFrom {fuel : Nat} (type : TypeRef) (hfuel : s.stop < s.pos + fuel) :
    Follows Eq (Reaches i room least) s (optionalsFrom i fuel type)
      (.ok (Cursor.optionalsFrom type c.prev c.rest) : Except Failure (TypeRef × Cursor)) := by
  have hstop := h.stop_eq
  induction fuel generalizing s c type with
  | zero => omega
  | succ fuel ih =>
      refine h.takeMark ?_ ?_
      · intro c₁ hquestion hc₁
        rw [Cursor.optionalsFrom_of_mark? (.inl rfl) hquestion]
        exact ih hc₁ _ (by simp; omega) hc₁.stop_eq
      intro hquestion
      refine h.takeMark ?_ ?_
      · intro c₁ hexclamation hc₁
        rw [Cursor.optionalsFrom_of_mark? (.inr rfl) hexclamation]
        exact ih hc₁ _ (by simp; omega) hc₁.stop_eq
      · intro hexclamation
        rw [Cursor.optionalsFrom_of_mark?_eq_none hquestion hexclamation]
        exact .pure ⟨rfl, h⟩

theorem follows_pathFrom {fuel : Nat} (name : String) (hfuel : s.stop < s.pos + fuel) :
    Follows Eq (Reaches i room least) s (pathFrom i fuel name)
      (.ok (Cursor.pathFrom name c.prev c.rest) : Except Failure (String × Cursor)) := by
  have hstop := h.stop_eq
  induction fuel generalizing s c name with
  | zero => omega
  | succ fuel ih =>
      refine .get ?_
      rw [h.atMark, h.secondWord?]
      cases hgoes : c.atMark '.' && c.secondWord?.isSome with
      | false =>
          rw [Cursor.pathFrom_of_not hgoes, if_neg Bool.false_ne_true]
          exact .pure ⟨rfl, h⟩
      | true =>
          obtain ⟨hdot, hsecond⟩ := Bool.and_eq_true_iff.1 hgoes
          obtain ⟨w, hw⟩ := Option.isSome_iff_exists.1 hsecond
          have hc₁ := h.advance (next?_isSome_of_any hdot)
          rw [Cursor.pathFrom_of_atMark hdot hw, if_pos rfl]
          refine .moveTo ((follows_expectName (hc₁.raise (Nat.le_refl _)) "type").bind ?_)
          rintro _ n ⟨w, c₂⟩ ⟨rfl, hc₂⟩
          have hleast := hc₂.least
          simp only [State.pos_to, State.to_to] at hleast hc₂
          exact ih (hc₂.lower (Nat.le_succ_of_le h.least)) _ (by simp; omega) hc₂.stop_eq

/-! ### Lists and generic arguments -/

omit h in
/-- Items between commas are the same if each of them is. -/
theorem follows_separated {ε α : Type} {E : Failure → ε → Prop} {lift : Failure → ε}
    (hlift : ∀ f, E f (lift f)) {item : Nat → Reader α}
    {item' : Nat → Cursor → Except ε (α × Cursor)}
    (hitem : ∀ index, Renders i room E (item index) (item' index)) (close : Char)
    {fuel fuel' : Nat} (index : Nat) (h : Stands i room least s c) (hfuel : s.stop < s.pos + fuel)
    (hfuel' : s.stop < s.pos + fuel') :
    Follows E (Reaches i room least) s (separated i item close fuel index)
      (Cursor.separated lift item' close fuel' index c) := by
  have hstop := h.stop_eq
  induction fuel generalizing fuel' index s c with
  | zero => omega
  | succ fuel ih =>
      obtain ⟨fuel', rfl⟩ : ∃ n, fuel' = n + 1 := ⟨fuel' - 1, by omega⟩
      rw [Cursor.separated]
      rcases hitem index (h.raise (Nat.le_refl _)) with
        ⟨_, n, ⟨x, c₁⟩, hrun, hr, rfl, hc₁⟩ | ⟨f, n, e, hrun, hr, hfe⟩
      · have hleast := hc₁.least
        simp only [hr]
        refine .of_run hrun ((hc₁.lower h.least).takeMark ?_ ?_)
        · intro c₂ hcomma hc₂
          simp only [State.pos_to, State.to_to] at hleast hc₂ ⊢
          simp only [hcomma, if_true]
          have hrest : Follows E (Reaches i room least) (s.to (n + 1))
              (separated i item close fuel (index + 1))
              (Cursor.separated lift item' close fuel' (index + 1) c₂) :=
            ih (index + 1) hc₂ (by simp; omega) (by simp; omega) hc₂.stop_eq
          rcases hrest with
            ⟨_, m, ⟨xs, c₃⟩, hrun', hr', rfl, hc₃⟩ | ⟨f, m, e, hrun', hr', hfe⟩
          · simp only [hr']
            exact .of_run hrun' (.pure ⟨rfl, hc₃⟩)
          · simp only [hr']
            exact .inr ⟨f, m, e, run_bind_of_error hrun', rfl, hfe⟩
        · intro hcomma
          simp only [hcomma, Bool.false_eq_true, if_false]
          rcases follows_expectMark (hc₁.lower h.least) close with
            ⟨_, m, c₂, hrun', hr', hc₂⟩ | ⟨f, m, _, hrun', hr', rfl⟩
          · simp only [hr']
            exact .of_run hrun' (.pure ⟨rfl, hc₂⟩)
          · simp only [hr']
            exact .inr ⟨f, m, lift f, run_bind_of_error hrun', rfl, hlift f⟩
      · simp only [hr]
        exact .inr ⟨f, n, e, run_bind_of_error hrun, rfl, hfe⟩

omit h in
theorem applied_eq (name : String) (args : List TypeRef) :
    applied name args = some (Cursor.applied name args) := by
  cases args with
  | nil => simp [applied, Cursor.applied]
  | cons a as =>
      cases as with
      | nil =>
          by_cases hoptional : name = "Optional"
          · simp [applied, Cursor.applied, hoptional]
          by_cases harray : name = "Array" <;>
            simp [applied, Cursor.applied, hoptional, harray]
      | cons b bs =>
          cases bs with
          | nil =>
              by_cases hdictionary : name = "Dictionary" <;>
                simp [applied, Cursor.applied, hdictionary]
          | cons d ds => simp [applied, Cursor.applied]

theorem movesTo_skipLabel : MovesTo i room least s (skipLabel i) c.skipLabel := by
  refine .get ?_
  simp only [h.peekAt, Cursor.skipLabel]
  cases hrest : c.rest with
  | nil => exact .stay h
  | cons a as =>
      cases as with
      | nil =>
          simp only [List.getElem?_cons_zero, List.getElem?_cons_succ, List.getElem?_nil,
            Option.bind_none, Option.any_none, Option.isSome_none, Bool.and_false,
            Bool.false_eq_true, if_false]
          exact .stay h
      | cons b bs =>
          simp only [List.getElem?_cons_zero, List.getElem?_cons_succ, Option.bind_some,
            Option.any_some]
          by_cases hlabel : (a.word?.isSome && b.isMark ':') = true
          · obtain ⟨ha, hb⟩ := Bool.and_eq_true_iff.1 hlabel
            obtain ⟨v, hv⟩ := Option.isSome_iff_exists.1 ha
            rw [if_pos hlabel]
            simp only [hv, hb]
            exact movesTo_moveTo (h.past (show [a, b] ++ bs = c.rest from hrest.symm))
          rw [if_neg hlabel]
          by_cases hlong : (a.word?.isSome && b.word?.isSome && bs[0]?.any (·.isMark ':')) = true
          · obtain ⟨hwords, hd⟩ := Bool.and_eq_true_iff.1 hlong
            obtain ⟨ha, hb⟩ := Bool.and_eq_true_iff.1 hwords
            obtain ⟨v, hv⟩ := Option.isSome_iff_exists.1 ha
            obtain ⟨w, hw⟩ := Option.isSome_iff_exists.1 hb
            cases bs with
            | nil => cases hd
            | cons d ds =>
                have hcolon : b.isMark ':' = false := by simpa [hv] using hlabel
                rw [if_pos hlong]
                simp only [hv, hcolon, hw]
                rw [if_pos (by simpa using hd)]
                exact movesTo_moveTo (h.past (show [a, b, d] ++ ds = c.rest from hrest.symm))
          · rw [if_neg hlong]
            split
            · next v hv hb => simp [hv, hb] at hlabel
            · next v w d ds hv hb hw =>
                split
                · next hd => simp [hv, hw, hd] at hlong
                · exact .stay h
            · exact .stay h

end Steps

section Types

variable {i : Input} {room : Nat} {core : Reader TypeRef}
  {core' : Cursor → Except Failure (TypeRef × Cursor)} (hcore : Renders i room Eq core core')

theorem follows_attributed (s : State) (attributes : List String) (line : Nat) (type : TypeRef) :
    Follows Eq (fun t s' t' => t' = t ∧ s'.pos = s.pos) s (attributed attributes line type)
      (Cursor.attributed attributes line type) := by
  cases attributes with
  | nil => exact .pure ⟨rfl, rfl⟩
  | cons a as =>
      cases type with
      | function _ params effects result => exact .pure ⟨rfl, rfl⟩
      | _ => exact .throw rfl

include hcore

theorem renders_typeWith : Renders i room Eq (typeWith i core) (Cursor.typeWith core') := by
  intro least s c h
  have hbound := h.stop_le
  refine .get ((follows_attributesFrom h (by omega)).bind ?_)
  rintro _ n ⟨attributes, c₁⟩ ⟨rfl, hc₁⟩
  refine (hcore hc₁).bind ?_
  rintro _ m ⟨type, c₂⟩ ⟨rfl, hc₂⟩
  simp only [h.line]
  refine (follows_attributed _ attributes c.line _).bind ?_
  rintro type k _ ⟨rfl, hk⟩
  simp only [State.pos_to] at hk
  subst hk
  refine follows_optionalsFrom hc₂ _ ?_
  simp only [State.stop_to]
  omega

theorem renders_namedWith : Renders i room Eq (namedWith i core) (Cursor.namedWith core') := by
  intro least s c h
  refine (follows_expectName h "type").bind ?_
  rintro _ n ⟨first, c₁⟩ ⟨rfl, hc₁⟩
  have hbound := hc₁.stop_le
  refine (follows_pathFrom hc₁ first (by omega)).bind_ok ?_
  rintro _ m ⟨rfl, hc₂⟩
  refine hc₂.takeMark ?_ ?_
  · intro c₃ hangle hc₃
    simp only [hangle, if_true]
    have hlength := hc₃.stop_le
    refine (follows_separated (fun _ => rfl) (fun _ => hcore) '>' 0 hc₃ (by omega)
      hc₃.stop_lt_fuel).bind ?_
    rintro _ k ⟨args, c₄⟩ ⟨rfl, hc₄⟩
    exact .accessed (applied_eq _ args) ⟨rfl, hc₄⟩
  · intro hangle
    simp only [hangle, Bool.false_eq_true, if_false]
    exact .accessed (applied_eq _ []) ⟨rfl, hc₂⟩

theorem renders_elementWith :
    Renders i room Eq (elementWith i core) (Cursor.elementWith core') := by
  intro least s c h
  refine (movesTo_skipLabel h).bind ?_
  intro n hc₁
  refine hc₁.takeWord ?_ ?_
  · intro c₂ hinout hc₂
    simp only [Cursor.elementWith, hinout, Option.getD_some]
    exact hcore hc₂
  · intro hinout
    simp only [Cursor.elementWith, hinout, Option.getD_none]
    exact hcore hc₁

theorem renders_elementsWith :
    Renders i room Eq (elementsWith i core) (Cursor.elementsWith core') := by
  intro least s c h
  have hbound := h.stop_le
  refine h.takeMark ?_ ?_
  · intro c₁ hclose hc₁
    simp only [Cursor.elementsWith, hclose, if_true]
    exact .pure ⟨rfl, hc₁⟩
  · intro hclose
    simp only [Cursor.elementsWith, hclose, Bool.false_eq_true, if_false]
    exact follows_separated (fun _ => rfl) (fun _ => renders_elementWith hcore) ')' 0 h (by omega)
      h.stop_lt_fuel

theorem renders_parenthesizedWith :
    ∀ ⦃least : Nat⦄ ⦃s : State⦄ ⦃c : Cursor⦄, Stands i room least s c → c.next?.isSome = true →
      Follows Eq (Reaches i room least) s (parenthesizedWith i core)
        (Cursor.parenthesizedWith core' c) := by
  intro least s c h hnext
  refine .get (.moveTo ((renders_elementsWith hcore (h.advance hnext)).bind ?_))
  rintro _ n ⟨elements, c₁⟩ ⟨rfl, hc₁⟩
  refine (follows_effects hc₁).bind ?_
  rintro _ m ⟨effects, c₂⟩ ⟨rfl, hc₂⟩
  refine .get ?_
  simp only [hc₂.atArrow, h.line]
  split
  · next harrow =>
      refine .moveTo ((hcore (hc₂.advance (next?_isSome_of_any harrow))).bind ?_)
      rintro _ k ⟨result, c₃⟩ ⟨rfl, hc₃⟩
      exact .pure ⟨rfl, hc₃⟩
  split
  · exact .throw rfl
  cases elements with
  | nil => exact .pure ⟨rfl, hc₂⟩
  | cons a as =>
      cases as with
      | nil => exact .accessed rfl ⟨rfl, hc₂⟩
      | cons b bs => exact .throw rfl

theorem renders_collectionWith :
    ∀ ⦃least : Nat⦄ ⦃s : State⦄ ⦃c : Cursor⦄, Stands i room least s c → c.next?.isSome = true →
      Follows Eq (Reaches i room least) s (collectionWith i core)
        (Cursor.collectionWith core' c) := by
  intro least s c h hnext
  refine .get (.moveTo ((hcore (h.advance hnext)).bind ?_))
  rintro _ n ⟨first, c₁⟩ ⟨rfl, hc₁⟩
  refine hc₁.takeMark ?_ ?_
  · intro c₂ hcolon hc₂
    simp only [hcolon, if_true]
    refine (hcore hc₂).bind ?_
    rintro _ m ⟨value, c₃⟩ ⟨rfl, hc₃⟩
    refine (follows_expectMark hc₃ ']').bind ?_
    rintro _ k c₄ hc₄
    exact .pure ⟨rfl, hc₄⟩
  · intro hcolon
    simp only [hcolon, Bool.false_eq_true, if_false]
    refine (follows_expectMark hc₁ ']').bind ?_
    rintro _ m c₂ hc₂
    exact .pure ⟨rfl, hc₂⟩

theorem renders_coreWith : Renders i room Eq (coreWith i core) (Cursor.coreWith core') := by
  intro least s c h
  have hnext : ∀ {k}, c.found = some k → c.next?.isSome = true := by
    intro k hk
    rw [Cursor.found] at hk
    obtain ⟨t, ht, -⟩ := Option.map_eq_some_iff.1 hk
    rw [ht]
    rfl
  refine .get ?_
  rw [h.found]
  split
  · next hfound =>
      simp only [Cursor.coreWith, hfound]
      exact renders_collectionWith (renders_typeWith hcore) h (hnext hfound)
  · next hfound =>
      simp only [Cursor.coreWith, hfound]
      exact renders_parenthesizedWith (renders_typeWith hcore) h (hnext hfound)
  · next w hfound =>
      simp only [Cursor.coreWith, hfound]
      split
      · refine .moveTo ((hcore (h.advance (hnext hfound))).bind ?_)
        rintro _ n ⟨constraint, c₁⟩ ⟨rfl, hc₁⟩
        exact .pure ⟨rfl, hc₁⟩
      split
      · rw [h.fail]
        exact .throw rfl
      · exact renders_namedWith (renders_typeWith hcore) h
  · next hsquare hround hword =>
      rw [h.fail, Cursor.coreWith]
      split
      · next hfound => exact absurd hfound hsquare
      · next hfound => exact absurd hfound hround
      · next w hfound => exact absurd hfound (hword w)
      · exact .throw rfl

end Types

/-! ### Nesting -/

/-- The level is left again where a reader further inside ends. -/
theorem run_nested {α : Type} {x : Reader α} {s : State} {r : Except Failure α} {n : Nat}
    (h : x.run.run { s with depth := s.depth + 1 } =
      some (r, { s with pos := n, depth := s.depth + 1 })) :
    (nested x).run.run s = some (r, s.to n) := by
  change (attempt x >>= _ : Reader α).run.run { s with depth := s.depth + 1 } = _
  rw [run_bind_of_ok (run_attempt h)]
  have hget : ∀ t : State, (get : Reader State).run.run t = some (.ok t, t) := fun _ => rfl
  rw [run_bind_of_ok (hget _), run_bind_of_ok (run_access (minus?_add s.depth 1) _)]
  cases r <;> rfl

/-- One level further inside there is one level less room. -/
theorem follows_nested {i : Input} {room least : Nat} {s : State} {c : Cursor} {α : Type}
    {x : Reader α} {read : Cursor → Except Failure (α × Cursor)} (hx : Renders i room Eq x read)
    (h : Stands i (room + 1) least s c) :
    Follows Eq (Reaches i (room + 1) least) s (nested x) (read c) := by
  have hdepth := h.depth
  have hinside : Stands i room least { s with depth := s.depth + 1 } c :=
    ⟨h.parts, by simp only; omega, h.least⟩
  rcases hx hinside with ⟨_, n, ⟨a, c₁⟩, hrun, hr, rfl, hc₁⟩ | ⟨f, n, _, hrun, hr, rfl⟩
  · have hbehind : Stands i (room + 1) least (s.to n) c₁ := ⟨hc₁.parts, hdepth, hc₁.least⟩
    exact .inl ⟨a, n, (a, c₁), run_nested hrun, hr, rfl, hbehind⟩
  · exact .inr ⟨f, n, f, run_nested hrun, hr, rfl⟩

theorem renders_typeCore (i : Input) {fuel room : Nat} (hfuel : room < fuel) :
    Renders i room Eq (typeCore i fuel) (Cursor.typeCore room) := by
  induction fuel generalizing room with
  | zero => cases hfuel
  | succ fuel ih =>
      intro least s c h
      have hdepth := h.depth
      refine .get ?_
      cases room with
      | zero =>
          rw [if_pos (by omega), h.fail]
          exact .throw rfl
      | succ room =>
          rw [if_neg (by omega)]
          exact follows_nested (renders_coreWith (ih (Nat.lt_of_succ_lt_succ hfuel))) h

/-- **Types are the same**, and no access fails where they are read. -/
theorem renders_type (i : Input) (room : Nat) : Renders i room Eq (type i) (Cursor.type room) := by
  intro least s c h
  have hdepth := h.depth
  exact renders_typeWith (renders_typeCore i (by omega)) h

/-- The state before all tokens. -/
theorem stands_start (source : List Char) (tokens : List Token) :
    Stands ⟨source, tokens⟩ maxNesting 0 { pos := 0, stop := tokens.length } (.start tokens) :=
  ⟨⟨[], [], by simp [Cursor.start], rfl, by simp [Cursor.start], rfl, fun _ => rfl⟩, rfl,
    Nat.zero_le _⟩

theorem parseType_eq (text : String) : parseType text = some (TypeRef.parse text) := by
  rw [parseType, tokenize_eq, TypeRef.parse]
  simp only [Option.bind_eq_bind, Option.bind_some]
  cases Scaffold.tokenize text with
  | error e => rfl
  | ok tokens =>
      simp only
      rcases renders_type _ _ (stands_start text.toList tokens) with
        ⟨_, n, ⟨type, c⟩, hrun, hr, rfl, hc⟩ | ⟨f, n, _, hrun, hr, rfl⟩
      · rw [hrun, hr]
        simp only [Option.bind_some, hc.next?, hc.found, Cursor.next?]
        cases c.rest <;> rfl
      · rw [hrun, hr]
        rfl

end Checked

end Scaffold
