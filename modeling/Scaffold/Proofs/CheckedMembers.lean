/-
**Members by positions.**

Members are read by moving a position, with every access that can fail written out.  A raw value of
an enumeration case is taken to be one token whether or not there is one, so that the position may
come to lie behind the end of the region.  Nothing is read there, and the region ends with the body
of the enumeration.

Main definitions:

* `Scaffold.Checked.method`, `Scaffold.Checked.initializer`, `Scaffold.Checked.property`,
  `Scaffold.Checked.cases` — the readers;
* `Scaffold.Checked.Nears` — a state stands at a place, or has passed the end of a region that is
  read.

Main results:

* `Scaffold.Checked.follows_method`, `Scaffold.Checked.follows_initializer`,
  `Scaffold.Checked.follows_property`, `Scaffold.Checked.follows_cases` — **members are the same**.
-/

import Scaffold.Proofs.CheckedTypes
import Scaffold.Source.Members

set_option relaxedAutoImplicit false
set_option autoImplicit false

namespace Scaffold.Checked

/-! ### Readers of members -/

/-- A reader whose failure is put down to a member unless it names one already. -/
def inMember {α : Type} (member : String) (x : Reader α) : Reader α := do
  match ← attempt x with
  | .ok a => return a
  | .error f => throw (f.inMember member)

section Readers

variable (i : Input)

/-- Reads the label and the name of the parameter with the given index. -/
def parameterName (index : Nat) : Reader (Option String × String) := do
  let first ← expectName i "parameter"
  let s ← get
  match i.word? s with
  | some second => do
    moveTo (s.pos + 1)
    return (if first = "_" then none else some first, second)
  | none =>
    if first = "_" then return (none, "arg" ++ toString index) else return (some first, first)

/-- Reads the default value behind an equals sign, if there is one. -/
def default? (value : Reader String) : Reader (Option String) := do
  if ← takeMark i '=' then
    let text ← value
    return some text
  else return none

/-- Reads the parameter with the given index. -/
def parameter (index : Nat) : Reader Parameter := do
  let (label, name) ← parameterName i index
  expectMark i ':'
  let isInout ← takeWord i "inout"
  let type ← type i
  let s ← get
  if i.atMark s '.' then throw (i.fail s (.variadic name))
  else
    let default ← default? i (argument i)
    return { label, name, type, default, isInout }

/-- Reads parameters in parentheses. -/
def parameters : Reader (List Parameter) := do
  expectMark i '('
  if ← takeMark i ')' then return []
  else separated i (parameter i) ')' (i.tokens.length + 1) 0

/-- Reads the result type behind an arrow, if there is one. -/
def result : Reader TypeRef := do
  let s ← get
  if i.atArrow s then
    moveTo (s.pos + 1)
    type i
  else return .void

/-- Reads a method signature behind its name. -/
def signature (name : String) : Reader Method := do
  let s ← get
  if i.atMark s '<' then throw (i.fail s .genericMethod)
  else
    let params ← parameters i
    let effects ← effects i
    let result ← result i
    let behind ← get
    if i.atWord behind "where" then throw (i.fail behind .genericMethod)
    else return { name, params, effects, result }

/-- Reads a method signature from its keyword on. -/
def method : Reader Method := do
  let s ← get
  moveTo (s.pos + 1)
  let name ← expectName i "method"
  inMember ("func " ++ name) (signature i name)

/-- Reads an initializer signature behind its keyword, which starts at a given state. -/
def initializerRest (s : State) : Reader Initializer := do
  let inside ← get
  if i.atMark inside '?' || i.atMark inside '!' then throw (i.fail s .failableInitializer)
  else if i.atMark inside '<' then throw (i.fail s .genericInitializer)
  else
    let params ← parameters i
    let effects ← effects i
    return { params, effects }

/-- Reads an initializer signature from its keyword on. -/
def initializer : Reader Initializer := do
  let s ← get
  moveTo (s.pos + 1)
  inMember "init" (initializerRest i s)

/-- Moves behind a body in braces, if there is one. -/
def skipBody : Reader Unit := do
  let s ← get
  if i.atMark s '{' then skipGroup i else return ()

/-- Reads a stored property behind its name; one with a block that holds no observers is computed,
and yields nothing. -/
def propertyRest (name : String) (isMutable : Bool) : Reader (Option Field) := do
  let s ← get
  if i.atMark s ',' then throw (i.fail s .multipleBindings)
  else if ← takeMark i ':' then
    let type ← type i
    let default ← default? i (expression i)
    let behind ← get
    if i.atMark behind '{' then
      let observers ← access (opensObserversAt i behind.stop behind.pos)
      skipGroup i
      return if observers then some { name, type, default, isMutable } else none
    else return some { name, type, default, isMutable }
  else throw (i.fail s .untypedProperty)

/-- Reads a stored property from its keyword on. -/
def property (word : String) : Reader (Option Field) := do
  let s ← get
  moveTo (s.pos + 1)
  let name ← expectName i "property"
  inMember (word ++ " " ++ name) (propertyRest i name (word == "var"))

/-- Moves behind the values that a case carries, and tells whether it carries any. -/
def caseValues : Reader Bool := do
  let s ← get
  if i.atMark s '(' then
    skipGroup i
    return true
  else return false

/-- Moves behind the raw value of a case, if there is an equals sign.  It is taken to be one token
with or without a sign, also where the region ends before it. -/
def skipRawValue : Reader Unit := do
  if ← takeMark i '=' then
    let _ ← takeMark i '-'
    let s ← get
    moveTo (s.pos + 1)
  else return ()

/-- Reads cases behind their keyword. -/
def casesFrom : (fuel : Nat) → Enumeration → Reader Enumeration
  | 0, _ => access none
  | fuel + 1, e => do
    let name ← expectName i "case"
    let carries ← caseValues i
    let e := { e with
      cases := e.cases ++ [name]
      hasAssociatedValues := e.hasAssociatedValues || carries }
    skipRawValue i
    if ← takeMark i ',' then casesFrom fuel e else return e

/-- Reads cases behind their keyword into an enumeration. -/
def cases (e : Enumeration) : Reader Enumeration := casesFrom i (i.tokens.length + 1) e

end Readers

/-! ### They follow the readers by places -/

section Lift

variable {α β : Type} {V : α → State → β → Prop} {s : State} {x : Reader α}

/-- A failure stops what it is part of. -/
theorem Follows.lift {r : Except Failure β} (h : Follows Eq V s x r) :
    Follows Stops V s x (liftM r : Except Halt β) := by
  rcases h with ⟨a, n, b, hrun, rfl, hab⟩ | ⟨f, n, _, hrun, rfl, rfl⟩
  · exact .inl ⟨a, n, b, hrun, rfl, hab⟩
  · exact .inr ⟨f, n, .failure f, hrun, rfl, rfl⟩

theorem Follows.inMember {r : Except Halt β} (member : String) (h : Follows Stops V s x r) :
    Follows Stops V s (Checked.inMember member x) (Scaffold.inMember member r) := by
  rcases h with ⟨a, n, b, hrun, rfl, hab⟩ | ⟨f, n, _, hrun, rfl, rfl⟩
  · exact .inl ⟨a, n, b, run_bind_of_ok (run_attempt hrun), rfl, hab⟩
  · exact .inr ⟨f.inMember member, n, _, run_bind_of_ok (run_attempt hrun), rfl, rfl⟩

end Lift

section Members

variable {i : Input} (hanchored : Anchored i.source i.tokens) {room least : Nat} {s : State}
  {c : Cursor} (h : Stands i room least s c)

theorem renders_parameterName (index : Nat) :
    Renders i room Eq (parameterName i index) (Cursor.parameterName index) := by
  intro least s c h
  refine (follows_expectName h "parameter").bind ?_
  rintro _ n ⟨first, c₁⟩ ⟨rfl, hc₁⟩
  refine .get ?_
  simp only [hc₁.word?]
  cases hword : c₁.word? with
  | some second => exact .moveTo (.pure ⟨rfl, hc₁.advance (next?_isSome_of_word? hword)⟩)
  | none =>
      simp only
      split
      · exact .pure ⟨rfl, hc₁⟩
      · exact .pure ⟨rfl, hc₁⟩

theorem renders_default? {value : Reader String} {value' : Cursor → Except Halt (String × Cursor)}
    (hvalue : Renders i room Stops value value') :
    Renders i room Stops (default? i value) (Cursor.default? value') := by
  intro least s c h
  refine h.takeMark ?_ ?_
  · intro c₁ hequals hc₁
    simp only [Cursor.default?, hequals, if_true]
    refine (hvalue hc₁).bind ?_
    rintro _ n ⟨text, c₂⟩ ⟨rfl, hc₂⟩
    exact .pure ⟨rfl, hc₂⟩
  · intro hequals
    simp only [Cursor.default?, hequals, Bool.false_eq_true, if_false]
    exact .pure ⟨rfl, h⟩

include h in
/-- Whether the block opened by the next token holds observers. -/
theorem Stands.opensObserversAt (hnext : c.next?.isSome = true) :
    Checked.opensObserversAt i s.stop s.pos = some (opensObservers c.advance.rest) := by
  obtain ⟨before, htake, hpos, -⟩ := h.exists_take
  obtain ⟨prev, rest⟩ := c
  cases rest with
  | nil => cases hnext
  | cons t ts => rw [hpos, opensObserversAt_eq htake h.stop_le, Cursor.advance]

include hanchored in
theorem renders_parameter (index : Nat) :
    Renders i room Stops (parameter i index) (Cursor.parameter i.source room index) := by
  intro least s c h
  have hargument : Renders i room Stops (argument i) (Cursor.argument i.source) :=
    fun _ _ _ h => follows_argument h hanchored
  refine (renders_parameterName index h).lift.bind ?_
  rintro _ n ⟨⟨label, name⟩, c₁⟩ ⟨rfl, hc₁⟩
  refine (follows_expectMark hc₁ ':').lift.bind ?_
  rintro _ m c₂ hc₂
  obtain ⟨k, hrun, hc₃⟩ := Stands.exists_run_takeWord hc₂ "inout"
  refine .of_run hrun ((renders_type i room hc₃).lift.bind ?_)
  rintro _ l ⟨type, c₄⟩ ⟨rfl, hc₄⟩
  refine .get ?_
  simp only [hc₄.atMark, hc₄.fail]
  split
  · exact .throw rfl
  refine (renders_default? hargument hc₄).bind ?_
  rintro _ j ⟨default, c₅⟩ ⟨rfl, hc₅⟩
  exact .pure ⟨rfl, hc₅⟩

include hanchored in
theorem renders_parameters :
    Renders i room Stops (parameters i) (Cursor.parameters i.source room) := by
  intro least s c h
  refine (follows_expectMark h '(').lift.bind ?_
  rintro _ n c₁ hc₁
  refine Stands.takeMark hc₁ ?_ ?_
  · intro c₂ hclose hc₂
    simp only [hclose, if_true]
    exact .pure ⟨rfl, hc₂⟩
  · intro hclose
    have hlength := Stands.stop_le hc₁
    simp only [hclose, Bool.false_eq_true, if_false]
    have hlift : ∀ f, Stops f (.failure f) := fun _ => rfl
    exact follows_separated hlift (renders_parameter hanchored) ')' 0 hc₁ (by omega)
      (Stands.stop_lt_fuel hc₁)

theorem renders_result : Renders i room Eq (result i) (Cursor.result room) := by
  intro least s c h
  refine .get ?_
  rw [h.atArrow, Cursor.result]
  split
  · next harrow => exact .moveTo (renders_type i room (h.advance (next?_isSome_of_any harrow)))
  · exact .pure ⟨rfl, h⟩

include hanchored in
theorem renders_signature (name : String) :
    Renders i room Stops (signature i name) (Cursor.signature i.source room name) := by
  intro least s c h
  refine .get ?_
  rw [h.atMark, h.fail, Cursor.signature]
  split
  · exact .throw rfl
  refine (renders_parameters hanchored h).bind ?_
  rintro _ n ⟨params, c₁⟩ ⟨rfl, hc₁⟩
  refine (follows_effects hc₁).lift.bind ?_
  rintro _ m ⟨effects, c₂⟩ ⟨rfl, hc₂⟩
  refine (renders_result hc₂).lift.bind ?_
  rintro _ k ⟨result, c₃⟩ ⟨rfl, hc₃⟩
  refine .get ?_
  simp only [hc₃.atWord, hc₃.fail]
  split
  · exact .throw rfl
  · exact .pure ⟨rfl, hc₃⟩

include hanchored h

theorem follows_method (hnext : c.next?.isSome = true) :
    Follows Stops (Reaches i room (s.pos + 1)) s (method i) (c.method i.source room) := by
  have hinside := (h.advance hnext).raise (Nat.le_refl _)
  refine .get (.moveTo ((follows_expectName hinside "method").lift.bind ?_))
  rintro _ n ⟨name, c₁⟩ ⟨rfl, hc₁⟩
  exact (renders_signature hanchored name hc₁).inMember _

theorem follows_initializer (hnext : c.next?.isSome = true) :
    Follows Stops (Reaches i room (s.pos + 1)) s (initializer i) (c.initializer i.source room) := by
  have hinside := (h.advance hnext).raise (Nat.le_refl _)
  refine .get (.moveTo (Follows.inMember "init" (.get ?_)))
  simp only [hinside.atMark, h.fail]
  split
  · exact .throw rfl
  split
  · exact .throw rfl
  refine (renders_parameters hanchored hinside).bind ?_
  rintro _ n ⟨params, c₁⟩ ⟨rfl, hc₁⟩
  refine (follows_effects hc₁).lift.bind ?_
  rintro _ m ⟨effects, c₂⟩ ⟨rfl, hc₂⟩
  exact .pure ⟨rfl, hc₂⟩

theorem follows_propertyRest (name : String) (isMutable : Bool) :
    Follows Stops (Reaches i room least) s (propertyRest i name isMutable)
      (c.propertyRest i.source room name isMutable) := by
  have hexpression : Renders i room Stops (expression i) (Cursor.expression i.source) :=
    fun _ _ _ h => follows_expression h hanchored
  refine .get ?_
  rw [h.atMark, h.fail, h.fail, Cursor.propertyRest]
  split
  · exact .throw rfl
  refine h.takeMark ?_ ?_
  · intro c₁ hcolon hc₁
    simp only [hcolon, if_true]
    refine (renders_type i room hc₁).lift.bind ?_
    rintro _ n ⟨type, c₂⟩ ⟨rfl, hc₂⟩
    refine (renders_default? hexpression hc₂).bind ?_
    rintro _ m ⟨default, c₃⟩ ⟨rfl, hc₃⟩
    refine .get ?_
    simp only [hc₃.atMark]
    cases hopen : c₃.atMark '{' with
    | true =>
        have hnext := next?_isSome_of_any hopen
        refine .access (hc₃.opensObserversAt hnext) ((movesTo_skipGroup hc₃ hnext).bind ?_)
        intro k hc₄
        exact .pure ⟨rfl, hc₄⟩
    | false => exact .pure ⟨rfl, hc₃⟩
  · intro hcolon
    simp only [hcolon, Bool.false_eq_true, if_false]
    exact .throw rfl

theorem follows_property (hnext : c.next?.isSome = true) (word : String) :
    Follows Stops (Reaches i room (s.pos + 1)) s (property i word)
      (c.property i.source room word) := by
  have hinside := (h.advance hnext).raise (Nat.le_refl _)
  refine .get (.moveTo ((follows_expectName hinside "property").lift.bind ?_))
  rintro _ n ⟨name, c₁⟩ ⟨rfl, hc₁⟩
  exact (follows_propertyRest hanchored hc₁ name (word == "var")).inMember _

omit hanchored

theorem movesTo_skipBody : MovesTo i room least s (skipBody i) c.skipBody := by
  refine .get ?_
  rw [h.atMark, Cursor.skipBody]
  split
  · next hopen => exact movesTo_skipGroup h (next?_isSome_of_any hopen)
  · exact .stay h

end Members

/-! ### Cases -/

/-- A state stands at a place, or has passed the end of a region of which nothing is left. -/
def Nears (i : Input) (room least : Nat) (s : State) (c : Cursor) : Prop :=
  Stands i room least s c ∨ c.rest = [] ∧ s.stop < s.pos

section Nears

variable {ε α β : Type} {E : Failure → ε → Prop} {V : α → State → β → Prop} {r : Except ε β}
  {i : Input} {room least : Nat} {s : State} {c : Cursor}

theorem Nears.next? (h : Nears i room least s c) : i.next? s = c.next? := by
  rcases h with h | ⟨hrest, hpassed⟩
  · exact h.next?
  · rw [Input.next?, Input.peekAt, if_neg (by omega), Cursor.next?, hrest, List.head?_nil]

/-- Where something is left, the end of the region was not passed. -/
theorem Nears.stands (h : Nears i room least s c) (hnext : c.next?.isSome = true) :
    Stands i room least s c := by
  rcases h with h | ⟨hrest, -⟩
  · exact h
  · rw [Cursor.next?, hrest] at hnext
    cases hnext

theorem Nears.takeMark {m : Char} {k : Bool → Reader α} (h : Nears i room least s c)
    (hsome : ∀ c', c.mark? m = some c' → Stands i room least (s.to (s.pos + 1)) c' →
      Follows E V (s.to (s.pos + 1)) (k true) r)
    (hnone : c.mark? m = none → Follows E V s (k false) r) :
    Follows E V s (Checked.takeMark i m >>= k) r := by
  cases hat : c.atMark m with
  | true => exact (h.stands (next?_isSome_of_any hat)).takeMark hsome hnone
  | false =>
      have hrun := run_takeMark (i := i) (s := s) m
      have hat' : i.atMark s m = false := by rw [Input.atMark, h.next?, ← Cursor.atMark, hat]
      rw [hat', if_neg Bool.false_ne_true] at hrun
      exact .of_run hrun (hnone (by rw [Cursor.mark?, hat, if_neg Bool.false_ne_true]))

variable (h : Stands i room least s c)

include h

theorem follows_caseValues :
    Follows E (fun carries s x => x.1 = carries ∧ Stands i room least s x.2) s (caseValues i)
      (.ok c.caseValues) := by
  refine .get ?_
  rw [h.atMark, Cursor.caseValues]
  split
  · next hopen =>
      refine (movesTo_skipGroup h (next?_isSome_of_any hopen)).bind ?_
      intro n hc₁
      exact .pure ⟨rfl, hc₁⟩
  · exact .pure ⟨rfl, h⟩

/-- A raw value is passed over.  Its token may be missing, and then the end of the region is
passed. -/
theorem exists_run_skipRawValue :
    ∃ n, (skipRawValue i).run.run s = some (.ok (), s.to n) ∧
      Nears i room least (s.to n) c.skipRawValue := by
  have hfollows : Follows Eq (fun _ s c => Nears i room least s c) s (skipRawValue i)
      (.ok c.skipRawValue : Except Failure Cursor) := by
    refine h.takeMark ?_ ?_
    · intro c₁ hequals hc₁
      simp only [Cursor.skipRawValue, hequals, if_true]
      have hpast : ∀ {s₂ : State} {c₂ : Cursor}, Stands i room least s₂ c₂ →
          Nears i room least (s₂.to (s₂.pos + 1)) c₂.advance := by
        intro s₂ c₂ hc₂
        cases hnext : c₂.next? with
        | none =>
            obtain ⟨prev, rest⟩ := c₂
            obtain rfl := List.head?_eq_none_iff.1 hnext
            have hstop := hc₂.stop_eq
            exact .inr ⟨rfl, by simp at hstop; simp; omega⟩
        | some t => exact .inl (hc₂.advance (by rw [hnext]; rfl))
      refine hc₁.takeMark ?_ ?_
      · intro c₂ hminus hc₂
        simp only [Cursor.skipMark, hminus, Option.getD_some]
        exact .get (.moveTo (.pure (hpast hc₂)))
      · intro hminus
        simp only [Cursor.skipMark, hminus, Option.getD_none]
        exact .get (.moveTo (.pure (hpast hc₁)))
    · intro hequals
      simp only [Cursor.skipRawValue, hequals]
      exact .pure (.inl h)
  rcases hfollows with ⟨_, n, _, hrun, heq, hnear⟩ | ⟨_, _, _, _, heq, _⟩
  · cases heq
    exact ⟨n, hrun, hnear⟩
  · cases heq

omit h

theorem follows_casesFrom {fuel fuel' : Nat} (e : Enumeration) (h : Stands i room least s c)
    (hfuel : s.stop < s.pos + fuel) (hfuel' : s.stop < s.pos + fuel') :
    Follows Eq (fun e s x => x.1 = e ∧ Nears i room least s x.2) s (casesFrom i fuel e)
      (Cursor.casesFrom fuel' e c) := by
  have hstop := h.stop_eq
  induction fuel generalizing fuel' e s c with
  | zero => omega
  | succ fuel ih =>
      obtain ⟨fuel', rfl⟩ : ∃ n, fuel' = n + 1 := ⟨fuel' - 1, by omega⟩
      refine (follows_expectName (h.raise (Nat.le_refl _)) "case").bind ?_
      rintro _ n ⟨name, c₁⟩ ⟨rfl, hc₁⟩
      refine (follows_caseValues hc₁).bind_ok ?_
      rintro _ m ⟨rfl, hc₂⟩
      obtain ⟨k, hrun, hc₃⟩ := exists_run_skipRawValue hc₂
      refine .of_run hrun (hc₃.takeMark ?_ ?_)
      · intro c₄ hcomma hc₄
        have hat := (Option.ite_none_right_eq_some.1 hcomma).1
        have hleast := (hc₃.stands (next?_isSome_of_any hat)).least
        simp only [State.pos_to, State.to_to] at hleast hc₄ ⊢
        simp only [hcomma, if_true]
        exact ih _ (hc₄.lower h.least) (by simp; omega) (by simp; omega) hc₄.stop_eq
      · intro hcomma
        simp only [hcomma, Bool.false_eq_true, if_false]
        exact .pure ⟨rfl, hc₃.imp (·.lower h.least) id⟩

/-- **Cases are the same.** -/
theorem follows_cases (e : Enumeration) (h : Stands i room least s c) :
    Follows Eq (fun e s x => x.1 = e ∧ Nears i room least s x.2) s (cases i e) (c.cases e) := by
  have hlength := h.stop_le
  exact follows_casesFrom e h (by omega) h.stop_lt_fuel

end Nears

end Scaffold.Checked
