/-
**Readers by positions.**

A reader by positions keeps its position, the end of its region, how deeply it is nested, and what
was read so far.  It yields nothing where an access fails.  A state stands at a place of its region:
the tokens between the position and the end are those that the place has left.  A reader by
positions follows a reader by places if, from a state and the place at which it stands, both yield
the same value, and the state reached stands at the place reached, or both fail alike.

Main definitions:

* `Scaffold.Checked.State`, `Scaffold.Checked.Reader` — what a reader keeps, and readers;
* `Scaffold.Checked.Stands` — the place at which a state stands;
* `Scaffold.Checked.Follows`, `Scaffold.Checked.MovesTo` — following a reader, and a movement;
* `Scaffold.Checked.skipGroup`, `Scaffold.Checked.skipStatement` — moving on by positions;
* `Scaffold.Checked.expression`, `Scaffold.Checked.argument` — default values by positions.

Main results:

* `Scaffold.Checked.Follows.bind`, `Scaffold.Checked.MovesTo.bind` — following step by step;
* `Scaffold.Checked.movesTo_skipStatement` — **movements reach the same places**;
* `Scaffold.Checked.follows_expression`, `Scaffold.Checked.follows_argument` — values are the same.
-/

import Scaffold.Proofs.CheckedStretches
import Scaffold.Source.Outcome

set_option relaxedAutoImplicit false
set_option autoImplicit false

namespace Scaffold.Checked

/-- What a reader keeps. -/
structure State where
  /-- The index of the next token. -/
  pos : Nat
  /-- The index behind the last token of the region. -/
  stop : Nat
  /-- How many types and declarations are open around the position. -/
  depth : Nat := 0
  /-- What was read so far. -/
  outcome : Outcome := {}

/-- The state at another position. -/
def State.to (s : State) (n : Nat) : State := { s with pos := n }

namespace State

@[simp] theorem pos_to (s : State) (n : Nat) : (s.to n).pos = n := rfl

@[simp] theorem stop_to (s : State) (n : Nat) : (s.to n).stop = s.stop := rfl

@[simp] theorem depth_to (s : State) (n : Nat) : (s.to n).depth = s.depth := rfl

@[simp] theorem outcome_to (s : State) (n : Nat) : (s.to n).outcome = s.outcome := rfl

@[simp] theorem to_to (s : State) (m n : Nat) : (s.to m).to n = s.to n := rfl

@[simp] theorem to_pos (s : State) : s.to s.pos = s := rfl

end State

/-- A reader yields a value or fails, and keeps a state; it yields nothing where an access fails. -/
abbrev Reader (α : Type) := ExceptT Failure (StateT State Option) α

/-- An access that may fail. -/
def access {α : Type} (x : Option α) : Reader α := ExceptT.lift (StateT.lift x)

/-- Moves to a position. -/
def moveTo (n : Nat) : Reader Unit := modify (·.to n)

/-- A reader whose failure is kept as a value. -/
def attempt {α : Type} (x : Reader α) : Reader (Except Failure α) := ExceptT.lift x.run

/-! ### What stands at a position -/

namespace Input

variable (i : Input) (s : State)

/-- A token ahead of the position, if it belongs to the region. -/
def peekAt (offset : Nat) : Option Token :=
  if s.pos + offset < s.stop then i.tokens[s.pos + offset]? else none

/-- The next token. -/
def next? : Option Token := i.peekAt s 0

/-- The token before the position, which may lie outside the region. -/
def previous? : Option Token := if s.pos = 0 then none else i.tokens[s.pos - 1]?

/-- The line of the next token, or at the end of the region that of the token before. -/
def line : Nat := ((i.next? s).or i.tokens[s.pos - 1]?).elim 0 Token.line

/-- The next token as far as a message tells it. -/
def found : Option TokenKind := (i.next? s).map Token.kind

/-- Whether the next token is a given word. -/
def atWord (w : String) : Bool := (i.next? s).any (·.isWord w)

/-- Whether the next token is a given mark. -/
def atMark (m : Char) : Bool := (i.next? s).any (·.isMark m)

/-- Whether the next token is the arrow. -/
def atArrow : Bool := (i.next? s).any Token.isArrow

/-- The next token if it is a word. -/
def word? : Option String := (i.next? s).bind Token.word?

/-- The token after the next one, if it is a word. -/
def secondWord? : Option String := (i.peekAt s 1).bind Token.word?

/-- A failure at the position. -/
def fail (reason : Reason) : Failure := { reason := reason, line := i.line s }

end Input

/-- A state stands at a place of its region, at a position from `least` on, with `room` more levels
of nesting left. -/
structure Stands (i : Input) (room least : Nat) (s : State) (c : Cursor) : Prop where
  /-- The tokens before the place, those left of the region and those behind it. -/
  parts : ∃ before behind, i.tokens = before ++ c.rest ++ behind ∧ s.pos = before.length ∧
    s.stop = before.length + c.rest.length ∧ c.prev = before.getLast? ∧
    (before = [] → behind = [])
  /-- The nesting so far and the room left make up the bound. -/
  depth : s.depth + room = maxNesting
  /-- The position is not before the given one. -/
  least : least ≤ s.pos

namespace Stands

variable {i : Input} {room least : Nat} {s : State} {c : Cursor} (h : Stands i room least s c)

include h

theorem raise {m : Nat} (hle : m ≤ s.pos) : Stands i room m s c := ⟨h.parts, h.depth, hle⟩

theorem lower {m : Nat} (hle : m ≤ least) : Stands i room m s c :=
  h.raise (Nat.le_trans hle h.least)

theorem stop_eq : s.stop = s.pos + c.rest.length := by
  obtain ⟨before, behind, -, hpos, hstop, -⟩ := h.parts
  rw [hstop, hpos]

theorem stop_lt_fuel : s.stop < s.pos + (c.rest.length + 1) := by
  have := h.stop_eq
  omega

theorem stop_le : s.stop ≤ i.tokens.length := by
  obtain ⟨before, behind, htokens, -, hstop, -⟩ := h.parts
  rw [htokens, hstop]
  simp

theorem length_lt : c.rest.length < i.tokens.length + 1 := by
  have := h.stop_eq
  have := h.stop_le
  omega

/-- The tokens up to the end of the region are those before the place and those left. -/
theorem exists_take : ∃ before, i.tokens.take s.stop = before ++ c.rest ∧ s.pos = before.length ∧
    c.prev = before.getLast? := by
  obtain ⟨before, behind, htokens, hpos, hstop, hprev, -⟩ := h.parts
  refine ⟨before, ?_, hpos, hprev⟩
  rw [htokens, hstop, ← List.length_append, List.take_left]

theorem peekAt (offset : Nat) : i.peekAt s offset = c.rest[offset]? := by
  obtain ⟨before, behind, htokens, hpos, hstop, -⟩ := h.parts
  rw [Input.peekAt]
  split
  · next hlt =>
      rw [htokens, List.append_assoc, hpos, List.getElem?_append_right (by omega),
        Nat.add_sub_cancel_left, List.getElem?_append_left (by omega)]
  · rw [List.getElem?_eq_none (by omega)]

theorem next? : i.next? s = c.next? := by
  rw [Input.next?, h.peekAt, Cursor.next?, List.head?_eq_getElem?]

theorem getElem?_prev (hpos : s.pos ≠ 0) : i.tokens[s.pos - 1]? = c.prev := by
  obtain ⟨before, behind, htokens, hlength, -, hprev, -⟩ := h.parts
  rw [hprev, htokens, List.append_assoc, List.getLast?_eq_getElem?, hlength,
    List.getElem?_append_left (by omega)]

theorem previous? : i.previous? s = c.prev := by
  rw [Input.previous?]
  split
  · next hpos =>
      obtain ⟨before, behind, -, hlength, -, hprev, -⟩ := h.parts
      rw [hprev, List.length_eq_zero_iff.1 (hlength.symm.trans hpos), List.getLast?_nil]
  · next hpos => exact h.getElem?_prev hpos

theorem line : i.line s = c.line := by
  have hline : i.line s = ((c.next?).or c.prev).elim 0 Token.line := by
    rw [Input.line, h.next?]
    by_cases hpos : s.pos = 0
    · -- at the start, a region without tokens is all there is
      obtain ⟨before, behind, htokens, hlength, -, hprev, hbehind⟩ := h.parts
      obtain rfl := List.length_eq_zero_iff.1 (hlength.symm.trans hpos)
      obtain rfl := hbehind rfl
      rw [hprev, Cursor.next?]
      cases hrest : c.rest with
      | nil =>
          rw [hrest] at htokens
          rw [htokens]
          rfl
      | cons t ts => rfl
    · rw [h.getElem?_prev hpos]
  rw [hline, Cursor.line]
  cases (c.next?).or c.prev <;> rfl

theorem found : i.found s = c.found := by rw [Input.found, h.next?, Cursor.found]

theorem atWord (w : String) : i.atWord s w = c.atWord w := by
  rw [Input.atWord, h.next?, Cursor.atWord]

theorem atMark (m : Char) : i.atMark s m = c.atMark m := by
  rw [Input.atMark, h.next?, Cursor.atMark]

theorem atArrow : i.atArrow s = c.atArrow := by rw [Input.atArrow, h.next?, Cursor.atArrow]

theorem word? : i.word? s = c.word? := by rw [Input.word?, h.next?, Cursor.word?]

theorem secondWord? : i.secondWord? s = c.secondWord? := by
  rw [Input.secondWord?, h.peekAt, Cursor.secondWord?, Cursor.word?, Cursor.next?]
  obtain ⟨prev, rest⟩ := c
  cases rest with
  | nil => rfl
  | cons t ts => cases ts <;> rfl

theorem fail (reason : Reason) : i.fail s reason = c.fail reason := by
  rw [Input.fail, h.line, Cursor.fail]

/-- Behind the next tokens of the region. -/
theorem past {taken left : List Token} (hparts : taken ++ left = c.rest) :
    Stands i room least (s.to (s.pos + taken.length)) (c.past taken left) := by
  obtain ⟨before, behind, htokens, hpos, hstop, hprev, hbehind⟩ := h.parts
  have hleast := h.least
  refine ⟨⟨before ++ taken, behind, ?_, ?_, ?_, ?_, ?_⟩, h.depth, ?_⟩
  · rw [htokens, ← hparts]
    simp [Cursor.past]
  · rw [State.pos_to, hpos, List.length_append]
  · rw [State.stop_to, hstop, ← hparts]
    simp [Cursor.past, Nat.add_assoc]
  · rw [Cursor.past, hprev, List.getLast?_append]
  · intro hnil
    exact hbehind (List.append_eq_nil_iff.1 hnil).1
  · rw [State.pos_to]
    omega

/-- Behind the next token. -/
theorem advance (hnext : c.next?.isSome = true) :
    Stands i room least (s.to (s.pos + 1)) c.advance := by
  obtain ⟨prev, rest⟩ := c
  cases rest with
  | nil => cases hnext
  | cons t ts => exact h.past (show [t] ++ ts = t :: ts from rfl)

/-- At the end of the region. -/
theorem toEnd : Stands i room least (s.to s.stop) c.toEnd := by
  have hpast := h.past (List.append_nil c.rest)
  rwa [← h.stop_eq] at hpast

end Stands

/-! ### Following a reader -/

section Run

variable {α β : Type} {x : Reader α} {k : α → Reader β} {s s' : State}

theorem run_bind_of_ok {a : α} (h : x.run.run s = some (.ok a, s')) :
    (x >>= k).run.run s = (k a).run.run s' := by
  change (x.run.run s).bind _ = _
  rw [h]
  rfl

theorem run_bind_of_error {f : Failure} (h : x.run.run s = some (.error f, s')) :
    (x >>= k).run.run s = some (.error f, s') := by
  change (x.run.run s).bind _ = _
  rw [h]
  rfl

theorem run_attempt {r : Except Failure α} (h : x.run.run s = some (r, s')) :
    (attempt x).run.run s = some (.ok r, s') := by
  change (x.run.run s).bind _ = _
  rw [h]
  rfl

theorem run_access {y : Option α} {a : α} (h : y = some a) (s : State) :
    (access y).run.run s = some (.ok a, s) := by
  rw [h]
  rfl

end Run

/-- A reader follows a result from a state: both yield values that agree, where only the position
has changed, or both fail with errors that agree.  No access fails. -/
def Follows {ε α β : Type} (E : Failure → ε → Prop) (V : α → State → β → Prop) (s : State)
    (x : Reader α) (r : Except ε β) : Prop :=
  (∃ a n b, x.run.run s = some (.ok a, s.to n) ∧ r = .ok b ∧ V a (s.to n) b) ∨
    ∃ f n e, x.run.run s = some (.error f, s.to n) ∧ r = .error e ∧ E f e

/-- A movement reaches a place from a state. -/
def MovesTo (i : Input) (room least : Nat) (s : State) (x : Reader Unit) (c : Cursor) : Prop :=
  ∃ n, x.run.run s = some (.ok (), s.to n) ∧ Stands i room least (s.to n) c

section Follows

variable {ε α β γ δ : Type} {E : Failure → ε → Prop} {V : α → State → β → Prop}
  {W : γ → State → δ → Prop} {s : State} {x : Reader α} {r : Except ε β}

theorem Follows.pure {a : α} {b : β} (h : V a s b) :
    Follows E V s (Pure.pure a) (.ok b : Except ε β) :=
  .inl ⟨a, s.pos, b, rfl, rfl, h⟩

theorem Follows.throw {f : Failure} {e : ε} (h : E f e) :
    Follows E V s (MonadExcept.throw f) (.error e : Except ε β) :=
  .inr ⟨f, s.pos, e, rfl, rfl, h⟩

theorem Follows.bind {k : α → Reader γ} {k' : β → Except ε δ} (h : Follows E V s x r)
    (hk : ∀ a n b, V a (s.to n) b → Follows E W (s.to n) (k a) (k' b)) :
    Follows E W s (x >>= k) (r >>= k') := by
  rcases h with ⟨a, n, b, hrun, rfl, hab⟩ | ⟨f, n, e, hrun, rfl, hfe⟩
  · rcases hk a n b hab with ⟨c, m, d, hrun', hr', hcd⟩ | ⟨f, m, e, hrun', hr', hfe⟩
    · exact .inl ⟨c, m, d, (run_bind_of_ok hrun).trans hrun', hr', hcd⟩
    · exact .inr ⟨f, m, e, (run_bind_of_ok hrun).trans hrun', hr', hfe⟩
  · exact .inr ⟨f, n, e, run_bind_of_error hrun, rfl, hfe⟩

theorem Follows.of_run {y : Reader γ} {a : γ} {n : Nat} {k : γ → Reader α}
    (hrun : y.run.run s = some (.ok a, s.to n)) (h : Follows E V (s.to n) (k a) r) :
    Follows E V s (y >>= k) r := by
  rcases h with ⟨c, m, b, hrun', hr, hcb⟩ | ⟨f, m, e, hrun', hr, hfe⟩
  · exact .inl ⟨c, m, b, (run_bind_of_ok hrun).trans hrun', hr, hcb⟩
  · exact .inr ⟨f, m, e, (run_bind_of_ok hrun).trans hrun', hr, hfe⟩

theorem Follows.bind_ok {y : Reader γ} {k : γ → Reader α} {b : δ}
    (h : Follows E W s y (.ok b : Except ε δ))
    (hk : ∀ a n, W a (s.to n) b → Follows E V (s.to n) (k a) r) : Follows E V s (y >>= k) r := by
  rcases h with ⟨a, n, _, hrun, heq, hab⟩ | ⟨f, n, e, -, heq, -⟩
  · cases heq
    exact .of_run hrun (hk a n hab)
  · cases heq

theorem Follows.get {k : State → Reader α} (h : Follows E V s (k s) r) :
    Follows E V s (MonadState.get >>= k) r := h

theorem Follows.moveTo {n : Nat} {k : Unit → Reader α} (h : Follows E V (s.to n) (k ()) r) :
    Follows E V s (Checked.moveTo n >>= k) r := h

theorem Follows.access {y : Option γ} {a : γ} {k : γ → Reader α} (hy : y = some a)
    (h : Follows E V s (k a) r) : Follows E V s (Checked.access y >>= k) r := by
  subst hy
  exact h

theorem Follows.accessed {y : Option α} {a : α} {b : β} (hy : y = some a) (h : V a s b) :
    Follows E V s (Checked.access y) (.ok b : Except ε β) := by
  subst hy
  exact .pure h

theorem MovesTo.bind {i : Input} {room least : Nat} {y : Reader Unit} {c : Cursor}
    {k : Unit → Reader α} (h : MovesTo i room least s y c)
    (hk : ∀ n, Stands i room least (s.to n) c → Follows E V (s.to n) (k ()) r) :
    Follows E V s (y >>= k) r := by
  obtain ⟨n, hrun, hc⟩ := h
  exact .of_run hrun (hk n hc)

end Follows

section MovesTo

variable {i : Input} {room least : Nat} {s : State} {c c' : Cursor} {x : Reader Unit}

theorem MovesTo.trans {k : Unit → Reader Unit} (h : MovesTo i room least s x c)
    (hk : ∀ n, Stands i room least (s.to n) c → MovesTo i room least (s.to n) (k ()) c') :
    MovesTo i room least s (x >>= k) c' := by
  obtain ⟨n, hrun, hc⟩ := h
  obtain ⟨m, hrun', hc'⟩ := hk n hc
  exact ⟨m, (run_bind_of_ok hrun).trans hrun', hc'⟩

theorem MovesTo.lower (h : MovesTo i room least s x c) {m : Nat} (hle : m ≤ least) :
    MovesTo i room m s x c := by
  obtain ⟨n, hrun, hc⟩ := h
  exact ⟨n, hrun, hc.lower hle⟩

theorem MovesTo.get {k : State → Reader Unit} (h : MovesTo i room least s (k s) c) :
    MovesTo i room least s (MonadState.get >>= k) c := h

theorem MovesTo.moveTo {n : Nat} {k : Unit → Reader Unit}
    (h : MovesTo i room least (s.to n) (k ()) c) :
    MovesTo i room least s (Checked.moveTo n >>= k) c := h

theorem MovesTo.access {α : Type} {y : Option α} {a : α} {k : α → Reader Unit} (hy : y = some a)
    (h : MovesTo i room least s (k a) c) :
    MovesTo i room least s (Checked.access y >>= k) c := by
  subst hy
  exact h

theorem movesTo_moveTo {n : Nat} (h : Stands i room least (s.to n) c) :
    MovesTo i room least s (moveTo n) c :=
  ⟨n, rfl, h⟩

theorem MovesTo.stay (h : Stands i room least s c) : MovesTo i room least s (pure ()) c :=
  ⟨s.pos, rfl, h⟩

end MovesTo

/-! ### Reading one token -/

section Readers

variable (i : Input)

/-- Takes a given mark if it is next, and tells whether it was. -/
def takeMark (m : Char) : Reader Bool := do
  let s ← get
  if i.atMark s m then
    moveTo (s.pos + 1)
    return true
  else return false

/-- Takes a given word if it is next, and tells whether it was. -/
def takeWord (w : String) : Reader Bool := do
  let s ← get
  if i.atWord s w then
    moveTo (s.pos + 1)
    return true
  else return false

/-- Takes a mark that has to follow. -/
def expectMark (m : Char) : Reader Unit := do
  if ← takeMark i m then return ()
  else
    let s ← get
    throw (i.fail s (.expectedMark m (i.found s)))

/-- Takes a name that has to follow. -/
def expectName (role : String) : Reader String := do
  let s ← get
  match i.word? s with
  | some w => do
    moveTo (s.pos + 1)
    return w
  | none => throw (i.fail s (.expectedName role (i.found s)))

/-! ### Groups, attributes and modifiers -/

/-- Moves behind the group that the next token opens; a group that is not closed reaches to the end
of the region. -/
def skipGroup : Reader Unit := do
  let s ← get
  match ← access (i.closing? s.stop s.pos) with
  | some close => moveTo (close + 1)
  | none => moveTo s.stop

/-- Moves behind parentheses that touch the token before them, if there are any. -/
def skipGluedParens : Reader Unit := do
  let s ← get
  let glued := match i.previous? s, i.next? s with
    | some prev, some next => next.isMark '(' && next.start == prev.stop
    | _, _ => false
  if glued then skipGroup i else return ()

/-- Moves behind the at sign, the name and the glued parentheses of an attribute. -/
def skipAttribute : Reader Unit := do
  let s ← get
  moveTo (s.pos + 1)
  let s ← get
  match i.word? s with
  | some _ => do
    moveTo (s.pos + 1)
    skipGluedParens i
  | none => return ()

/-- Moves behind a modifier such as `private(set)`. -/
def skipModifier : Reader Unit := do
  let s ← get
  moveTo (s.pos + 1)
  skipGluedParens i

/-! ### Statements and values -/

/-- Whether the block opened at an index holds property observers. -/
def opensObserversAt (stop index : Nat) : Option Bool := do
  let inside ← range? i.tokens (index + 1) stop
  some (opensObservers inside)

/-- Whether a token ends the statement at the position, whose last line so far is `last`. -/
def endsStatementAt (observers : Bool) (s : State) (last index : Nat) (t : Token) :
    Option Bool :=
  if t.isMark ';' || t.isMark '}' then some true
  else if s.pos < index && last < t.line && !(t.isMark '.' || t.isArrow) then some true
  else if observers && t.isMark '{' then opensObserversAt i s.stop index
  else some false

/-- The index at which the statement at the position ends. -/
def statementEnd (observers : Bool) (s : State) : Option Nat :=
  match i.next? s with
  | some t =>
    i.stretchEnd s.stop Bracket.grouping (endsStatementAt i observers s) noteLine
      (i.tokens.length + 1) t.line s.pos
  | none => some s.pos

/-- Moves behind the statement, which is taken to have at least one token, and behind a semicolon
after it. -/
def skipStatement : Reader Unit := do
  let s ← get
  let stop ← access (statementEnd i false s)
  moveTo (min (max stop (s.pos + 1)) s.stop)
  let _ ← takeMark i ';'
  return ()

/-- Reads the source text from the position of a state on to an index, where there has to be one. -/
def textTo (s : State) (stop : Nat) : Reader String := do
  moveTo stop
  let text ← access (i.sourceText s.pos stop)
  if text.isEmpty then throw (i.fail s .expectedDefault) else return text

/-- Reads the value after an equals sign, up to the end of the statement. -/
def expression : Reader String := do
  let s ← get
  let stop ← access (statementEnd i true s)
  textTo i s stop

/-- Reads the value after an equals sign, up to the next comma or closing parenthesis. -/
def argument : Reader String := do
  let s ← get
  let stop ← access (i.stretchEnd s.stop Bracket.grouping
    (fun _ _ t => some (t.isMark ',' || t.isMark ')')) (fun (x : Unit) _ => x)
    (i.tokens.length + 1) () s.pos)
  textTo i s stop

end Readers

/-! ### They follow the readers by places -/

/-- What was read is the same, and the state stands at the place reached. -/
def Reaches (i : Input) (room least : Nat) {α : Type} (a : α) (s : State) (x : α × Cursor) : Prop :=
  x.1 = a ∧ Stands i room least s x.2

/-- The state stands at the place reached. -/
def Arrives (i : Input) (room least : Nat) (_ : Unit) (s : State) (c : Cursor) : Prop :=
  Stands i room least s c

/-- A failure stops what it is part of. -/
def Stops (f : Failure) (h : Halt) : Prop := h = .failure f

theorem next?_isSome_of_any {c : Cursor} {p : Token → Bool} (h : c.next?.any p = true) :
    c.next?.isSome = true := by
  cases hnext : c.next? with
  | none =>
      rw [hnext] at h
      cases h
  | some t => rfl

theorem next?_isSome_of_word? {c : Cursor} {w : String} (h : c.word? = some w) :
    c.next?.isSome = true := by
  cases hnext : c.next? with
  | none =>
      rw [Cursor.word?, hnext] at h
      cases h
  | some t => rfl

/-- Whether the block opened by a token of the region holds observers is asked of what follows. -/
theorem opensObserversAt_eq {i : Input} {stop : Nat} {before ts : List Token} {t : Token}
    (h : i.tokens.take stop = before ++ t :: ts) (hstop : stop ≤ i.tokens.length) :
    opensObserversAt i stop before.length = some (opensObservers ts) := by
  have hbehind : i.tokens.take stop = (before ++ [t]) ++ ts := by
    rw [h, List.append_assoc]
    rfl
  have hrange := range?_of_take hbehind hstop
  rw [List.length_append, List.length_singleton] at hrange
  rw [opensObserversAt, hrange]
  rfl

section Steps

variable {ε α β : Type} {E : Failure → ε → Prop} {V : α → State → β → Prop} {r : Except ε β}
  {i : Input} {room least : Nat} {s : State} {c : Cursor} (h : Stands i room least s c)

theorem run_takeMark (m : Char) :
    (takeMark i m).run.run s =
      some (.ok (i.atMark s m), s.to (if i.atMark s m then s.pos + 1 else s.pos)) := by
  change ((if i.atMark s m then _ else _ : Reader Bool)).run.run s = _
  cases i.atMark s m <;> rfl

theorem run_takeWord (w : String) :
    (takeWord i w).run.run s =
      some (.ok (i.atWord s w), s.to (if i.atWord s w then s.pos + 1 else s.pos)) := by
  change ((if i.atWord s w then _ else _ : Reader Bool)).run.run s = _
  cases i.atWord s w <;> rfl

include h

/-- A mark is taken where it is next. -/
theorem Stands.run_takeMark (m : Char) :
    (∃ c', c.mark? m = some c' ∧
      (Checked.takeMark i m).run.run s = some (.ok true, s.to (s.pos + 1)) ∧
      Stands i room least (s.to (s.pos + 1)) c') ∨
    c.mark? m = none ∧ (Checked.takeMark i m).run.run s = some (.ok false, s) := by
  have hrun := Checked.run_takeMark (i := i) (s := s) m
  rw [h.atMark] at hrun
  cases hat : c.atMark m with
  | true =>
      rw [hat, if_pos rfl] at hrun
      exact .inl ⟨c.advance, if_pos hat, hrun, h.advance (next?_isSome_of_any hat)⟩
  | false =>
      rw [hat, if_neg Bool.false_ne_true] at hrun
      exact .inr ⟨if_neg (by simp [hat]), hrun⟩

/-- A word is taken where it is next. -/
theorem Stands.run_takeWord (w : String) :
    (∃ c', c.keyword? w = some c' ∧
      (Checked.takeWord i w).run.run s = some (.ok true, s.to (s.pos + 1)) ∧
      Stands i room least (s.to (s.pos + 1)) c') ∨
    c.keyword? w = none ∧ (Checked.takeWord i w).run.run s = some (.ok false, s) := by
  have hrun := Checked.run_takeWord (i := i) (s := s) w
  rw [h.atWord] at hrun
  cases hat : c.atWord w with
  | true =>
      rw [hat, if_pos rfl] at hrun
      exact .inl ⟨c.advance, if_pos hat, hrun, h.advance (next?_isSome_of_any hat)⟩
  | false =>
      rw [hat, if_neg Bool.false_ne_true] at hrun
      exact .inr ⟨if_neg (by simp [hat]), hrun⟩

/-- Whether a mark is next is the same question at the place. -/
theorem Stands.takeMark {m : Char} {k : Bool → Reader α}
    (hsome : ∀ c', c.mark? m = some c' → Stands i room least (s.to (s.pos + 1)) c' →
      Follows E V (s.to (s.pos + 1)) (k true) r)
    (hnone : c.mark? m = none → Follows E V s (k false) r) :
    Follows E V s (Checked.takeMark i m >>= k) r := by
  rcases h.run_takeMark m with ⟨c', hmark, hrun, hc'⟩ | ⟨hmark, hrun⟩
  · exact .of_run hrun (hsome c' hmark hc')
  · exact .of_run hrun (hnone hmark)

/-- Whether a word is next is the same question at the place. -/
theorem Stands.takeWord {w : String} {k : Bool → Reader α}
    (hsome : ∀ c', c.keyword? w = some c' → Stands i room least (s.to (s.pos + 1)) c' →
      Follows E V (s.to (s.pos + 1)) (k true) r)
    (hnone : c.keyword? w = none → Follows E V s (k false) r) :
    Follows E V s (Checked.takeWord i w >>= k) r := by
  rcases h.run_takeWord w with ⟨c', hword, hrun, hc'⟩ | ⟨hword, hrun⟩
  · exact .of_run hrun (hsome c' hword hc')
  · exact .of_run hrun (hnone hword)

/-- A word that may be next is passed over alike, if it is. -/
theorem Stands.exists_run_takeWord (w : String) :
    ∃ n, (Checked.takeWord i w).run.run s = some (.ok (c.atWord w), s.to n) ∧
      Stands i room least (s.to n) (if c.atWord w then c.advance else c) := by
  have hrun := Checked.run_takeWord (i := i) (s := s) w
  rw [h.atWord] at hrun
  refine ⟨_, hrun, ?_⟩
  split
  · next hat => exact h.advance (next?_isSome_of_any hat)
  · exact h

theorem follows_expectMark (m : Char) :
    Follows Eq (Arrives i room least) s (expectMark i m) (c.expectMark m) := by
  rw [Cursor.expectMark]
  refine h.takeMark ?_ ?_
  · intro c' hmark hc'
    rw [hmark]
    exact .pure hc'
  · intro hmark
    simp only [hmark, Bool.false_eq_true, if_false]
    refine .get ?_
    rw [h.found, h.fail]
    exact .throw rfl

theorem follows_expectName (role : String) :
    Follows Eq (Reaches i room least) s (expectName i role) (c.expectName role) := by
  refine .get ?_
  rw [h.word?, Cursor.expectName]
  cases hword : c.word? with
  | some w =>
      exact .moveTo (.pure ⟨rfl, h.advance (next?_isSome_of_word? hword)⟩)
  | none =>
      rw [h.found, h.fail]
      exact .throw rfl

/-! ### Movements -/

/-- Behind the bracket that closes the group opened by the next token. -/
theorem Stands.close {t close : Token} {ts inside after : List Token} {g : Group}
    (hrest : c.rest = t :: ts) (hsplit : g.split ts = some (inside, close, after)) :
    Stands i room least (s.to (s.pos + 1 + inside.length + 1)) ⟨some close, after⟩ := by
  have hparts : (t :: inside ++ [close]) ++ after = c.rest := by
    rw [hrest, ← Group.split_append hsplit]
    simp
  have hpast := h.past hparts
  have hlength : s.pos + (t :: inside ++ [close]).length = s.pos + 1 + inside.length + 1 := by
    rw [List.length_append, List.length_cons, List.length_singleton]
    omega
  rwa [hlength, Cursor.past, List.getLast?_concat, Option.some_or] at hpast

/-- The group opened by the next token is closed at the same place. -/
theorem Stands.closing? {t : Token} {ts : List Token} {g : Group} (hrest : c.rest = t :: ts)
    (hopen : Group.opened? [.curly, .round, .square, .angle] t = some g) :
    i.closing? s.stop s.pos = some ((g.split ts).map fun parts => s.pos + 1 + parts.1.length) := by
  obtain ⟨before, htake, hpos, -⟩ := h.exists_take
  rw [hrest] at htake
  rw [hpos, Input.closing?_eq htake h.stop_le hopen]

theorem movesTo_skipGroup (hnext : c.next?.isSome = true) :
    MovesTo i room least s (skipGroup i) c.skipGroup := by
  cases hrest : c.rest with
  | nil => simp [Cursor.next?, hrest] at hnext
  | cons t ts =>
      have hget : i.tokens[s.pos]? = some t := by
        obtain ⟨before, htake, hpos, -⟩ := h.exists_take
        rw [hrest] at htake
        rw [hpos, (getElem?_of_take htake).1]
      simp only [Cursor.skipGroup, hrest]
      refine .get ?_
      cases hopen : Group.opened? [.curly, .round, .square, .angle] t with
      | none =>
          have hclosing : i.closing? s.stop s.pos = some none := by
            simp only [Input.closing?, hget, Option.bind_some, hopen]
          refine .access hclosing ?_
          exact movesTo_moveTo h.toEnd
      | some g =>
          refine .access (h.closing? hrest hopen) ?_
          cases hsplit : g.split ts with
          | none =>
              simp only [hsplit]
              exact movesTo_moveTo h.toEnd
          | some parts =>
              obtain ⟨inside, close, after⟩ := parts
              simp only [hsplit]
              exact movesTo_moveTo (h.close hrest hsplit)

theorem movesTo_skipGluedParens :
    MovesTo i room least s (skipGluedParens i) c.skipGluedParens := by
  refine .get ?_
  simp only [h.previous?, h.next?, Cursor.skipGluedParens]
  cases c.prev with
  | none => exact .stay h
  | some prev =>
      cases hnext : c.next? with
      | none => exact .stay h
      | some next =>
          simp only
          split
          · exact movesTo_skipGroup h (by rw [hnext]; rfl)
          · exact .stay h

theorem movesTo_skipAttribute (hnext : c.next?.isSome = true) :
    MovesTo i room (s.pos + 1) s (skipAttribute i) c.skipAttribute := by
  have hadvance := (h.advance hnext).raise (Nat.le_refl _)
  refine .get (.moveTo (.get ?_))
  simp only [hadvance.word?, Cursor.skipAttribute]
  cases hword : c.advance.word? with
  | none => exact .stay hadvance
  | some w =>
      have hnext' : c.advance.next?.isSome = true := next?_isSome_of_word? hword
      exact .moveTo (movesTo_skipGluedParens (hadvance.advance hnext'))

theorem movesTo_skipModifier (hnext : c.next?.isSome = true) :
    MovesTo i room (s.pos + 1) s (skipModifier i) c.skipModifier :=
  .get (.moveTo (movesTo_skipGluedParens ((h.advance hnext).raise (Nat.le_refl _))))

/-- The statement at the position ends at the same place. -/
theorem statementEnd_eq (observers : Bool) :
    statementEnd i observers s = some (s.pos + (c.statement observers).1.length) := by
  rw [statementEnd, h.next?, Cursor.statement]
  obtain ⟨before, htake, hpos, -⟩ := h.exists_take
  cases hrest : c.rest with
  | nil =>
      simp only [Cursor.next?, hrest]
      rfl
  | cons t ts =>
      have hline : c.line = t.line := by
        rw [Cursor.line, Cursor.next?, hrest]
        rfl
      have hlength := h.length_lt
      rw [hrest] at htake hlength
      simp only [Cursor.next?, hrest, List.head?_cons, hline, hpos]
      refine Input.stretchEnd_eq
        (fun y x us => y = x ∧ (before.length < us.length ∨ us = before ∧ x = t.line))
        h.stop_le ?_ ?_ ⟨rfl, .inr ⟨rfl, rfl⟩⟩ htake hlength
      · rintro last _ us u vs ⟨rfl, hwhere⟩ husplit
        have hinside := opensObserversAt_eq husplit h.stop_le
        -- the first token is on the line on which the statement starts
        have hlater : (decide (before.length < us.length) && decide (last < u.line)) =
            decide (last < u.line) := by
          rcases hwhere with hlt | ⟨rfl, rfl⟩
          · rw [decide_eq_true hlt, Bool.true_and]
          · rw [htake] at husplit
            obtain ⟨rfl, -⟩ := List.cons.inj (List.append_cancel_left husplit)
            simp
        rw [endsStatementAt, endsStatement, hpos, hlater, hinside]
        cases u.isMark ';' || u.isMark '}' <;>
          cases decide (last < u.line) && !(u.isMark '.' || u.isArrow) <;>
          cases observers && u.isMark '{' <;> rfl
      · rintro last _ us mid u vs ⟨rfl, hwhere⟩ -
        refine ⟨rfl, .inl ?_⟩
        rw [List.length_append, List.length_append, List.length_singleton]
        rcases hwhere with hlt | ⟨rfl, -⟩ <;> omega

theorem movesTo_takeMark (m : Char) :
    MovesTo i room least s (do let _ ← takeMark i m; return ()) (c.skipMark m) := by
  have hrun := run_takeMark (i := i) (s := s) m
  rw [h.atMark] at hrun
  refine ⟨_, run_bind_of_ok hrun, ?_⟩
  rw [Cursor.skipMark, Cursor.mark?]
  cases hat : c.atMark m with
  | true => exact h.advance (next?_isSome_of_any hat)
  | false => exact h

/-- A statement takes a token where there is one. -/
theorem movesTo_skipStatement_min :
    MovesTo i room (min (s.pos + 1) s.stop) s (skipStatement i) c.skipStatement := by
  have hparts : (c.statement false).1 ++ (c.statement false).2 = c.rest := scan_append _ _ _ _ _ _
  have hstop := h.stop_eq
  have hbehind : Stands i room least
      (s.to (min (max (s.pos + (c.statement false).1.length) (s.pos + 1)) s.stop))
      (if (c.statement false).1.isEmpty then c.advance
        else c.past (c.statement false).1 (c.statement false).2) := by
    cases htaken : (c.statement false).1 with
    | nil =>
        cases hrest : c.rest with
        | nil =>
            have hstay : min (max (s.pos + 0) (s.pos + 1)) s.stop = s.pos := by
              rw [hrest, List.length_nil] at hstop
              omega
            have hadvance : c.advance = c := by
              obtain ⟨prev, rest⟩ := c
              cases hrest
              rfl
            rw [List.isEmpty_nil, if_pos rfl, List.length_nil, hstay, hadvance]
            exact h
        | cons t ts =>
            have hnext : min (max (s.pos + 0) (s.pos + 1)) s.stop = s.pos + 1 := by
              rw [hrest, List.length_cons] at hstop
              omega
            rw [List.isEmpty_nil, if_pos rfl, List.length_nil, hnext]
            exact h.advance (by rw [Cursor.next?, hrest]; rfl)
    | cons t ts =>
        have hlength := congrArg List.length hparts
        rw [htaken, List.length_append, List.length_cons] at hlength
        have hpast : min (max (s.pos + (t :: ts).length) (s.pos + 1)) s.stop =
            s.pos + (t :: ts).length := by
          rw [List.length_cons]
          omega
        rw [hpast]
        exact h.past (htaken ▸ hparts)
  have hprogress := hbehind.raise (m := min (s.pos + 1) s.stop) (by rw [State.pos_to]; omega)
  exact .get (.access (statementEnd_eq h false) (.moveTo (movesTo_takeMark hprogress ';')))

theorem movesTo_skipStatement : MovesTo i room least s (skipStatement i) c.skipStatement := by
  have hstop := h.stop_eq
  have hleast := h.least
  exact (movesTo_skipStatement_min h).lower (by omega)

theorem movesTo_skipStatement_of_next? (hnext : c.next?.isSome = true) :
    MovesTo i room (s.pos + 1) s (skipStatement i) c.skipStatement := by
  have hstop := h.stop_eq
  refine (movesTo_skipStatement_min h).lower ?_
  obtain ⟨prev, rest⟩ := c
  cases rest with
  | nil => cases hnext
  | cons t ts =>
      rw [List.length_cons] at hstop
      omega

/-- The source text up to an index is that of the tokens taken. -/
theorem Stands.exists_sourceText {taken left : List Token} (hparts : taken ++ left = c.rest)
    (hanchored : Anchored i.source i.tokens) :
    ∃ text, i.sourceText s.pos (s.pos + taken.length) = some text ∧
      sourceText? i.source taken = some text := by
  obtain ⟨before, behind, htokens, hpos, -⟩ := h.parts
  have htext : i.tokens = before ++ taken ++ (left ++ behind) := by
    rw [htokens, ← hparts]
    simp
  rw [hpos]
  exact Input.sourceText_eq hanchored htext

theorem follows_textTo {taken left : List Token} (hparts : taken ++ left = c.rest)
    (hanchored : Anchored i.source i.tokens) :
    Follows Stops (Reaches i room least) s (textTo i s (s.pos + taken.length)) (do
      let text ← requireText i.source taken (c.fail .expectedDefault)
      return (text, c.past taken left)) := by
  obtain ⟨text, hsource, hsource'⟩ := h.exists_sourceText hparts hanchored
  refine .moveTo (.access hsource ?_)
  simp only [requireText, hsource', h.fail]
  split
  · exact .throw rfl
  · exact .pure ⟨rfl, h.past hparts⟩

theorem follows_expression (hanchored : Anchored i.source i.tokens) :
    Follows Stops (Reaches i room least) s (expression i) (c.expression i.source) := by
  refine .get (.access (statementEnd_eq h true) ?_)
  exact follows_textTo h (scan_append _ _ _ _ _ _) hanchored

theorem follows_argument (hanchored : Anchored i.source i.tokens) :
    Follows Stops (Reaches i room least) s (argument i) (c.argument i.source) := by
  obtain ⟨before, htake, hpos, -⟩ := h.exists_take
  refine .get (.access ?_ (follows_textTo h (scan_append _ _ _ _ _ _) hanchored))
  rw [hpos]
  exact Input.stretchEnd_eq (fun _ _ _ => True) h.stop_le (fun _ _ _ _ _ _ _ => rfl)
    (fun _ _ _ _ _ _ _ _ => trivial) trivial htake h.length_lt

end Steps

end Scaffold.Checked
