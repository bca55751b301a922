/-
**A place among tokens.**

A reader works on a region of tokens: a whole unit, or the body of a declaration.  A cursor holds
the tokens of the region that are still to be read and the token before them, which the reader
needs to tell on which line it is and whether two tokens touch.

Main definitions:

* `Scaffold.Cursor` — the place, with the questions a reader asks of it;
* `Scaffold.Failure`, `Scaffold.Halt` — why reading stops;
* `Scaffold.Cursor.expectMark`, `Scaffold.Cursor.expectName` — reading one token;
* `Scaffold.Cursor.separated` — reading a list in brackets.
-/

import Scaffold.Problem.Reason

set_option relaxedAutoImplicit false
set_option autoImplicit false

namespace Scaffold

/-- A place in a region of tokens. -/
structure Cursor where
  /-- The token before the place, which may lie outside the region. -/
  prev : Option Token
  /-- The tokens of the region from the place on. -/
  rest : List Token
deriving DecidableEq, Repr

/-- Why a member or a declaration cannot be read. -/
structure Failure where
  /-- The member that is at fault, once it is known. -/
  member : Option String := none
  /-- What is wrong. -/
  reason : Reason
  /-- The line to report. -/
  line : Nat
deriving DecidableEq, Repr

/-- The failure, put down to a member unless it names one already. -/
def Failure.inMember (member : String) (f : Failure) : Failure :=
  { f with member := some (f.member.getD member) }

/-- Why reading stops early: something cannot be read, or a token lies outside the source text
from which its words are to be copied. -/
inductive Halt where
  /-- Something cannot be read. -/
  | failure (f : Failure)
  /-- A token lies outside the source text. -/
  | misplaced
deriving DecidableEq, Repr

/-- The stop, put down to a member unless it names one already. -/
def Halt.inMember (member : String) : Halt → Halt
  | .failure f => .failure (f.inMember member)
  | .misplaced => .misplaced

/-- The result of a reader, with a failure put down to a member. -/
def inMember {α : Type} (member : String) (r : Except Halt α) : Except Halt α :=
  r.mapError (Halt.inMember member)

instance : MonadLift (Except Failure) (Except Halt) := ⟨fun r => r.mapError Halt.failure⟩

namespace Cursor

/-- The place before the first of all tokens. -/
def start (tokens : List Token) : Cursor := ⟨none, tokens⟩

/-- The next token. -/
def next? (c : Cursor) : Option Token := c.rest.head?

/-- The next token as far as a message tells it. -/
def found (c : Cursor) : Option TokenKind := c.next?.map Token.kind

/-- The place behind the next token. -/
def advance : Cursor → Cursor
  | ⟨prev, []⟩ => ⟨prev, []⟩
  | ⟨_, t :: ts⟩ => ⟨some t, ts⟩

/-- The place behind tokens that were taken from the front, with those that are left. -/
def past (c : Cursor) (taken left : List Token) : Cursor :=
  ⟨taken.getLast?.or c.prev, left⟩

/-- The end of the region. -/
def toEnd (c : Cursor) : Cursor := c.past c.rest []

/-- The line of the next token, or at the end of the region that of the token before. -/
def line (c : Cursor) : Nat :=
  match c.next?.or c.prev with
  | some t => t.line
  | none => 0

/-- Whether the next token is a given word. -/
def atWord (c : Cursor) (w : String) : Bool := c.next?.any (·.isWord w)

/-- Whether the next token is a given mark. -/
def atMark (c : Cursor) (m : Char) : Bool := c.next?.any (·.isMark m)

/-- Whether the next token is the arrow. -/
def atArrow (c : Cursor) : Bool := c.next?.any Token.isArrow

/-- The next token if it is a word. -/
def word? (c : Cursor) : Option String := c.next?.bind Token.word?

/-- The token after the next one, if it is a word. -/
def secondWord? (c : Cursor) : Option String := c.advance.word?

/-- Takes a given mark if it is next. -/
def mark? (c : Cursor) (m : Char) : Option Cursor :=
  if c.atMark m then some c.advance else none

/-- Takes a given mark if it is next, and stays otherwise. -/
def skipMark (c : Cursor) (m : Char) : Cursor := (c.mark? m).getD c

/-- Takes a given word if it is next. -/
def keyword? (c : Cursor) (w : String) : Option Cursor :=
  if c.atWord w then some c.advance else none

/-- A failure at the place. -/
def fail (c : Cursor) (reason : Reason) : Failure := { reason := reason, line := c.line }

/-- Takes a mark that has to follow. -/
def expectMark (c : Cursor) (m : Char) : Except Failure Cursor :=
  match c.mark? m with
  | some c => .ok c
  | none => .error (c.fail (.expectedMark m c.found))

/-- Takes a name that has to follow. -/
def expectName (c : Cursor) (role : String) : Except Failure (String × Cursor) :=
  match c.word? with
  | some w => .ok (w, c.advance)
  | none => .error (c.fail (.expectedName role c.found))

/-- Reads items with commas between them up to a closing mark; `item` is told the number of the
items before it.  Every item takes a token, so `fuel` need not exceed the tokens left by more
than one. -/
def separated {ε α : Type} (lift : Failure → ε) (item : Nat → Cursor → Except ε (α × Cursor))
    (close : Char) : (fuel index : Nat) → Cursor → Except ε (List α × Cursor)
  | 0, _, c => .error (lift (c.fail (.expectedMark close c.found)))
  | fuel + 1, index, c =>
    match item index c with
    | .error e => .error e
    | .ok (x, c) =>
      match c.mark? ',' with
      | some c =>
        match separated lift item close fuel (index + 1) c with
        | .error e => .error e
        | .ok (xs, c) => .ok (x :: xs, c)
      | none =>
        match c.expectMark close with
        | .error f => .error (lift f)
        | .ok c => .ok ([x], c)

end Cursor

end Scaffold
