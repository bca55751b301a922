/-
**Stretches of tokens.**

What is not read member by member is passed over in stretches: a group in brackets, a statement, a
default value, the rest of a header.  A stretch ends where a test says so outside of brackets; a
group that is never closed reaches to the end of the region.

Main definitions:

* `Scaffold.Bracket`, `Scaffold.Group` — a kind of bracket, and an open group of it;
* `Scaffold.Group.split` — the inside of a group, its closing bracket and what follows;
* `Scaffold.scan` — a stretch that ends at a test outside of brackets;
* `Scaffold.Cursor.statement`, `Scaffold.Cursor.skipStatement` — statements;
* `Scaffold.sourceText?` — the source text of a stretch.

Main results:

* `Scaffold.Group.split_append`, `Scaffold.scan_append` — no token is lost.
-/

import Scaffold.Source.Cursor
import Scaffold.Text.Blank
import Scaffold.Text.Slice

set_option relaxedAutoImplicit false
set_option autoImplicit false

namespace Scaffold

/-! ### Groups -/

/-- The kinds of brackets. -/
inductive Bracket where
  /-- Braces. -/
  | curly
  /-- Parentheses. -/
  | round
  /-- Square brackets. -/
  | square
  /-- Angle brackets. -/
  | angle
deriving DecidableEq, Repr

/-- The opening bracket of a kind. -/
def Bracket.opener : Bracket → Char
  | .curly => '{'
  | .round => '('
  | .square => '['
  | .angle => '<'

/-- The closing bracket of a kind. -/
def Bracket.closer : Bracket → Char
  | .curly => '}'
  | .round => ')'
  | .square => ']'
  | .angle => '>'

/-- The brackets that group expressions. -/
def Bracket.grouping : List Bracket := [.curly, .round, .square]

/-- An open group, inside which `inner` further groups of its kind are open. -/
structure Group where
  /-- The kind of bracket; brackets of other kinds do not count. -/
  bracket : Bracket
  /-- The number of further open groups. -/
  inner : Nat := 0

/-- The group that a token opens, if it is an opening bracket of one of the given kinds. -/
def Group.opened? (kinds : List Bracket) (t : Token) : Option Group :=
  (kinds.find? fun b => t.isMark b.opener).map fun b => { bracket := b }

/-- The group after one more token, unless the token closes it. -/
def Group.step (g : Group) (t : Token) : Option Group :=
  if t.isMark g.bracket.opener then some { g with inner := g.inner + 1 }
  else if t.isMark g.bracket.closer then
    match g.inner with
    | 0 => none
    | n + 1 => some { g with inner := n }
  else some g

/-- The inside of an open group, its closing bracket, and the tokens behind it. -/
def Group.split (g : Group) : List Token → Option (List Token × Token × List Token)
  | [] => none
  | t :: ts =>
    match g.step t with
    | none => some ([], t, ts)
    | some g => (Group.split g ts).map fun (inside, close, after) => (t :: inside, close, after)

theorem Group.split_append {g : Group} {ts inside after : List Token} {close : Token}
    (h : g.split ts = some (inside, close, after)) : inside ++ close :: after = ts := by
  induction ts generalizing g inside with
  | nil => simp [Group.split] at h
  | cons t ts ih =>
      simp only [Group.split] at h
      split at h
      · simp only [Option.some.injEq, Prod.mk.injEq] at h
        obtain ⟨rfl, rfl, rfl⟩ := h
        rfl
      · obtain ⟨⟨i, k, a⟩, hs, hp⟩ := Option.map_eq_some_iff.1 h
        simp only [Prod.mk.injEq] at hp
        obtain ⟨rfl, rfl, rfl⟩ := hp
        simp [ih hs]

/-- The place behind the group that the next token opens; a group that is not closed reaches to
the end of the region. -/
def Cursor.skipGroup (c : Cursor) : Cursor :=
  match c.rest with
  | [] => c
  | t :: ts =>
    match Group.opened? [.curly, .round, .square, .angle] t with
    | none => c.toEnd
    | some g =>
      match g.split ts with
      | some (_, close, after) => ⟨some close, after⟩
      | none => c.toEnd

/-- The place behind parentheses that touch the token before them, if there are any. -/
def Cursor.skipGluedParens (c : Cursor) : Cursor :=
  match c.prev, c.next? with
  | some prev, some next =>
    if next.isMark '(' && next.start == prev.stop then c.skipGroup else c
  | _, _ => c

/-! ### Stretches -/

/-- Divides tokens where `stop` holds outside of groups.  The test sees the state, the token and
the tokens behind it; the state is told every token outside of groups and every closing bracket. -/
def scan {σ : Type} (stop : σ → Token → List Token → Bool) (note : σ → Token → σ)
    (kinds : List Bracket) : σ → Option Group → List Token → List Token × List Token
  | _, _, [] => ([], [])
  | s, some g, t :: ts =>
    let parts := match g.step t with
      | none => scan stop note kinds (note s t) none ts
      | some g => scan stop note kinds s (some g) ts
    (t :: parts.1, parts.2)
  | s, none, t :: ts =>
    if stop s t ts then ([], t :: ts)
    else
      let parts := match Group.opened? kinds t with
        | some g => scan stop note kinds s (some g) ts
        | none => scan stop note kinds (note s t) none ts
      (t :: parts.1, parts.2)

theorem scan_append {σ : Type} (stop : σ → Token → List Token → Bool) (note : σ → Token → σ)
    (kinds : List Bracket) (s : σ) (g : Option Group) (ts : List Token) :
    (scan stop note kinds s g ts).1 ++ (scan stop note kinds s g ts).2 = ts := by
  induction ts generalizing s g with
  | nil => cases g <;> rfl
  | cons t ts ih =>
      cases g with
      | some g => simp only [scan]; split <;> simp [ih]
      | none =>
          simp only [scan]
          split
          · rfl
          · split <;> simp [ih]

/-- Whether the block that was just opened holds property observers. -/
def opensObservers (inside : List Token) : Bool :=
  match inside.find? fun t => !t.isComment with
  | some t => t.isWord "willSet" || t.isWord "didSet"
  | none => false

/-- Whether a token ends the statement whose last line so far is `last`: a semicolon or a closing
brace, a token on a later line that does not continue the expression, or, where `observers` is
set, a block of observers. -/
def endsStatement (observers : Bool) (last : Nat) (t : Token) (ts : List Token) : Bool :=
  t.isMark ';' || t.isMark '}' ||
    (last < t.line && !(t.isMark '.' || t.isArrow)) ||
    (observers && t.isMark '{' && opensObservers ts)

/-- The last line of a statement after one more token; comments do not count. -/
def noteLine (last : Nat) (t : Token) : Nat :=
  if t.isComment then last else t.line

/-- The tokens of the statement at the place, and those behind it. -/
def Cursor.statement (c : Cursor) (observers : Bool) : List Token × List Token :=
  scan (endsStatement observers) noteLine Bracket.grouping c.line none c.rest

/-- The place behind the statement, which is taken to have at least one token, and behind a
semicolon after it. -/
def Cursor.skipStatement (c : Cursor) : Cursor :=
  let parts := c.statement false
  let behind := if parts.1.isEmpty then c.advance else c.past parts.1 parts.2
  behind.skipMark ';'

/-- The place behind the at sign, the name and the glued parentheses of an attribute. -/
def Cursor.skipAttribute (c : Cursor) : Cursor :=
  let c := c.advance
  match c.word? with
  | some _ => c.advance.skipGluedParens
  | none => c

/-- The place behind a modifier such as `private(set)`. -/
def Cursor.skipModifier (c : Cursor) : Cursor := c.advance.skipGluedParens

/-- The place behind comments. -/
def Cursor.skipComments (c : Cursor) : Cursor :=
  c.past (c.rest.takeWhile Token.isComment) (c.rest.dropWhile Token.isComment)

/-! ### The text of a stretch -/

/-- The source text of tokens, without comments at the end and blanks at either end.  It does not
exist if the tokens lie outside the source. -/
def sourceText? (source : List Char) (tokens : List Token) : Option String :=
  match tokens.head?, tokens.reverse.find? fun t => !t.isComment with
  | some first, some last =>
    (Text.slice? source first.start last.stop).map fun cs => String.ofList (Text.trimChars cs)
  | _, _ => some ""

/-- The source text of tokens, with a failure where there is none. -/
def requireText (source : List Char) (tokens : List Token) (failure : Failure) :
    Except Halt String :=
  match sourceText? source tokens with
  | none => .error .misplaced
  | some text => if text.isEmpty then .error (.failure failure) else .ok text

/-- The value after an equals sign, up to the end of the statement. -/
def Cursor.expression (source : List Char) (c : Cursor) : Except Halt (String × Cursor) := do
  let parts := c.statement true
  let text ← requireText source parts.1 (c.fail .expectedDefault)
  return (text, c.past parts.1 parts.2)

/-- The value after an equals sign, up to the next comma or closing parenthesis. -/
def Cursor.argument (source : List Char) (c : Cursor) : Except Halt (String × Cursor) := do
  let parts := scan (fun _ t _ => t.isMark ',' || t.isMark ')') (fun (s : Unit) _ => s)
    Bracket.grouping () none c.rest
  let text ← requireText source parts.1 (c.fail .expectedDefault)
  return (text, c.past parts.1 parts.2)

end Scaffold
