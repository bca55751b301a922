/-
**Tokens of declaration source.**

Bodies of members are never looked into, so expressions only need identifiers, literals and single
punctuation marks.  Line comments are tokens because tags live in them; block comments are
not.  Every token knows the bytes it covers and the line it starts on.

Main definitions:

* `Scaffold.TokenKind`, `Scaffold.Token` — the tokens;
* `Scaffold.Token.isWord`, `Scaffold.Token.isMark`, `Scaffold.Token.word?` — the questions that
  readers ask of a token;
* `Scaffold.LexError` — a literal or comment without an end.
-/

set_option relaxedAutoImplicit false
set_option autoImplicit false

namespace Scaffold

/-- What a token is, with the text that matters later. -/
inductive TokenKind where
  /-- An identifier or keyword, without the backticks it may be written in. -/
  | word (name : String)
  /-- A line comment, without its slashes and the blanks around it. -/
  | comment (body : String)
  /-- A string literal. -/
  | literal
  /-- A number. -/
  | number
  /-- The arrow before a result type. -/
  | arrow
  /-- Any other character, which stands for itself. -/
  | mark (c : Char)
deriving DecidableEq, Repr

/-- A token with the byte offsets of its two ends and the number of the line it starts on. -/
structure Token where
  /-- What the token is. -/
  kind : TokenKind
  /-- The offset of its first byte. -/
  start : Nat
  /-- The offset after its last byte. -/
  stop : Nat
  /-- The line of its first character, counted from one. -/
  line : Nat
deriving DecidableEq, Repr

namespace Token

/-- Whether the token is the given word. -/
def isWord (t : Token) (w : String) : Bool :=
  match t.kind with
  | .word v => v == w
  | _ => false

/-- Whether the token is the given punctuation mark. -/
def isMark (t : Token) (c : Char) : Bool :=
  match t.kind with
  | .mark d => d == c
  | _ => false

/-- Whether the token is the arrow. -/
def isArrow (t : Token) : Bool :=
  match t.kind with
  | .arrow => true
  | _ => false

/-- Whether the token is a line comment. -/
def isComment (t : Token) : Bool :=
  match t.kind with
  | .comment _ => true
  | _ => false

/-- The word that the token is, if it is one. -/
def word? (t : Token) : Option String :=
  match t.kind with
  | .word w => some w
  | _ => none

/-- Whether the token is a word of a list. -/
def isWordIn (t : Token) (ws : List String) : Bool :=
  match t.kind with
  | .word w => ws.contains w
  | _ => false

end Token

/-- What a source text may leave open. -/
inductive Unclosed where
  /-- A string literal. -/
  | literal
  /-- A block comment. -/
  | comment
deriving DecidableEq, Repr

/-- A literal or comment that starts on a line and has no end. -/
structure LexError where
  /-- What is left open. -/
  unclosed : Unclosed
  /-- The line on which it starts. -/
  line : Nat
deriving DecidableEq, Repr

/-- The wording of a missing end. -/
def LexError.message (e : LexError) : String :=
  match e.unclosed with
  | .literal => "unterminated string literal starting on line " ++ toString e.line
  | .comment => "unterminated block comment starting on line " ++ toString e.line

end Scaffold
