/-
**From source text to tokens.**

The source is taken apart from the front.  Each step looks at the first characters, decides what
starts there and how far it reaches, and goes on behind it.

Main definitions:

* `Scaffold.Lexer.Extent` — how far something reaches, and the line feeds counted on the way;
* `Scaffold.Lexer.munch` — what starts at the front of a non-empty text;
* `Scaffold.tokenize` — the tokens of a whole text.

Main results:

* `Scaffold.Lexer.munch_taken_append` — what is taken and what is left make up the text;
* `Scaffold.Lexer.munch_taken_ne_nil` — every step takes a character.
-/

import Scaffold.Text.Affix
import Scaffold.Text.Blank
import Scaffold.Text.Letter
import Scaffold.Text.Slice
import Scaffold.Token.Basic

set_option relaxedAutoImplicit false
set_option autoImplicit false

namespace Scaffold

namespace Lexer

open Text

/-- The characters that something covers, the line feeds among them that count as line ends, and
the characters behind it. -/
structure Extent where
  /-- The characters covered. -/
  taken : List Char
  /-- The line ends counted among them. -/
  newlines : Nat
  /-- The characters behind. -/
  rest : List Char

/-- The extent that starts one character earlier. -/
def Extent.cons (c : Char) (e : Extent) : Extent :=
  { e with taken := c :: e.taken }

/-- The extent that starts with one more line feed. -/
def Extent.newline (e : Extent) : Extent :=
  { e with taken := '\n' :: e.taken, newlines := e.newlines + 1 }

/-- Reaches behind the end of a block comment inside which `depth` further comments are open. -/
def blockComment : Nat → List Char → Option Extent
  | _, [] => none
  | depth, '/' :: '*' :: cs => (blockComment (depth + 1) cs).map fun e => (e.cons '*').cons '/'
  | 0, '*' :: '/' :: cs => some ⟨['*', '/'], 0, cs⟩
  | depth + 1, '*' :: '/' :: cs => (blockComment depth cs).map fun e => (e.cons '/').cons '*'
  | depth, '\n' :: cs => (blockComment depth cs).map Extent.newline
  | depth, c :: cs => (blockComment depth cs).map (Extent.cons c)

/-- How a string literal is written. -/
structure LiteralForm where
  /-- Whether a hash stands outside each of its quotes, so that a backslash means itself. -/
  raw : Bool
  /-- Whether it is written in three quotes and may span lines. -/
  multiline : Bool

/-- The characters that open or close a literal, without a hash. -/
def LiteralForm.quotes (f : LiteralForm) : List Char :=
  if f.multiline then ['\x22', '\x22', '\x22'] else ['\x22']

/-- The characters that end a literal. -/
def LiteralForm.terminator (f : LiteralForm) : List Char :=
  f.quotes ++ (if f.raw then ['#'] else [])

/-- Reaches behind the end of a literal whose opening quotes are taken.  A backslash takes the
character after it along, a line feed included, which then counts as no line end. -/
def literalBody (f : LiteralForm) : List Char → Option Extent
  | [] => none
  | c :: cs =>
    match after? f.terminator (c :: cs) with
    | some rest => some ⟨f.terminator, 0, rest⟩
    | none =>
      if c = '\\' ∧ f.raw = false then
        -- the next character can neither end the literal nor the line
        match cs with
        | [] => none
        | d :: ds => (literalBody f ds).map fun e => (e.cons d).cons c
      else if c = '\n' then
        if f.multiline then (literalBody f cs).map Extent.newline else none
      else (literalBody f cs).map (Extent.cons c)

/-- The form of the literal whose first quote is at the front. -/
def literalForm (raw : Bool) (cs : List Char) : LiteralForm :=
  ⟨raw, ['\x22', '\x22', '\x22'].isPrefixOf cs⟩

/-- Reaches behind the literal whose first quote is at the front. -/
def literal (raw : Bool) (cs : List Char) : Option Extent :=
  let f := literalForm raw cs
  (literalBody f (cs.drop f.quotes.length)).map fun e => { e with taken := f.quotes ++ e.taken }

/-- Whether a decimal digit is at the front. -/
def startsWithDigit : List Char → Bool
  | c :: _ => c.isDigit
  | [] => false

/-- Divides a text behind the number that is at the front: ASCII letters and digits, underscores,
and points before a digit. -/
def number : List Char → List Char × List Char
  | [] => ([], [])
  | c :: cs =>
    if c.isAlphanum || c == '_' || (c == '.' && startsWithDigit cs) then
      let parts := number cs
      (c :: parts.1, parts.2)
    else ([], c :: cs)

/-- The body of a line comment: the text without its leading slashes and the blanks around it. -/
def commentBody (cs : List Char) : String :=
  String.ofList (trimChars (cs.dropWhile (· == '/')))

/-- What starts at the front of a text and how far it reaches; blanks and block comments are no
token. -/
structure Munch where
  /-- The token, if it is one. -/
  kind? : Option TokenKind
  /-- How far it reaches. -/
  extent : Extent

/-- The line comment at the front. -/
def lineComment (cs : List Char) : Munch :=
  let body := cs.takeWhile (· != '\n')
  ⟨some (.comment (commentBody body)), body, 0, cs.dropWhile (· != '\n')⟩

/-- The identifier in backticks whose first backtick is taken; the line's end also ends it. -/
def quotedName (cs : List Char) : Munch :=
  let inside := fun c => c != '\x60' && c != '\n'
  let name := cs.takeWhile inside
  match cs.dropWhile inside with
  | '\x60' :: rest => ⟨some (.word (String.ofList name)), '\x60' :: (name ++ ['\x60']), 0, rest⟩
  | rest => ⟨some (.word (String.ofList name)), '\x60' :: name, 0, rest⟩

/-- What starts at the front of the text `c :: cs`. -/
def munch (c : Char) (cs : List Char) : Except Unclosed Munch :=
  if isBlank c then
    let blanks := c :: cs.takeWhile isBlank
    .ok ⟨none, blanks, blanks.count '\n', cs.dropWhile isBlank⟩
  else if c = '/' ∧ cs.head? = some '/' then
    .ok (lineComment (c :: cs))
  else if c = '/' ∧ cs.head? = some '*' then
    match blockComment 0 cs.tail with
    | some e => .ok ⟨none, (e.cons '*').cons '/'⟩
    | none => .error .comment
  else if c = '\x22' then
    match literal false (c :: cs) with
    | some e => .ok ⟨some .literal, e⟩
    | none => .error .literal
  else if c = '#' ∧ cs.head? = some '\x22' then
    match literal true cs with
    | some e => .ok ⟨some .literal, e.cons '#'⟩
    | none => .error .literal
  else if c = '\x60' then
    .ok (quotedName cs)
  else if c.isDigit then
    let parts := number (c :: cs)
    .ok ⟨some .number, parts.1, 0, parts.2⟩
  else if startsName c then
    let name := c :: cs.takeWhile continuesName
    .ok ⟨some (.word (String.ofList name)), name, 0, cs.dropWhile continuesName⟩
  else if c = '-' ∧ cs.head? = some '>' then
    .ok ⟨some .arrow, ['-', '>'], 0, cs.tail⟩
  else
    .ok ⟨some (.mark c), [c], 0, cs⟩

/-! ### Nothing is lost -/

theorem blockComment_append {depth : Nat} {cs : List Char} {e : Extent}
    (h : blockComment depth cs = some e) : e.taken ++ e.rest = cs := by
  fun_induction blockComment depth cs generalizing e with
  | case1 => simp at h
  | case2 depth cs ih =>
      obtain ⟨f, hf, rfl⟩ := Option.map_eq_some_iff.1 h
      simp [Extent.cons, ih hf]
  | case3 cs =>
      obtain rfl := Option.some.inj h
      rfl
  | case4 depth cs ih =>
      obtain ⟨f, hf, rfl⟩ := Option.map_eq_some_iff.1 h
      simp [Extent.cons, ih hf]
  | case5 depth cs ih =>
      obtain ⟨f, hf, rfl⟩ := Option.map_eq_some_iff.1 h
      simp [Extent.newline, ih hf]
  | case6 depth c cs _ _ _ _ ih =>
      obtain ⟨f, hf, rfl⟩ := Option.map_eq_some_iff.1 h
      simp [Extent.cons, ih hf]

theorem literalBody_append {f : LiteralForm} {cs : List Char} {e : Extent}
    (h : literalBody f cs = some e) : e.taken ++ e.rest = cs := by
  fun_induction literalBody f cs generalizing e with
  | case1 => simp at h
  | case2 c cs rest hp =>
      obtain rfl := Option.some.inj h
      exact append_of_after? hp
  | case3 => simp at h
  | case4 c _ _ d ds ih =>
      obtain ⟨g, hg, rfl⟩ := Option.map_eq_some_iff.1 h
      simp [Extent.cons, ih hg]
  | case5 cs _ _ _ ih =>
      obtain ⟨g, hg, rfl⟩ := Option.map_eq_some_iff.1 h
      simp [Extent.newline, ih hg]
  | case6 => simp at h
  | case7 c cs _ _ _ ih =>
      obtain ⟨g, hg, rfl⟩ := Option.map_eq_some_iff.1 h
      simp [Extent.cons, ih hg]

/-- The opening quotes of a literal are at its front. -/
theorem quotes_append_drop (raw : Bool) (cs : List Char) :
    (literalForm raw ('\x22' :: cs)).quotes ++
      ('\x22' :: cs).drop (literalForm raw ('\x22' :: cs)).quotes.length = '\x22' :: cs := by
  by_cases h : ['\x22', '\x22', '\x22'].isPrefixOf ('\x22' :: cs) = true
  · obtain ⟨zs, hz⟩ := List.isPrefixOf_iff_prefix.1 h
    simp [literalForm, LiteralForm.quotes, ← hz]
  · simp [literalForm, LiteralForm.quotes, h]

theorem literal_append {raw : Bool} {cs : List Char} {e : Extent}
    (h : literal raw ('\x22' :: cs) = some e) : e.taken ++ e.rest = '\x22' :: cs := by
  obtain ⟨g, hg, rfl⟩ := Option.map_eq_some_iff.1 h
  simp only [List.append_assoc, literalBody_append hg, quotes_append_drop]

theorem number_append (cs : List Char) : (number cs).1 ++ (number cs).2 = cs := by
  fun_induction number cs with
  | case1 => rfl
  | case2 c cs _ parts ih => simp [parts, ih]
  | case3 => rfl

theorem quotedName_append (cs : List Char) :
    (quotedName cs).extent.taken ++ (quotedName cs).extent.rest = '\x60' :: cs := by
  simp only [quotedName]
  split
  · next rest h => simp [← h, List.takeWhile_append_dropWhile]
  · next rest h => simp [List.takeWhile_append_dropWhile]

/-- What a step takes and what it leaves make up the text. -/
theorem munch_taken_append {c : Char} {cs : List Char} {m : Munch} (h : munch c cs = .ok m) :
    m.extent.taken ++ m.extent.rest = c :: cs := by
  have htail : ∀ d, cs.head? = some d → d :: cs.tail = cs := by
    intro d hd
    cases cs with
    | nil => simp at hd
    | cons x xs => simpa using hd.symm
  simp only [munch] at h
  split at h
  · obtain rfl := Except.ok.inj h
    simp
  split at h
  · obtain rfl := Except.ok.inj h
    simp [lineComment]
  split at h
  · next hc =>
      split at h
      · next e he =>
          obtain rfl := Except.ok.inj h
          simp [Extent.cons, blockComment_append he, htail '*' hc.2, hc.1]
      · simp at h
  split at h
  · next hc =>
      subst hc
      split at h
      · next e he =>
          obtain rfl := Except.ok.inj h
          exact literal_append he
      · simp at h
  split at h
  · next hc =>
      rw [← htail _ hc.2] at h ⊢
      split at h
      · next e he =>
          obtain rfl := Except.ok.inj h
          simp [Extent.cons, literal_append he, hc.1]
      · simp at h
  split at h
  · next hc =>
      obtain rfl := Except.ok.inj h
      rw [quotedName_append, hc]
  split at h
  · obtain rfl := Except.ok.inj h
    exact number_append _
  split at h
  · obtain rfl := Except.ok.inj h
    simp
  split at h
  · next hc =>
      obtain rfl := Except.ok.inj h
      simp [htail '>' hc.2, hc.1]
  · obtain rfl := Except.ok.inj h
    rfl

/-- Every step takes a character. -/
theorem munch_taken_ne_nil {c : Char} {cs : List Char} {m : Munch} (h : munch c cs = .ok m) :
    m.extent.taken ≠ [] := by
  simp only [munch] at h
  split at h
  · obtain rfl := Except.ok.inj h
    simp
  split at h
  · next hc =>
      obtain rfl := Except.ok.inj h
      simp [lineComment, hc.1]
  split at h
  · split at h
    · obtain rfl := Except.ok.inj h
      simp [Extent.cons]
    · simp at h
  split at h
  · split at h
    · next e he =>
        obtain rfl := Except.ok.inj h
        obtain ⟨g, hg, rfl⟩ := Option.map_eq_some_iff.1 he
        simp only [ne_eq, List.append_eq_nil_iff, not_and]
        intro hq
        simp [LiteralForm.quotes] at hq
        split at hq <;> simp at hq
    · simp at h
  split at h
  · split at h
    · obtain rfl := Except.ok.inj h
      simp [Extent.cons]
    · simp at h
  split at h
  · obtain rfl := Except.ok.inj h
    simp only [quotedName]
    split <;> simp
  split at h
  · next hd =>
      obtain rfl := Except.ok.inj h
      simp [number, Char.isAlphanum, hd]
  split at h
  · obtain rfl := Except.ok.inj h
    simp
  split at h
  · obtain rfl := Except.ok.inj h
    simp
  · obtain rfl := Except.ok.inj h
    simp

/-! ### The whole text -/

-- a step on an unknown character is never evaluated, only rewritten by its lemmas
attribute [irreducible] munch

/-- The tokens of a text that starts at a byte offset and on a line; `fuel` bounds the steps. -/
def tokensFrom : (fuel offset line : Nat) → List Char → Except LexError (List Token)
  | _, _, _, [] => .ok []
  | 0, _, _, _ :: _ => .ok []
  | fuel + 1, offset, line, c :: cs =>
    match munch c cs with
    | .error u => .error ⟨u, line⟩
    | .ok m =>
      let stop := offset + byteSize m.extent.taken
      match tokensFrom fuel stop (line + m.extent.newlines) m.extent.rest with
      | .error e => .error e
      | .ok ts =>
        match m.kind? with
        | some k => .ok (⟨k, offset, stop, line⟩ :: ts)
        | none => .ok ts

end Lexer

/-- The tokens of a source text.  No more steps are needed than there are characters. -/
def tokenize (source : String) : Except LexError (List Token) :=
  let cs := source.toList
  Lexer.tokensFrom cs.length 0 1 cs

end Scaffold
