/-
**Texts put together from pieces.**

Generated text is a row of pieces: the spellings of single tokens, and blanks between them.  A row
is read back piece by piece as long as every piece ends where it seems to end, which depends on
nothing but the character after it.

Main definitions:

* `Scaffold.Piece` — a piece, with its text and the token it spells;
* `Scaffold.Spelled` — a row whose pieces are well formed and end where they seem to;
* `Scaffold.IsPhrase` — a row that is spelled before anything but the rest of a name;
* `Scaffold.lay` — the tokens of a row that starts at a byte offset and on a line.

Main results:

* `Scaffold.Piece.munch_text` — one step of the lexer takes one piece;
* `Scaffold.tokenize_spelled` — **the tokens of a spelled row** are those laid out;
* `Scaffold.lay_append`, `Scaffold.spelled_append` — rows one behind the other.
-/

import Scaffold.Token.Lexer

set_option relaxedAutoImplicit false
set_option autoImplicit false

namespace Scaffold

open Text Lexer

/-! ### Characters of names and blanks -/

/-- The code points of blanks. -/
def blankCodes : List Nat :=
  [9, 10, 11, 12, 13, 0x20, 0x85, 0xa0, 0x1680, 0x2000, 0x2001, 0x2002, 0x2003, 0x2004, 0x2005,
   0x2006, 0x2007, 0x2008, 0x2009, 0x200a, 0x2028, 0x2029, 0x202f, 0x205f, 0x3000]

theorem toNat_mem_blankCodes {c : Char} (h : isBlank c = true) : c.toNat ∈ blankCodes := by
  simp only [isBlank, Bool.or_eq_true, Bool.and_eq_true, decide_eq_true_eq, beq_iff_eq] at h
  simp only [blankCodes, List.mem_cons, List.not_mem_nil, or_false]
  omega

/-- No blank is a character of a name. -/
theorem continuesName_of_isBlank {c : Char} (h : isBlank c = true) : continuesName c = false := by
  have hall : ∀ n ∈ blankCodes, continuesName (Char.ofNat n) = false := by decide +kernel
  have hc := hall c.toNat (toNat_mem_blankCodes h)
  rwa [Char.ofNat_toNat] at hc

theorem isBlank_of_continuesName {c : Char} (h : continuesName c = true) : isBlank c = false := by
  cases hb : isBlank c with
  | false => rfl
  | true => rw [continuesName_of_isBlank hb] at h; exact absurd h (by decide)

theorem isBlank_of_startsName {c : Char} (h : startsName c = true) : isBlank c = false :=
  isBlank_of_continuesName (continuesName_of_startsName h)

/-- The characters at which a token of another kind than a name or a mark starts. -/
def opensOther (c : Char) : Bool :=
  c == '/' || c == '\x22' || c == '#' || c == '\x60' || c == '-' || c.isDigit

theorem toNat_lt_of_opensOther {c : Char} (h : opensOther c = true) : c.toNat < 128 := by
  simp only [opensOther, Bool.or_eq_true, beq_iff_eq, Char.isDigit_iff_toNat] at h
  rcases h with ((((rfl | rfl) | rfl) | rfl) | rfl) | ⟨_, h⟩
  case inr => exact Nat.lt_of_le_of_lt h (by decide)
  all_goals decide

/-- A name starts with no character at which another token starts. -/
theorem opensOther_of_startsName {c : Char} (h : startsName c = true) : opensOther c = false := by
  have hall : ∀ n < 128, opensOther (Char.ofNat n) = true → startsName (Char.ofNat n) = false := by
    decide +kernel
  cases ho : opensOther c with
  | false => rfl
  | true =>
      have hc := hall c.toNat (toNat_lt_of_opensOther ho)
      rw [Char.ofNat_toNat] at hc
      rw [hc ho] at h
      exact absurd h (by decide)

/-! ### Pieces -/

/-- A piece of generated text. -/
inductive Piece where
  /-- Blanks between tokens. -/
  | blanks (cs : List Char)
  /-- An identifier or keyword. -/
  | word (name : String)
  /-- A punctuation mark. -/
  | mark (c : Char)
  /-- The arrow before a result type. -/
  | arrow
  /-- A string literal, without its quotes. -/
  | quoted (body : List Char)
  /-- A line comment, without the two slashes it starts with. -/
  | remark (body : List Char)

namespace Piece

/-- The blank between two words. -/
def space : Piece := .blanks [' ']

/-- The characters of a piece. -/
def text : Piece → List Char
  | .blanks cs => cs
  | .word name => name.toList
  | .mark c => [c]
  | .arrow => ['-', '>']
  | .quoted body => '\x22' :: (body ++ ['\x22'])
  | .remark body => '/' :: '/' :: body

/-- The token that a piece spells, if it spells one. -/
def kind? : Piece → Option TokenKind
  | .blanks _ => none
  | .word name => some (.word name)
  | .mark c => some (.mark c)
  | .arrow => some .arrow
  | .quoted _ => some .literal
  | .remark body => some (.comment (commentBody ('/' :: '/' :: body)))

/-- The line ends in a piece. -/
def newlines : Piece → Nat
  | .blanks cs => cs.count '\n'
  | _ => 0

/-- What the characters of a piece have to be, for it to be taken as what it is. -/
def Proper : Piece → Prop
  | .blanks cs => cs ≠ [] ∧ ∀ c ∈ cs, isBlank c = true
  | .word name => isPlainName name = true
  | .mark c => isBlank c = false ∧ opensOther c = false ∧ startsName c = false
  | .arrow => True
  | .quoted body => body ≠ [] ∧ ∀ c ∈ body, c ≠ '\x22' ∧ c ≠ '\\' ∧ c ≠ '\n'
  | .remark body => ∀ c ∈ body, c ≠ '\n'

/-- Whether a piece ends before a character, or before the end of the text. -/
def EndsBefore : Piece → Option Char → Prop
  | .blanks _, next => ∀ c ∈ next, isBlank c = false
  | .word _, next => ∀ c ∈ next, continuesName c = false
  | .remark _, next => ∀ c ∈ next, c = '\n'
  | _, _ => True

end Piece

/-! ### One step of the lexer -/

/-- A run of characters ends where the first one of another kind stands. -/
theorem takeWhile_append_stop {p : Char → Bool} {xs ys : List Char} (hx : ∀ c ∈ xs, p c = true)
    (hy : ∀ c ∈ ys.head?, p c = false) : (xs ++ ys).takeWhile p = xs := by
  rw [List.takeWhile_append_of_pos hx]
  cases ys with
  | nil => simp
  | cons y ys => simp [hy y (by simp)]

theorem dropWhile_append_stop {p : Char → Bool} {xs ys : List Char} (hx : ∀ c ∈ xs, p c = true)
    (hy : ∀ c ∈ ys.head?, p c = false) : (xs ++ ys).dropWhile p = ys := by
  rw [List.dropWhile_append_of_pos hx]
  cases ys with
  | nil => simp
  | cons y ys => simp [hy y (by simp)]

/-- The body of a plain literal reaches to its closing quote. -/
theorem literalBody_plain {body rest : List Char}
    (h : ∀ c ∈ body, c ≠ '\x22' ∧ c ≠ '\\' ∧ c ≠ '\n') :
    literalBody ⟨false, false⟩ (body ++ '\x22' :: rest) = some ⟨body ++ ['\x22'], 0, rest⟩ := by
  induction body with
  | nil =>
      rw [List.nil_append, literalBody.eq_def]
      simp [LiteralForm.terminator, LiteralForm.quotes, after?]
  | cons c body ih =>
      obtain ⟨hq, hb, hn⟩ := h c (by simp)
      have hrest := ih fun d hd => h d (by simp [hd])
      rw [List.cons_append, literalBody.eq_def]
      simp [LiteralForm.terminator, LiteralForm.quotes, after?, hq.symm, hb, hn, hrest, Extent.cons]

/-- A literal with a plain body that is not empty reaches to its closing quote. -/
theorem literal_plain {body rest : List Char} (hne : body ≠ [])
    (h : ∀ c ∈ body, c ≠ '\x22' ∧ c ≠ '\\' ∧ c ≠ '\n') :
    literal false ('\x22' :: (body ++ '\x22' :: rest)) =
      some ⟨'\x22' :: (body ++ ['\x22']), 0, rest⟩ := by
  cases body with
  | nil => exact absurd rfl hne
  | cons c body =>
      -- the first character is no quote, so that the literal is no multiline one
      have hform : literalForm false ('\x22' :: (c :: body ++ '\x22' :: rest)) = ⟨false, false⟩ := by
        simp [literalForm, List.isPrefixOf, (h c (by simp)).1.symm]
      simp only [literal, hform]
      simp only [LiteralForm.quotes, Bool.false_eq_true, if_false, List.length_singleton,
        List.drop_one, List.tail_cons, literalBody_plain h, Option.map_some]
      rfl

/-- One step of the lexer takes one piece. -/
theorem Piece.munch_text {p : Piece} {rest : List Char} (hp : p.Proper)
    (he : p.EndsBefore rest.head?) :
    ∃ c cs, p.text ++ rest = c :: cs ∧ munch c cs = .ok ⟨p.kind?, p.text, p.newlines, rest⟩ := by
  cases p with
  | blanks cs =>
      obtain ⟨hne, hb⟩ := hp
      cases cs with
      | nil => exact absurd rfl hne
      | cons c cs =>
          refine ⟨c, cs ++ rest, rfl, ?_⟩
          have hcs : ∀ d ∈ cs, isBlank d = true := fun d hd => hb d (by simp [hd])
          simp [munch, hb c (by simp), takeWhile_append_stop hcs he, dropWhile_append_stop hcs he,
            Piece.kind?, Piece.text, Piece.newlines]
  | word name =>
      simp only [Piece.Proper, isPlainName] at hp
      cases hn : name.toList with
      | nil => simp [hn] at hp
      | cons c cs =>
          simp only [hn, Bool.and_eq_true, List.all_eq_true] at hp
          obtain ⟨hc, hcs⟩ := hp
          refine ⟨c, cs ++ rest, by simp [Piece.text, hn], ?_⟩
          -- what starts a name opens neither a comment nor a literal, a number or an arrow
          have ho := opensOther_of_startsName hc
          simp only [opensOther, Bool.or_eq_false_iff, beq_eq_false_iff_ne] at ho
          obtain ⟨⟨⟨⟨⟨h₁, h₂⟩, h₃⟩, h₄⟩, h₅⟩, h₆⟩ := ho
          have hofList : String.ofList (c :: cs) = name := by rw [← hn, String.ofList_toList]
          simp [munch, isBlank_of_startsName hc, h₁, h₂, h₃, h₄, h₆, hc, hofList,
            takeWhile_append_stop hcs he, dropWhile_append_stop hcs he, Piece.kind?, Piece.text,
            Piece.newlines, hn]
  | mark c =>
      obtain ⟨hb, ho, hs⟩ := hp
      simp only [opensOther, Bool.or_eq_false_iff, beq_eq_false_iff_ne] at ho
      obtain ⟨⟨⟨⟨⟨h₁, h₂⟩, h₃⟩, h₄⟩, h₅⟩, h₆⟩ := ho
      refine ⟨c, rest, rfl, ?_⟩
      simp [munch, hb, h₁, h₂, h₃, h₄, h₅, h₆, hs, Piece.kind?, Piece.text, Piece.newlines]
  | arrow =>
      refine ⟨'-', '>' :: rest, rfl, ?_⟩
      simp [munch, Piece.kind?, Piece.text, Piece.newlines, show isBlank '-' = false by decide,
        show startsName '-' = false by decide, show Char.isDigit '-' = false by decide]
  | quoted body =>
      obtain ⟨hne, hb⟩ := hp
      refine ⟨'\x22', body ++ '\x22' :: rest, by simp [Piece.text], ?_⟩
      simp [munch, literal_plain hne hb, Piece.kind?, Piece.text, Piece.newlines,
        show isBlank '\x22' = false by decide]
  | remark body =>
      refine ⟨'/', '/' :: (body ++ rest), rfl, ?_⟩
      have hb : ∀ c ∈ '/' :: '/' :: body, (c != '\n') = true := by
        intro c hc
        rcases List.mem_cons.1 hc with rfl | hc
        · decide
        rcases List.mem_cons.1 hc with rfl | hc
        · decide
        · simpa using hp c hc
      -- a comment goes on to the end of its line
      have hr : ∀ c ∈ rest.head?, (c != '\n') = false := by
        intro c hc
        simpa using he c hc
      have ht := takeWhile_append_stop hb hr
      have hd := dropWhile_append_stop hb hr
      simp only [List.cons_append] at ht hd
      simp [munch, lineComment, ht, hd, Piece.kind?, Piece.text, Piece.newlines,
        show isBlank '/' = false by decide]

/-! ### Rows of pieces -/

/-- The text of a row of pieces. -/
def rowText (ps : List Piece) : List Char := ps.flatMap Piece.text

@[simp] theorem rowText_nil : rowText [] = [] := rfl

@[simp] theorem rowText_cons (p : Piece) (ps : List Piece) :
    rowText (p :: ps) = p.text ++ rowText ps := rfl

@[simp] theorem rowText_append (ps qs : List Piece) :
    rowText (ps ++ qs) = rowText ps ++ rowText qs := List.flatMap_append

/-- The character at the front of a row, or the one behind it if the row has none. -/
def frontOr (ps : List Piece) (next : Option Char) : Option Char := (rowText ps).head?.or next

@[simp] theorem frontOr_nil (next : Option Char) : frontOr [] next = next := rfl

theorem frontOr_append (ps qs : List Piece) (next : Option Char) :
    frontOr (ps ++ qs) next = frontOr ps (frontOr qs next) := by
  simp [frontOr, List.head?_append, Option.or_assoc]

/-- A row each of whose pieces is proper and ends before the next one, or before what follows the
row. -/
def Spelled : List Piece → Option Char → Prop
  | [], _ => True
  | p :: ps, next => p.Proper ∧ p.EndsBefore (frontOr ps next) ∧ Spelled ps next

@[simp] theorem spelled_nil (next : Option Char) : Spelled [] next := trivial

theorem spelled_cons {p : Piece} {ps : List Piece} {next : Option Char} :
    Spelled (p :: ps) next ↔ p.Proper ∧ p.EndsBefore (frontOr ps next) ∧ Spelled ps next := Iff.rfl

/-- Two rows are spelled one behind the other if each is, before what follows it. -/
theorem spelled_append {ps qs : List Piece} {next : Option Char} :
    Spelled (ps ++ qs) next ↔ Spelled ps (frontOr qs next) ∧ Spelled qs next := by
  induction ps with
  | nil => simp
  | cons p ps ih =>
      simp only [List.cons_append, spelled_cons, frontOr_append, ih]
      rw [and_assoc, and_assoc]

@[simp] theorem frontOr_mark (c : Char) (ps : List Piece) (next : Option Char) :
    frontOr (.mark c :: ps) next = some c := rfl

@[simp] theorem Piece.endsBefore_mark (c : Char) (next : Option Char) :
    (Piece.mark c).EndsBefore next := trivial

@[simp] theorem Piece.endsBefore_arrow (next : Option Char) : Piece.arrow.EndsBefore next := trivial

@[simp] theorem Piece.proper_space : Piece.space.Proper := by
  simp [Piece.space, Piece.Proper, isBlank]

@[simp] theorem Piece.proper_arrow : Piece.arrow.Proper := trivial

/-- The marks of generated text. -/
def textMarks : List Char := ['(', ')', '[', ']', '{', '}', '<', '>', ':', ',', '.', '?', '@']

theorem Piece.proper_mark {c : Char} (h : c ∈ textMarks) : (Piece.mark c).Proper := by
  have hall : textMarks.all (fun d => !isBlank d && !opensOther d && !startsName d) = true := by
    decide
  simpa [Piece.Proper, and_assoc] using List.all_eq_true.1 hall c h

/-- What does not go on with a name. -/
def EndsName (next : Option Char) : Prop := ∀ c ∈ next, continuesName c = false

@[simp] theorem endsName_none : EndsName none := by simp [EndsName]

theorem endsName_mark {c : Char} (h : c ∈ textMarks) : EndsName (some c) := by
  have hall : textMarks.all (fun d => !continuesName d) = true := by decide
  intro d hd
  rw [Option.mem_some] at hd
  simpa [hd] using List.all_eq_true.1 hall c h

/-- Blanks do not go on with a name. -/
theorem endsName_frontOr_blanks {cs : List Char} {ps : List Piece} {next : Option Char}
    (h : (Piece.blanks cs).Proper) : EndsName (frontOr (.blanks cs :: ps) next) := by
  obtain ⟨hne, hb⟩ := h
  cases cs with
  | nil => exact absurd rfl hne
  | cons c cs =>
      intro d hd
      have hfront : frontOr (.blanks (c :: cs) :: ps) next = some c := rfl
      rw [hfront, Option.mem_some] at hd
      exact hd ▸ continuesName_of_isBlank (hb c (by simp))

/-- A row that starts with no blank and is spelled before anything but the rest of a name. -/
structure IsPhrase (ps : List Piece) : Prop where
  /-- It is spelled. -/
  spelled : ∀ next, EndsName next → Spelled ps next
  /-- It starts with no blank. -/
  front : ∀ next, ∃ c, frontOr ps next = some c ∧ isBlank c = false

namespace IsPhrase

theorem word {name : String} (h : isPlainName name = true) : IsPhrase [.word name] := by
  constructor
  · intro next hn
    exact ⟨h, hn, trivial⟩
  · intro next
    simp only [isPlainName] at h
    cases hs : name.toList with
    | nil => simp [hs] at h
    | cons c cs =>
        simp only [hs, Bool.and_eq_true] at h
        exact ⟨c, by simp [frontOr, Piece.text, hs], isBlank_of_startsName h.1⟩

theorem mark {c : Char} (h : c ∈ textMarks) : IsPhrase [.mark c] :=
  ⟨fun _ _ => ⟨Piece.proper_mark h, trivial, trivial⟩,
    fun _ => ⟨c, rfl, (Piece.proper_mark h).1⟩⟩

theorem arrow : IsPhrase [.arrow] :=
  ⟨fun _ _ => ⟨trivial, trivial, trivial⟩, fun _ => ⟨'-', rfl, by decide⟩⟩

/-- A phrase ends before a mark. -/
theorem append_mark {ps qs : List Piece} {c : Char} (hp : IsPhrase ps) (hc : c ∈ textMarks)
    (hq : IsPhrase (.mark c :: qs)) : IsPhrase (ps ++ .mark c :: qs) := by
  constructor
  · intro next hn
    exact spelled_append.2 ⟨hp.spelled _ (endsName_mark hc), hq.spelled next hn⟩
  · intro next
    rw [frontOr_append]
    exact hp.front _

/-- A mark ends before anything. -/
theorem mark_cons {ps : List Piece} {c : Char} (hc : c ∈ textMarks) (hp : IsPhrase ps) :
    IsPhrase (.mark c :: ps) :=
  ⟨fun next hn => ⟨Piece.proper_mark hc, trivial, hp.spelled next hn⟩,
    fun _ => ⟨c, rfl, (Piece.proper_mark hc).1⟩⟩

/-- Blanks end before a phrase. -/
theorem spelled_blanks {ps : List Piece} {cs : List Char} (hp : IsPhrase ps)
    (hcs : (Piece.blanks cs).Proper) {next : Option Char} (hn : EndsName next) :
    Spelled (.blanks cs :: ps) next := by
  refine ⟨hcs, ?_, hp.spelled next hn⟩
  obtain ⟨c, hc, hb⟩ := hp.front next
  intro d hd
  rw [hc, Option.mem_some] at hd
  exact hd ▸ hb

/-- Two phrases with blanks between them. -/
theorem append_blanks {ps qs : List Piece} {cs : List Char} (hp : IsPhrase ps)
    (hcs : (Piece.blanks cs).Proper) (hq : IsPhrase qs) : IsPhrase (ps ++ .blanks cs :: qs) := by
  constructor
  · intro next hn
    refine spelled_append.2 ⟨hp.spelled _ ?_, hq.spelled_blanks hcs hn⟩
    exact endsName_frontOr_blanks hcs
  · intro next
    rw [frontOr_append]
    exact hp.front _

theorem append_space {ps qs : List Piece} (hp : IsPhrase ps) (hq : IsPhrase qs) :
    IsPhrase (ps ++ .space :: qs) := hp.append_blanks Piece.proper_space hq

theorem quoted {body : List Char} (h : (Piece.quoted body).Proper) : IsPhrase [.quoted body] :=
  ⟨fun _ _ => ⟨h, trivial, trivial⟩, fun _ => ⟨'\x22', rfl, by decide⟩⟩

/-- A comment ends at the end of its line. -/
theorem remark_cons {body cs : List Char} {ps : List Piece} (h : (Piece.remark body).Proper)
    (hcs : (Piece.blanks ('\n' :: cs)).Proper) (hp : IsPhrase ps) :
    IsPhrase (.remark body :: .blanks ('\n' :: cs) :: ps) := by
  refine ⟨fun next hn => ⟨h, ?_, hp.spelled_blanks hcs hn⟩, fun _ => ⟨'/', rfl, by decide⟩⟩
  intro c hc
  have hfront : frontOr (.blanks ('\n' :: cs) :: ps) next = some '\n' := rfl
  rw [hfront, Option.mem_some] at hc
  exact hc.symm

end IsPhrase

/-! ### Rows with commas -/

/-- Rows with a comma and a blank between them. -/
def commaRow (rows : List (List Piece)) : List Piece :=
  [Piece.mark ',', .space].intercalate rows

theorem rowText_commaRow (rows : List (List Piece)) :
    rowText (commaRow rows) = [',', ' '].intercalate (rows.map rowText) := by
  induction rows with
  | nil => rfl
  | cons row rows ih =>
      cases rows with
      | nil => simp [commaRow]
      | cons row' rows =>
          simp only [commaRow, List.map_cons, List.intercalate_cons_cons, rowText_append] at ih ⊢
          rw [ih]
          rfl

/-- Phrases with commas between them are a phrase. -/
theorem isPhrase_commaRow {rows : List (List Piece)} (hne : rows ≠ [])
    (hrows : ∀ row ∈ rows, IsPhrase row) : IsPhrase (commaRow rows) := by
  induction rows with
  | nil => exact absurd rfl hne
  | cons row rows ih =>
      have hrow := hrows row (by simp)
      cases rows with
      | nil => simpa [commaRow] using hrow
      | cons row' rows =>
          have hcomma : ',' ∈ textMarks := by decide
          have hrest := ih (by simp) fun r hr => hrows r (List.mem_cons_of_mem _ hr)
          have hsep := (IsPhrase.mark hcomma).append_space hrest
          have := hrow.append_mark hcomma hsep
          simpa [commaRow, List.intercalate_cons_cons] using this

/-- Phrases with commas between them, if there are any, and a mark behind them. -/
theorem isPhrase_commaRow_append {rows : List (List Piece)} {close : Char} {qs : List Piece}
    (hrows : ∀ row ∈ rows, IsPhrase row) (hc : close ∈ textMarks)
    (hq : IsPhrase (.mark close :: qs)) : IsPhrase (commaRow rows ++ .mark close :: qs) := by
  cases rows with
  | nil => simpa [commaRow] using hq
  | cons row rows => exact (isPhrase_commaRow (by simp) hrows).append_mark hc hq

/-! ### The tokens of a row -/

/-- The line ends in a row. -/
def rowLines : List Piece → Nat
  | [] => 0
  | p :: ps => p.newlines + rowLines ps

/-- The tokens of a row that starts at a byte offset and on a line. -/
def lay : (offset line : Nat) → List Piece → List Token
  | _, _, [] => []
  | offset, line, p :: ps =>
    let stop := offset + byteSize p.text
    let behind := lay stop (line + p.newlines) ps
    match p.kind? with
    | some k => ⟨k, offset, stop, line⟩ :: behind
    | none => behind

@[simp] theorem lay_nil (offset line : Nat) : lay offset line [] = [] := rfl

theorem lay_append (offset line : Nat) (ps qs : List Piece) :
    lay offset line (ps ++ qs) =
      lay offset line ps ++ lay (offset + byteSize (rowText ps)) (line + rowLines ps) qs := by
  induction ps generalizing offset line with
  | nil => simp [rowLines, byteSize]
  | cons p ps ih =>
      have hoffset : offset + byteSize p.text + byteSize (rowText ps) =
          offset + byteSize (rowText (p :: ps)) := by simp; omega
      have hline : line + p.newlines + rowLines ps = line + rowLines (p :: ps) := by
        rw [rowLines]; omega
      simp only [List.cons_append, lay, ih, hoffset, hline]
      cases p.kind? <;> rfl

/-- **The tokens of a spelled row**, with as many steps as there are characters. -/
theorem tokensFrom_spelled {ps : List Piece} (h : Spelled ps none) :
    ∀ fuel offset line, (rowText ps).length ≤ fuel →
      tokensFrom fuel offset line (rowText ps) = .ok (lay offset line ps) := by
  induction ps with
  | nil =>
      intro fuel offset line _
      cases fuel <;> rfl
  | cons p ps ih =>
      intro fuel offset line hfuel
      obtain ⟨hp, he, hps⟩ := h
      have hfront : frontOr ps none = (rowText ps).head? := by simp [frontOr]
      rw [hfront] at he
      obtain ⟨c, cs, htext, hmunch⟩ := Piece.munch_text hp he
      rw [rowText_cons, htext] at hfuel ⊢
      have hlen := congrArg List.length htext
      -- the step takes a character, so that one step less is enough for the rest
      have htaken : 0 < p.text.length := List.length_pos_iff.2 (munch_taken_ne_nil hmunch)
      rw [List.length_append, List.length_cons] at hlen
      rw [List.length_cons] at hfuel
      obtain ⟨k, rfl⟩ : ∃ k, fuel = k + 1 := ⟨fuel - 1, by omega⟩
      have hrest := ih hps k (offset + byteSize p.text) (line + p.newlines) (by omega)
      simp only [tokensFrom, hmunch, hrest, lay]
      cases p.kind? <;> rfl

/-- The tokens of a text that is spelled by a row. -/
theorem tokenize_spelled {s : String} {ps : List Piece} (hs : s.toList = rowText ps)
    (h : Spelled ps none) : tokenize s = .ok (lay 0 1 ps) := by
  simp only [tokenize, hs]
  exact tokensFrom_spelled h _ 0 1 (Nat.le_refl _)

end Scaffold
