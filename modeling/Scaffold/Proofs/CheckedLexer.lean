/-
**Dividing a text by positions.**

The tokens of a text are found here by moving a position over its bytes, with every access that can
fail written out.  A reader that makes an access that fails yields nothing, and so does one that
runs on for ever, since its rounds are counted.  The position moves byte by byte through comments
and literals, and so through the middle of characters, or past the end of the text where a backslash
is its last byte.  It is left behind an ASCII character, or not at all.

Main definitions:

* `Scaffold.Checked.blockComment`, `Scaffold.Checked.literal` — moving behind comments and literals;
* `Scaffold.Checked.round` — what starts at a position;
* `Scaffold.Checked.tokenize` — the tokens of a whole text.

Main results:

* `Scaffold.Checked.blockComment_eq`, `Scaffold.Checked.literalBody_eq` — comments and literals are
  left where they end;
* `Scaffold.Checked.round_eq_munch` — one round yields what a step does;
* `Scaffold.Checked.tokenize_eq` — **no access fails**, and the tokens are those of the text.
-/

import Scaffold.Proofs.CheckedAccess
import Scaffold.Proofs.Spelling
import Scaffold.Proofs.TokenPlaces

set_option relaxedAutoImplicit false
set_option autoImplicit false

namespace Scaffold.Checked

open Text

variable {source cs : List Char} {pos : Nat}

/-! ### Block comments -/

/-- Moves behind the end of a block comment of which `depth` levels are open, byte by byte, and
counts the lines. -/
def blockComment (bs : List UInt8) :
    (fuel depth pos line : Nat) → Option (Except Unclosed (Nat × Nat))
  | 0, _, _, _ => none
  | fuel + 1, depth, pos, line =>
    if pos < bs.length then do
      if ← startsWith bs pos ['/', '*'] then blockComment bs fuel (depth + 1) (pos + 2) line
      else if ← startsWith bs pos ['*', '/'] then
        let depth ← minus? depth 1
        if depth = 0 then some (.ok (pos + 2, line)) else blockComment bs fuel depth (pos + 2) line
      else
        let b ← bs[pos]?
        blockComment bs fuel depth (pos + 1) (if b = byte '\n' then line + 1 else line)
    else some (.error .comment)

/-- The position and the line behind what reaches so far, if it has an end. -/
def reached (unclosed : Unclosed) (pos line : Nat) :
    Option Lexer.Extent → Except Unclosed (Nat × Nat)
  | some e => .ok (pos + byteSize e.taken, line + e.newlines)
  | none => .error unclosed

/-- What starts earlier is left at the same place. -/
theorem reached_map (unclosed : Unclosed) (pos line : Nat) (f : Lexer.Extent → Lexer.Extent)
    (xs : List Char) (lines : Nat) (htaken : ∀ e, (f e).taken = xs ++ e.taken)
    (hlines : ∀ e, (f e).newlines = e.newlines + lines) (e : Option Lexer.Extent) :
    reached unclosed pos line (e.map f) =
      reached unclosed (pos + byteSize xs) (line + lines) e := by
  cases e with
  | none => rfl
  | some e =>
      simp only [Option.map_some, reached, htaken, hlines, byteSize_append, Nat.add_assoc,
        Nat.add_comm lines]

section BlockComment

variable {bs : List UInt8} {fuel depth line : Nat}

/-- A byte at which no comment starts or ends is left behind. -/
theorem blockComment_other {b : UInt8} (hget : bs[pos]? = some b) (hb : b ≠ byte '\n')
    (hstart : startsWith bs pos ['/', '*'] = some false)
    (hend : startsWith bs pos ['*', '/'] = some false) :
    blockComment bs (fuel + 1) depth pos line = blockComment bs fuel depth (pos + 1) line := by
  obtain ⟨hlt, heq⟩ := List.getElem?_eq_some_iff.1 hget
  simp [blockComment, hlt, hstart, hend, heq, hb]

/-- The bytes of a character that is not an ASCII character are left behind one by one. -/
theorem blockComment_high {ps rest : List UInt8} (hhigh : ∀ b ∈ ps, 128 ≤ b.toNat)
    (h : bs.drop pos = ps ++ rest) :
    blockComment bs (fuel + ps.length) depth pos line =
      blockComment bs fuel depth (pos + ps.length) line := by
  induction ps generalizing pos with
  | nil => rfl
  | cons b ps ih =>
      have hb := hhigh b (by simp)
      rw [List.cons_append] at h
      rw [List.length_cons, ← Nat.add_assoc, blockComment_other (getElem?_of_drop h)
        (byte_ne_of_le (by decide) hb).symm (startsWith_of_high h hb (by decide) _)
        (startsWith_of_high h hb (by decide) _),
        ih (fun b hb => hhigh b (List.mem_cons_of_mem _ hb)) (drop_succ_of_drop h)]
      congr 1
      omega

/-- What a round does at an ASCII character. -/
theorem blockComment_succ {c : Char} (hc : c.toNat < 128) (h : bs.drop pos = utf8 (c :: cs)) :
    blockComment bs (fuel + 1) depth pos line =
      if ['/', '*'].isPrefixOf (c :: cs) then blockComment bs fuel (depth + 1) (pos + 2) line
      else if ['*', '/'].isPrefixOf (c :: cs) then
        (minus? depth 1).bind fun depth =>
          if depth = 0 then some (.ok (pos + 2, line))
          else blockComment bs fuel depth (pos + 2) line
      else blockComment bs fuel depth (pos + 1) (if c = '\n' then line + 1 else line) := by
  have hdrop := h
  rw [utf8_cons_of_lt hc] at hdrop
  obtain ⟨hlt, heq⟩ := List.getElem?_eq_some_iff.1 (getElem?_of_drop hdrop)
  have hopen : startsWith bs pos ['/', '*'] = some (['/', '*'].isPrefixOf (c :: cs)) :=
    startsWith_utf8 h (Nat.le_of_lt hlt) (by simp)
  have hclose : startsWith bs pos ['*', '/'] = some (['*', '/'].isPrefixOf (c :: cs)) :=
    startsWith_utf8 h (Nat.le_of_lt hlt) (by simp)
  simp only [blockComment, if_pos hlt, hopen, hclose, List.getElem?_eq_getElem hlt, heq,
    Option.bind_eq_bind, Option.bind_some, byte_inj hc (by decide : '\n'.toNat < 128)]

/-- A character at which no comment starts or ends is left behind. -/
theorem blockComment_char {c : Char} (h : bs.drop pos = utf8 (c :: cs))
    (hopen : ¬['/', '*'].isPrefixOf (c :: cs) = true)
    (hclose : ¬['*', '/'].isPrefixOf (c :: cs) = true) (hfeed : c ≠ '\n') :
    blockComment bs (fuel + c.utf8Size) depth pos line =
      blockComment bs fuel depth (pos + c.utf8Size) line := by
  by_cases hc : c.toNat < 128
  · rw [utf8Size_of_lt hc, blockComment_succ hc h, if_neg hopen, if_neg hclose, if_neg hfeed]
  · rw [← String.length_utf8EncodeChar]
    exact blockComment_high (fun b hb => le_of_mem_utf8EncodeChar (Nat.le_of_not_lt hc) hb)
      (h.trans (utf8_cons c cs))

/-- A block comment is left at its end. -/
theorem blockComment_eq (h : bs.drop pos = utf8 cs) (hfuel : byteSize cs < fuel) :
    blockComment bs fuel (depth + 1) pos line =
      some (reached .comment pos line (Lexer.blockComment depth cs)) := by
  have hslash : '/'.utf8Size = 1 := rfl
  have hstar : '*'.utf8Size = 1 := rfl
  have hfeed : '\n'.utf8Size = 1 := rfl
  fun_induction Lexer.blockComment depth cs generalizing fuel pos line with
  | case1 depth =>
      obtain ⟨fuel, rfl⟩ := Nat.exists_eq_add_of_lt hfuel
      simp only [blockComment, if_neg (not_lt_length_of_drop h), reached]
  | case2 depth cs ih =>
      simp only [byteSize, hslash, hstar] at hfuel
      obtain ⟨fuel, rfl⟩ := Nat.exists_eq_add_of_lt hfuel
      have hbehind : bs.drop (pos + 2) = utf8 cs := drop_add_utf8Size (drop_add_utf8Size h)
      rw [blockComment_succ (by decide) h, if_pos (by rfl), ih hbehind (by omega)]
      exact congrArg some (reached_map _ _ _ (fun e => (e.cons '*').cons '/') ['/', '*'] 0
        (fun _ => rfl) (fun _ => rfl) _).symm
  | case3 cs =>
      obtain ⟨fuel, rfl⟩ := Nat.exists_eq_add_of_lt hfuel
      rw [blockComment_succ (by decide) h, if_neg (by simp), if_pos (by rfl)]
      rfl
  | case4 depth cs ih =>
      simp only [byteSize, hslash, hstar] at hfuel
      obtain ⟨fuel, rfl⟩ := Nat.exists_eq_add_of_lt hfuel
      have hbehind : bs.drop (pos + 2) = utf8 cs := drop_add_utf8Size (drop_add_utf8Size h)
      rw [blockComment_succ (by decide) h, if_neg (by simp), if_pos (by rfl), minus?_add,
        Option.bind_some, if_neg (Nat.succ_ne_zero depth), ih hbehind (by omega)]
      exact congrArg some (reached_map _ _ _ (fun e => (e.cons '/').cons '*') ['*', '/'] 0
        (fun _ => rfl) (fun _ => rfl) _).symm
  | case5 depth cs ih =>
      simp only [byteSize, hfeed] at hfuel
      obtain ⟨fuel, rfl⟩ := Nat.exists_eq_add_of_lt hfuel
      have hbehind : bs.drop (pos + 1) = utf8 cs := drop_add_utf8Size h
      rw [blockComment_succ (by decide) h, if_neg (by simp), if_neg (by simp), if_pos rfl,
        ih hbehind (by omega)]
      exact congrArg some (reached_map _ _ _ Lexer.Extent.newline ['\n'] 1 (fun _ => rfl)
        (fun _ => rfl) _).symm
  | case6 depth c cs hopen hzero hsucc hnewline ih =>
      simp only [byteSize] at hfuel
      obtain ⟨fuel, rfl⟩ : ∃ n, fuel = n + c.utf8Size := Nat.exists_eq_add_of_le' (by omega)
      have hopen' : ¬['/', '*'].isPrefixOf (c :: cs) = true := by
        rw [List.isPrefixOf_iff_prefix]
        rintro ⟨ds, heq⟩
        cases heq
        exact hopen ds rfl rfl
      have hclose : ¬['*', '/'].isPrefixOf (c :: cs) = true := by
        rw [List.isPrefixOf_iff_prefix]
        rintro ⟨ds, heq⟩
        cases heq
        cases depth with
        | zero => exact hzero ds rfl rfl rfl
        | succ depth => exact hsucc depth ds rfl rfl rfl
      rw [blockComment_char h hopen' hclose hnewline, ih (drop_add_utf8Size h) (by omega)]
      exact congrArg some (reached_map _ _ _ (Lexer.Extent.cons c) [c] 0 (fun _ => rfl)
        (fun _ => rfl) _).symm

end BlockComment

/-! ### String literals -/

/-- Moves behind hashes and counts them. -/
def hashes (bs : List UInt8) : (fuel count pos : Nat) → Option (Nat × Nat)
  | 0, _, _ => none
  | fuel + 1, count, pos =>
    if bs[pos]? = some (byte '#') then hashes bs fuel (count + 1) (pos + 1) else some (count, pos)

/-- Moves behind the end of a literal with a number of hashes, byte by byte, and counts the lines.
A backslash takes one byte along, which may be the first of a character or lie behind the end. -/
def literalBody (bs : List UInt8) (count : Nat) (multiline : Bool) (terminator : List Char) :
    (fuel pos line : Nat) → Option (Except Unclosed (Nat × Nat))
  | 0, _, _ => none
  | fuel + 1, pos, line =>
    if pos < bs.length then do
      if ← startsWith bs pos terminator then some (.ok (pos + terminator.length, line))
      else
        let b ← bs[pos]?
        if b = byte '\\' ∧ count = 0 then
          literalBody bs count multiline terminator fuel (pos + 2) line
        else if b = byte '\n' then
          if multiline then literalBody bs count multiline terminator fuel (pos + 1) (line + 1)
          else some (.error .literal)
        else literalBody bs count multiline terminator fuel (pos + 1) line
    else some (.error .literal)

/-- Moves behind a literal from its first hash or quote on. -/
def literal (bs : List UInt8) (pos line : Nat) : Option (Except Unclosed (Nat × Nat)) := do
  let (count, pos) ← hashes bs (bs.length + 1) 0 pos
  let multiline ← startsWith bs pos ['\x22', '\x22', '\x22']
  let quotes := if multiline then ['\x22', '\x22', '\x22'] else ['\x22']
  literalBody bs count multiline (quotes ++ List.replicate count '#') (bs.length + 1)
    (pos + quotes.length) line

/-- A start is found where something comes after it. -/
theorem isPrefixOf_eq_isSome_after? (xs ys : List Char) :
    xs.isPrefixOf ys = (after? xs ys).isSome := by
  fun_induction after? xs ys with
  | case1 => rfl
  | case2 => rfl
  | case3 x xs ys ih => rw [List.isPrefixOf_cons_cons, beq_self_eq_true, Bool.true_and, ih]
  | case4 x xs y ys hne =>
      rw [List.isPrefixOf_cons_cons, beq_false_of_ne hne, Bool.false_and]
      rfl

theorem lt_of_mem_terminator (f : Lexer.LiteralForm) : ∀ c ∈ f.terminator, c.toNat < 128 := by
  obtain ⟨raw, multiline⟩ := f
  cases raw <;> cases multiline <;>
    simp [Lexer.LiteralForm.terminator, Lexer.LiteralForm.quotes]

theorem exists_terminator_cons (f : Lexer.LiteralForm) : ∃ cs, f.terminator = '\x22' :: cs := by
  obtain ⟨raw, multiline⟩ := f
  cases raw <;> cases multiline <;> exact ⟨_, rfl⟩

theorem byteSize_terminator (f : Lexer.LiteralForm) :
    byteSize f.terminator = f.terminator.length := by
  obtain ⟨raw, multiline⟩ := f
  cases raw <;> cases multiline <;> rfl

section Literal

variable {bs : List UInt8} {count fuel line : Nat} {f : Lexer.LiteralForm}

/-- A byte that means nothing in a literal is left behind. -/
theorem literalBody_other {b : UInt8} (hget : bs[pos]? = some b) (hslash : b ≠ byte '\\')
    (hfeed : b ≠ byte '\n') {terminator : List Char}
    (hend : startsWith bs pos terminator = some false) {multiline : Bool} :
    literalBody bs count multiline terminator (fuel + 1) pos line =
      literalBody bs count multiline terminator fuel (pos + 1) line := by
  obtain ⟨hlt, heq⟩ := List.getElem?_eq_some_iff.1 hget
  simp [literalBody, hlt, hend, heq, hslash, hfeed]

/-- The bytes of a character that is not an ASCII character are left behind one by one. -/
theorem literalBody_high {ps rest : List UInt8} (hhigh : ∀ b ∈ ps, 128 ≤ b.toNat)
    (h : bs.drop pos = ps ++ rest) :
    literalBody bs count f.multiline f.terminator (fuel + ps.length) pos line =
      literalBody bs count f.multiline f.terminator fuel (pos + ps.length) line := by
  obtain ⟨quotes, hquotes⟩ := exists_terminator_cons f
  induction ps generalizing pos with
  | nil => rfl
  | cons b ps ih =>
      have hb := hhigh b (by simp)
      rw [List.cons_append] at h
      have hend : startsWith bs pos f.terminator = some false :=
        hquotes ▸ startsWith_of_high h hb (by decide) quotes
      rw [List.length_cons, ← Nat.add_assoc, literalBody_other (getElem?_of_drop h)
        (byte_ne_of_le (by decide) hb).symm (byte_ne_of_le (by decide) hb).symm hend,
        ih (fun b hb => hhigh b (List.mem_cons_of_mem _ hb)) (drop_succ_of_drop h)]
      congr 1
      omega

/-- What a round does at an ASCII character. -/
theorem literalBody_succ {c : Char} (hc : c.toNat < 128) (h : bs.drop pos = utf8 (c :: cs)) :
    literalBody bs count f.multiline f.terminator (fuel + 1) pos line =
      if (after? f.terminator (c :: cs)).isSome then
        some (.ok (pos + f.terminator.length, line))
      else if c = '\\' ∧ count = 0 then
        literalBody bs count f.multiline f.terminator fuel (pos + 2) line
      else if c = '\n' then
        if f.multiline then literalBody bs count f.multiline f.terminator fuel (pos + 1) (line + 1)
        else some (.error .literal)
      else literalBody bs count f.multiline f.terminator fuel (pos + 1) line := by
  have hdrop := h
  rw [utf8_cons_of_lt hc] at hdrop
  obtain ⟨hlt, heq⟩ := List.getElem?_eq_some_iff.1 (getElem?_of_drop hdrop)
  have hend := startsWith_utf8 h (Nat.le_of_lt hlt) (lt_of_mem_terminator f)
  simp only [literalBody, if_pos hlt, hend, List.getElem?_eq_getElem hlt, heq, Option.bind_eq_bind,
    Option.bind_some, byte_inj hc (by decide : '\n'.toNat < 128),
    byte_inj hc (by decide : '\\'.toNat < 128), isPrefixOf_eq_isSome_after?]

/-- A character that means nothing in a literal is left behind. -/
theorem literalBody_char {c : Char} (h : bs.drop pos = utf8 (c :: cs))
    (hafter : after? f.terminator (c :: cs) = none) (hslash : ¬(c = '\\' ∧ count = 0))
    (hfeed : c ≠ '\n') :
    literalBody bs count f.multiline f.terminator (fuel + c.utf8Size) pos line =
      literalBody bs count f.multiline f.terminator fuel (pos + c.utf8Size) line := by
  by_cases hc : c.toNat < 128
  · rw [utf8Size_of_lt hc, literalBody_succ hc h, hafter, if_neg (by simp), if_neg hslash,
      if_neg hfeed]
  · rw [← String.length_utf8EncodeChar]
    exact literalBody_high (fun b hb => le_of_mem_utf8EncodeChar (Nat.le_of_not_lt hc) hb)
      (h.trans (utf8_cons c cs))

/-- A backslash and the character behind it are left behind, also where the byte that is taken along
is only the first of that character. -/
theorem literalBody_escape {d : Char} (h : bs.drop pos = utf8 ('\\' :: d :: cs))
    (hafter : after? f.terminator ('\\' :: d :: cs) = none) (hcount : count = 0) :
    literalBody bs count f.multiline f.terminator (fuel + d.utf8Size) pos line =
      literalBody bs count f.multiline f.terminator fuel (pos + 1 + d.utf8Size) line := by
  obtain ⟨b, ps, heq⟩ := exists_utf8EncodeChar_cons d
  have hnext : bs.drop (pos + 1) = b :: (ps ++ utf8 cs) := by
    rw [← List.cons_append, ← heq, ← utf8_cons]
    exact drop_add_utf8Size h
  rw [← String.length_utf8EncodeChar, heq, List.length_cons, ← Nat.add_assoc,
    literalBody_succ (by decide) h, hafter, if_neg (by simp), if_pos ⟨rfl, hcount⟩,
    literalBody_high (le_of_mem_tail heq) (drop_succ_of_drop hnext)]
  congr 1
  omega

/-- A literal is left at its end. -/
theorem literalBody_eq (hcount : f.raw = false ↔ count = 0) (h : bs.drop pos = utf8 cs)
    (hfuel : byteSize cs < fuel) :
    literalBody bs count f.multiline f.terminator fuel pos line =
      some (reached .literal pos line (Lexer.literalBody f cs)) := by
  have hslash : '\\'.utf8Size = 1 := rfl
  have hfeed : '\n'.utf8Size = 1 := rfl
  fun_induction Lexer.literalBody f cs generalizing fuel pos line with
  | case1 =>
      obtain ⟨fuel, rfl⟩ := Nat.exists_eq_add_of_lt hfuel
      simp only [literalBody, if_neg (not_lt_length_of_drop h), reached]
  | case2 c cs rest hafter =>
      obtain ⟨fuel, rfl⟩ := Nat.exists_eq_add_of_lt hfuel
      obtain ⟨quotes, hquotes⟩ := exists_terminator_cons f
      have hc : '\x22' = c := by
        have htext := append_of_after? hafter
        rw [hquotes, List.cons_append] at htext
        exact (List.cons.inj htext).1
      subst hc
      rw [literalBody_succ (by decide) h, hafter, if_pos Option.isSome_some, ← byteSize_terminator]
      rfl
  | case3 c hc hafter =>
      obtain ⟨rfl, hraw⟩ := hc
      simp only [byteSize, hslash] at hfuel
      obtain ⟨fuel, rfl⟩ := Nat.exists_eq_add_of_lt hfuel
      have hle : ¬pos + 1 < bs.length := not_lt_length_of_drop (drop_add_utf8Size h)
      rw [literalBody_succ (by decide) h, hafter, if_neg (by simp),
        if_pos ⟨rfl, hcount.1 hraw⟩, Nat.add_comm (1 + 0), literalBody.eq_def]
      simp only [if_neg (mt Nat.lt_of_succ_lt hle), reached]
  | case4 c hc d ds hafter ih =>
      obtain ⟨rfl, hraw⟩ := hc
      simp only [byteSize, hslash] at hfuel
      obtain ⟨fuel, rfl⟩ : ∃ n, fuel = n + d.utf8Size := Nat.exists_eq_add_of_le' (by omega)
      have hbehind : bs.drop (pos + 1 + d.utf8Size) = utf8 ds :=
        drop_add_utf8Size (drop_add_utf8Size h)
      rw [literalBody_escape h hafter (hcount.1 hraw), ih hbehind (by omega), Nat.add_assoc]
      exact congrArg some (reached_map _ _ _ (fun e => (e.cons d).cons '\\') ['\\', d] 0
        (fun _ => rfl) (fun _ => rfl) _).symm
  | case5 cs hmultiline hafter hc ih =>
      simp only [byteSize, hfeed] at hfuel
      obtain ⟨fuel, rfl⟩ := Nat.exists_eq_add_of_lt hfuel
      have hbehind : bs.drop (pos + 1) = utf8 cs := drop_add_utf8Size h
      rw [literalBody_succ (by decide) h, hafter, if_neg (by simp), if_neg (by simp), if_pos rfl,
        if_pos hmultiline, ih hbehind (by omega)]
      exact congrArg some (reached_map _ _ _ Lexer.Extent.newline ['\n'] 1 (fun _ => rfl)
        (fun _ => rfl) _).symm
  | case6 cs hmultiline hafter hc =>
      obtain ⟨fuel, rfl⟩ := Nat.exists_eq_add_of_lt hfuel
      rw [literalBody_succ (by decide) h, hafter, if_neg (by simp), if_neg (by simp), if_pos rfl,
        if_neg hmultiline]
      rfl
  | case7 c cs hafter hc hnewline ih =>
      simp only [byteSize] at hfuel
      obtain ⟨fuel, rfl⟩ : ∃ n, fuel = n + c.utf8Size := Nat.exists_eq_add_of_le' (by omega)
      have hslash : ¬(c = '\\' ∧ count = 0) := fun h => hc ⟨h.1, hcount.2 h.2⟩
      rw [literalBody_char h hafter hslash hnewline, ih (drop_add_utf8Size h) (by omega)]
      exact congrArg some (reached_map _ _ _ (Lexer.Extent.cons c) [c] 0 (fun _ => rfl)
        (fun _ => rfl) _).symm

/-- The number of hashes of a literal. -/
def hashCount (raw : Bool) : Nat := if raw then 1 else 0

/-- A literal is left at its end, once its hashes are counted. -/
theorem literal_of_hashes {raw : Bool} {start : Nat}
    (hhashes : hashes bs (bs.length + 1) 0 start = some (hashCount raw, pos))
    (h : bs.drop pos = utf8 ('\x22' :: cs)) :
    literal bs start line =
      some (reached .literal pos line (Lexer.literal raw ('\x22' :: cs))) := by
  have hlt : pos < bs.length := lt_length_of_drop (h.trans (utf8_cons_of_lt (by decide) cs))
  have hmultiline : startsWith bs pos ['\x22', '\x22', '\x22'] =
      some (Lexer.literalForm raw ('\x22' :: cs)).multiline :=
    startsWith_utf8 h (Nat.le_of_lt hlt) (by simp)
  have hparts := Lexer.quotes_append_drop raw cs
  have hcount : (Lexer.literalForm raw ('\x22' :: cs)).raw = false ↔ hashCount raw = 0 := by
    cases raw <;> simp [Lexer.literalForm, hashCount]
  have hsize : byteSize (Lexer.literalForm raw ('\x22' :: cs)).quotes =
      (Lexer.literalForm raw ('\x22' :: cs)).quotes.length := by
    simp only [Lexer.LiteralForm.quotes]
    split <;> rfl
  have hterminator : (Lexer.literalForm raw ('\x22' :: cs)).quotes ++
      List.replicate (hashCount raw) '#' = (Lexer.literalForm raw ('\x22' :: cs)).terminator := by
    cases raw <;> rfl
  have hdrop : bs.drop (pos + byteSize (Lexer.literalForm raw ('\x22' :: cs)).quotes) =
      utf8 (('\x22' :: cs).drop (Lexer.literalForm raw ('\x22' :: cs)).quotes.length) := by
    rw [← length_utf8]
    exact drop_add_of_drop (by rw [← utf8_append, hparts, h])
  have hfuel : byteSize (('\x22' :: cs).drop (Lexer.literalForm raw ('\x22' :: cs)).quotes.length) <
      bs.length + 1 := by
    rw [← length_utf8, ← hdrop, List.length_drop]
    omega
  simp only [literal, hhashes, hmultiline, Option.bind_eq_bind, Option.bind_some]
  change literalBody bs (hashCount raw) _ ((Lexer.literalForm raw ('\x22' :: cs)).quotes ++
    List.replicate (hashCount raw) '#') _
    (pos + (Lexer.literalForm raw ('\x22' :: cs)).quotes.length) line = _
  rw [hterminator, ← hsize, literalBody_eq hcount hdrop hfuel]
  exact congrArg some (reached_map _ _ _ (fun e => { e with taken := _ ++ e.taken }) _ 0
    (fun _ => rfl) (fun _ => rfl) _).symm

theorem literal_of_quote (h : bs.drop pos = utf8 ('\x22' :: cs)) :
    literal bs pos line =
      some (reached .literal pos line (Lexer.literal false ('\x22' :: cs))) := by
  have hquote := getElem?_of_drop (h.trans (utf8_cons_of_lt (by decide) cs))
  refine literal_of_hashes ?_ h
  rw [hashes, hquote, if_neg (by decide)]
  rfl

theorem literal_of_hash (h : bs.drop pos = utf8 ('#' :: '\x22' :: cs)) :
    literal bs pos line =
      some (reached .literal (pos + 1) line (Lexer.literal true ('\x22' :: cs))) := by
  rw [utf8_cons_of_lt (by decide)] at h
  have hrest := drop_succ_of_drop h
  have hquote := getElem?_of_drop (hrest.trans (utf8_cons_of_lt (by decide) cs))
  obtain ⟨n, hn⟩ := Nat.exists_eq_add_of_lt (lt_length_of_drop h)
  refine literal_of_hashes ?_ hrest
  rw [hashes, getElem?_of_drop h, if_pos rfl, hn, hashes, hquote, if_neg (by decide)]
  rfl

end Literal

/-! ### Names, numbers and comments -/

/-- What one round yields: a token, if there is one, and the position and the line behind it. -/
structure Round where
  /-- What the token is. -/
  kind? : Option TokenKind
  /-- The position behind it. -/
  pos : Nat
  /-- The line behind it. -/
  line : Nat

/-- Whether a byte is that of a decimal digit. -/
def isDigitByte (b : UInt8) : Bool := byte '0' ≤ b && b ≤ byte '9'

/-- Moves behind an identifier, character by character. -/
def nameEnd (source : List Char) : (fuel pos : Nat) → Option Nat
  | 0, _ => none
  | fuel + 1, pos => do
    match (← dropBytes? pos source).head? with
    | some c => if continuesName c then nameEnd source fuel (pos + c.utf8Size) else some pos
    | none => some pos

/-- Moves behind a number, character by character. -/
def numberEnd (source : List Char) : (fuel pos : Nat) → Option Nat
  | 0, _ => none
  | fuel + 1, pos => do
    match (← dropBytes? pos source).head? with
    | some c =>
      let fraction := c == '.' && (utf8 source)[pos + 1]?.any isDigitByte
      if c.isAlphanum || c == '_' || fraction then numberEnd source fuel (pos + c.utf8Size)
      else some pos
    | none => some pos

/-- Reads an identifier. -/
def name (source : List Char) (pos line : Nat) : Option Round := do
  let stop ← nameEnd source (source.length + 1) pos
  let word ← Text.slice? source pos stop
  some ⟨some (.word (String.ofList word)), stop, line⟩

/-- Reads a number. -/
def number (source : List Char) (pos line : Nat) : Option Round := do
  let stop ← numberEnd source (source.length + 1) pos
  some ⟨some .number, stop, line⟩

/-- Reads a line comment. -/
def lineComment (source : List Char) (pos line : Nat) : Option Round := do
  let rest ← dropBytes? pos source
  let length := byteSize (rest.takeWhile (· != '\n'))
  let body ← takeBytes? length rest
  some ⟨some (.comment (Lexer.commentBody body)), pos + length, line⟩

/-- Reads an identifier in backticks. -/
def quotedName (source : List Char) (pos line : Nat) : Option Round := do
  let rest ← dropBytes? (pos + 1) source
  let length := byteSize (rest.takeWhile fun c => c != '\x60' && c != '\n')
  let word ← takeBytes? length rest
  let stop := pos + 1 + length
  let closed := (utf8 source)[stop]? = some (byte '\x60')
  some ⟨some (.word (String.ofList word)), if closed then stop + 1 else stop, line⟩

/-- The round that does what a step does. -/
def Round.of (pos line : Nat) (m : Lexer.Munch) : Round :=
  ⟨m.kind?, pos + byteSize m.extent.taken, line + m.extent.newlines⟩

theorem nameEnd_eq {fuel : Nat} (h : StandsAt source pos cs) (hfuel : cs.length < fuel) :
    nameEnd source fuel pos = some (pos + byteSize (cs.takeWhile continuesName)) := by
  induction fuel generalizing pos cs with
  | zero => cases hfuel
  | succ fuel ih =>
      rw [nameEnd, h.dropBytes?]
      cases cs with
      | nil => rfl
      | cons c cs =>
          simp only [Option.bind_eq_bind, Option.bind_some, List.head?_cons]
          cases hc : continuesName c with
          | true =>
              rw [if_pos rfl, ih h.cons (Nat.lt_of_succ_lt_succ hfuel),
                List.takeWhile_cons_of_pos hc, byteSize, Nat.add_assoc]
          | false =>
              rw [if_neg Bool.false_ne_true, List.takeWhile_cons_of_neg (by simp [hc])]
              rfl

/-- The first byte tells whether the first character is an ASCII character. -/
theorem head?_utf8_cons {c : Char} {cs : List Char} (h : 128 ≤ c.toNat) :
    ∃ b, (utf8 (c :: cs)).head? = some b ∧ 128 ≤ b.toNat := by
  obtain ⟨b, ps, heq⟩ := exists_utf8EncodeChar_cons c
  refine ⟨b, ?_, le_of_mem_utf8EncodeChar h (heq ▸ List.mem_cons_self)⟩
  rw [utf8_cons, heq, List.cons_append, List.head?_cons]

theorem head?_utf8 {a : Char} (ha : a.toNat < 128) (cs : List Char) :
    (utf8 cs).head? = some (byte a) ↔ cs.head? = some a := by
  cases cs with
  | nil => simp
  | cons c cs =>
      rw [List.head?_cons, Option.some.injEq]
      by_cases hc : c.toNat < 128
      · rw [utf8_cons_of_lt hc, List.head?_cons, Option.some.injEq, byte_inj hc ha]
      · obtain ⟨b, hhead, hb⟩ := head?_utf8_cons (Nat.le_of_not_lt hc)
        rw [hhead, Option.some.injEq]
        constructor
        · intro heq
          exact absurd heq.symm (byte_ne_of_le ha hb)
        · intro heq
          exact absurd (heq ▸ ha) hc

theorem any_isDigitByte (cs : List Char) :
    (utf8 cs).head?.any isDigitByte = Lexer.startsWithDigit cs := by
  have hzero : (byte '0').toNat = 48 := rfl
  have hnine : (byte '9').toNat = 57 := rfl
  cases cs with
  | nil => rfl
  | cons c cs =>
      rw [Lexer.startsWithDigit, Bool.eq_iff_iff]
      simp only [Char.isDigit, Bool.and_eq_true, decide_eq_true_eq, ge_iff_le,
        UInt32.le_iff_toNat_le]
      by_cases hc : c.toNat < 128
      · rw [utf8_cons_of_lt hc, List.head?_cons, Option.any_some, isDigitByte]
        simp only [Bool.and_eq_true, decide_eq_true_eq, UInt8.le_iff_toNat_le, toNat_byte hc, hzero,
          hnine]
        rfl
      · obtain ⟨b, hhead, hb⟩ := head?_utf8_cons (Nat.le_of_not_lt hc)
        rw [hhead, Option.any_some, isDigitByte]
        simp only [Bool.and_eq_true, decide_eq_true_eq, UInt8.le_iff_toNat_le, hzero, hnine]
        change _ ↔ 48 ≤ c.toNat ∧ c.toNat ≤ 57
        omega

theorem StandsAt.getElem? (h : StandsAt source pos cs) :
    (utf8 source)[pos]? = (utf8 cs).head? := by
  rw [← List.head?_drop, h.drop_utf8]

theorem StandsAt.getElem?_succ {c : Char} (hc : c.toNat < 128) (h : StandsAt source pos (c :: cs)) :
    (utf8 source)[pos + 1]? = (utf8 cs).head? :=
  StandsAt.getElem? (utf8Size_of_lt hc ▸ h.cons)

theorem numberEnd_eq {fuel : Nat} (h : StandsAt source pos cs) (hfuel : cs.length < fuel) :
    numberEnd source fuel pos = some (pos + byteSize (Lexer.number cs).1) := by
  induction fuel generalizing pos cs with
  | zero => cases hfuel
  | succ fuel ih =>
      rw [numberEnd, h.dropBytes?]
      cases cs with
      | nil => rfl
      | cons c cs =>
          have hfraction : (c == '.' && (utf8 source)[pos + 1]?.any isDigitByte) =
              (c == '.' && Lexer.startsWithDigit cs) := by
            by_cases hc : c = '.'
            · subst hc
              rw [h.getElem?_succ (by decide), any_isDigitByte]
            · rw [beq_false_of_ne hc, Bool.false_and, Bool.false_and]
          simp only [Option.bind_eq_bind, Option.bind_some, List.head?_cons, hfraction,
            Lexer.number]
          split
          · rw [ih h.cons (Nat.lt_of_succ_lt_succ hfuel), byteSize, Nat.add_assoc]
          · rfl

theorem name_eq {c : Char} (h : StandsAt source pos (c :: cs)) (hc : startsName c = true)
    (line : Nat) :
    name source pos line = some (Round.of pos line ⟨some (.word (String.ofList
      (c :: cs.takeWhile continuesName))), c :: cs.takeWhile continuesName, 0,
        cs.dropWhile continuesName⟩) := by
  have hfirst := continuesName_of_startsName hc
  have hlength : (c :: cs).length < source.length + 1 := by
    obtain ⟨before, rfl, -⟩ := h
    rw [List.length_append]
    omega
  have hparts : StandsAt source pos
      (c :: cs.takeWhile continuesName ++ cs.dropWhile continuesName) := by
    rw [List.cons_append, List.takeWhile_append_dropWhile]
    exact h
  rw [name, nameEnd_eq h hlength, List.takeWhile_cons_of_pos hfirst]
  simp only [Option.bind_eq_bind, Option.bind_some, hparts.slice? rfl]
  rfl

theorem number_eq (h : StandsAt source pos cs) (line : Nat) :
    number source pos line =
      some (Round.of pos line ⟨some .number, (Lexer.number cs).1, 0, (Lexer.number cs).2⟩) := by
  have hlength : cs.length < source.length + 1 := by
    obtain ⟨before, rfl, -⟩ := h
    rw [List.length_append]
    omega
  rw [number, numberEnd_eq h hlength]
  rfl

theorem lineComment_eq (h : StandsAt source pos cs) (line : Nat) :
    lineComment source pos line = some (Round.of pos line (Lexer.lineComment cs)) := by
  have hbody := takeBytes?_append (cs.takeWhile (· != '\n')) (cs.dropWhile (· != '\n'))
  rw [List.takeWhile_append_dropWhile] at hbody
  rw [lineComment, h.dropBytes?]
  simp only [Option.bind_eq_bind, Option.bind_some, hbody]
  rfl

theorem quotedName_eq (h : StandsAt source pos ('\x60' :: cs)) (line : Nat) :
    quotedName source pos line = some (Round.of pos line (Lexer.quotedName cs)) := by
  have htick : '\x60'.utf8Size = 1 := rfl
  have hopened : StandsAt source (pos + 1) cs := h.cons
  have hword := takeBytes?_append (cs.takeWhile fun c => c != '\x60' && c != '\n')
    (cs.dropWhile fun c => c != '\x60' && c != '\n')
  have hstop : StandsAt source (pos + 1 + byteSize (cs.takeWhile fun c => c != '\x60' && c != '\n'))
      (cs.dropWhile fun c => c != '\x60' && c != '\n') := by
    refine StandsAt.append ?_
    rw [List.takeWhile_append_dropWhile]
    exact hopened
  rw [List.takeWhile_append_dropWhile] at hword
  rw [quotedName, hopened.dropBytes?]
  simp only [Option.bind_eq_bind, Option.bind_some, hword, hstop.getElem?, head?_utf8 (by decide :
    '\x60'.toNat < 128), Lexer.quotedName]
  split
  · next hclosed =>
      obtain ⟨ds, hds⟩ := List.head?_eq_some_iff.1 hclosed
      simp only [hds, Round.of, byteSize, byteSize_append, htick, Nat.add_zero, Nat.add_assoc]
  · next hopen =>
      split
      · next rest hrest => exact absurd (by rw [hrest, List.head?_cons]) hopen
      · simp only [Round.of, byteSize, htick, Nat.add_zero, Nat.add_assoc]

/-! ### Rounds -/

/-- One round: reads what starts with the character `c` at a position. -/
def round (source : List Char) (pos line : Nat) (c : Char) :
    Option (Except Unclosed Round) := do
  let bs := utf8 source
  if c = '\n' then some (.ok ⟨none, pos + 1, line + 1⟩)
  else if isBlank c then some (.ok ⟨none, pos + c.utf8Size, line⟩)
  else if ← startsWith bs pos ['/', '/'] then
    let r ← lineComment source pos line
    some (.ok r)
  else if ← startsWith bs pos ['/', '*'] then
    let behind ← blockComment bs (bs.length + 1) 0 pos line
    some (behind.map fun x => ⟨none, x.1, x.2⟩)
  else if c = '\x22' ∨ c = '#' ∧ bs[pos + 1]? = some (byte '\x22') then
    let behind ← literal bs pos line
    some (behind.map fun x => ⟨some .literal, x.1, x.2⟩)
  else if c = '\x60' then
    let r ← quotedName source pos line
    some (.ok r)
  else if c.isDigit then
    let r ← number source pos line
    some (.ok r)
  else if startsName c then
    let r ← name source pos line
    some (.ok r)
  else if ← startsWith bs pos ['-', '>'] then some (.ok ⟨some .arrow, pos + 2, line⟩)
  else some (.ok ⟨some (.mark c), pos + c.utf8Size, line⟩)

theorem round_blank {c : Char} (hc : isBlank c = true) (line : Nat) :
    round source pos line c = some (.ok ⟨none, pos + c.utf8Size, line + Lexer.lineEnd c⟩) := by
  by_cases hfeed : c = '\n'
  · subst hfeed
    rfl
  · rw [Lexer.lineEnd, if_neg hfeed, round, if_neg hfeed, if_pos hc]
    rfl

theorem isPrefixOf_pair (a b c : Char) (cs : List Char) :
    [a, b].isPrefixOf (c :: cs) = true ↔ c = a ∧ cs.head? = some b := by
  cases cs with
  | nil => simp [List.isPrefixOf]
  | cons d ds =>
      simp only [List.isPrefixOf, Bool.and_true, Bool.and_eq_true, beq_iff_eq, List.head?_cons,
        Option.some.injEq]
      constructor <;> rintro ⟨rfl, rfl⟩ <;> exact ⟨rfl, rfl⟩

/-- One round yields what a step does. -/
theorem round_eq_munch {c : Char} (h : StandsAt source pos (c :: cs)) (hc : isBlank c = false)
    (line : Nat) :
    round source pos line c = some ((Lexer.munch c cs).map (Round.of pos line)) := by
  have hfeed : c ≠ '\n' := by
    rintro rfl
    cases hc
  have hpattern : ∀ a b : Char, a.toNat < 128 → b.toNat < 128 →
      startsWith (utf8 source) pos [a, b] = some (decide (c = a ∧ cs.head? = some b)) := by
    intro a b ha hb
    rw [startsWith_utf8 h.drop_utf8 h.le_length (by simp [ha, hb]), Option.some.injEq,
      Bool.eq_iff_iff, isPrefixOf_pair, decide_eq_true_eq]
  have hhash : (c = '#' ∧ (utf8 source)[pos + 1]? = some (byte '\x22')) ↔
      (c = '#' ∧ cs.head? = some '\x22') := by
    refine and_congr_right ?_
    rintro rfl
    rw [h.getElem?_succ (by decide), head?_utf8 (by decide)]
  simp only [round, if_neg hfeed, hc, Bool.false_eq_true, if_false,
    hpattern '/' '/' (by decide) (by decide), hpattern '/' '*' (by decide) (by decide),
    hpattern '-' '>' (by decide) (by decide), hhash, Option.bind_eq_bind, Option.bind_some,
    decide_eq_true_eq, Lexer.munch]
  split
  · rw [lineComment_eq h]
    rfl
  split
  · next hcond =>
      obtain ⟨rfl, hstar⟩ := hcond
      obtain ⟨ds, rfl⟩ := List.head?_eq_some_iff.1 hstar
      have hdrop := h.drop_utf8
      have hinside : (utf8 source).drop (pos + 2) = utf8 ds := by
        rw [utf8_cons_of_lt (by decide), utf8_cons_of_lt (by decide)] at hdrop
        exact drop_succ_of_drop (drop_succ_of_drop hdrop)
      have hfuel : byteSize ds < (utf8 source).length := by
        have hlength := congrArg List.length hinside
        rw [List.length_drop, length_utf8 ds] at hlength
        have := lt_length_of_drop (hdrop.trans (utf8_cons_of_lt (by decide) _))
        omega
      rw [blockComment_succ (by decide) hdrop, if_pos (by rfl), blockComment_eq hinside hfuel]
      simp only [List.tail_cons, Option.bind_some]
      cases Lexer.blockComment 0 ds with
      | none => rfl
      | some e =>
          have hsize : byteSize ('/' :: '*' :: e.taken) = 2 + byteSize e.taken :=
            byteSize_append ['/', '*'] e.taken
          simp only [reached, Except.map, Round.of, Lexer.Extent.cons, hsize, Nat.add_assoc]
  by_cases hquote : c = '\x22'
  · subst hquote
    rw [if_pos (.inl rfl), if_pos rfl, literal_of_quote h.drop_utf8]
    cases Lexer.literal false ('\x22' :: cs) <;> rfl
  by_cases hraw : c = '#' ∧ cs.head? = some '\x22'
  · rw [if_pos (.inr hraw), if_neg hquote, if_pos hraw]
    obtain ⟨rfl, hhead⟩ := hraw
    obtain ⟨ds, rfl⟩ := List.head?_eq_some_iff.1 hhead
    rw [literal_of_hash h.drop_utf8]
    cases Lexer.literal true ('\x22' :: ds) with
    | none => rfl
    | some e =>
        have hsize : byteSize ('#' :: e.taken) = 1 + byteSize e.taken :=
          byteSize_append ['#'] e.taken
        simp only [Option.bind_some, reached, Except.map, Round.of, Lexer.Extent.cons, hsize,
          Nat.add_assoc]
  rw [if_neg (by rintro (h | h) <;> contradiction), if_neg hquote, if_neg hraw]
  split
  · next htick =>
      subst htick
      rw [quotedName_eq h]
      rfl
  split
  · rw [number_eq h]
    rfl
  split
  · next hname =>
      rw [name_eq h hname]
      rfl
  split
  · rfl
  · rfl

/-! ### The whole text -/

/-- Reads tokens from a position and a line on, behind those read so far. -/
def tokensFrom (source : List Char) :
    (fuel pos line : Nat) → List Token → Option (Except LexError (List Token))
  | 0, _, _, _ => none
  | fuel + 1, pos, line, ts => do
    match (← dropBytes? pos source).head? with
    | some c =>
      match ← round source pos line c with
      | .error u => some (.error ⟨u, line⟩)
      | .ok r =>
        let found := r.kind?.toList.map fun k => ⟨k, pos, r.pos, line⟩
        tokensFrom source fuel r.pos r.line (ts ++ found)
    | none => some (.ok ts)

/-- The tokens of a source text. -/
def tokenize (text : String) : Option (Except LexError (List Token)) :=
  tokensFrom text.toList (text.toList.length + 1) 0 1 []

theorem tokensFrom_eq {fuel line : Nat} {ts : List Token} (h : StandsAt source pos cs)
    (hfuel : cs.length < fuel) :
    tokensFrom source fuel pos line ts = some ((Lexer.tokens pos line cs).map (ts ++ ·)) := by
  induction fuel generalizing pos line cs ts with
  | zero => cases hfuel
  | succ fuel ih =>
      rw [tokensFrom, h.dropBytes?]
      cases cs with
      | nil => simp [Except.map]
      | cons c cs =>
          simp only [Option.bind_eq_bind, Option.bind_some, List.head?_cons]
          cases hc : isBlank c with
          | true =>
              simp only [round_blank hc, Option.bind_some]
              rw [ih h.cons (Nat.lt_of_succ_lt_succ hfuel), Lexer.tokens_blank hc]
              simp
          | false =>
              simp only [round_eq_munch h hc, Option.bind_some]
              cases hm : Lexer.munch c cs with
              | error u => rw [Lexer.tokens_of_munch_error hm]; rfl
              | ok m =>
                  have hparts := Lexer.munch_taken_append hm
                  have hshorter := Lexer.length_rest_lt hm
                  rw [← hparts] at h
                  have htoken : (m.kind?.toList.map fun k =>
                      Token.mk k pos (pos + byteSize m.extent.taken) line) = m.token pos line := by
                    simp only [Lexer.Munch.token]
                    cases m.kind? <;> rfl
                  rw [Lexer.tokens_of_munch hm]
                  simp only [Except.map, Round.of, htoken]
                  rw [ih h.append (by omega)]
                  cases Lexer.tokens (pos + byteSize m.extent.taken) (line + m.extent.newlines)
                    m.extent.rest with
                  | error e => rfl
                  | ok us => simp only [Except.map, List.append_assoc]

/-- **No access fails** while a text is divided into its tokens. -/
theorem tokenize_eq (text : String) : tokenize text = some (Scaffold.tokenize text) := by
  have hstart : StandsAt text.toList 0 text.toList := ⟨[], rfl, rfl⟩
  rw [tokenize, tokensFrom_eq hstart (Nat.lt_succ_self _)]
  change some ((Scaffold.tokenize text).map (fun ts => [] ++ ts)) = _
  cases Scaffold.tokenize text <;> rfl

end Scaffold.Checked
