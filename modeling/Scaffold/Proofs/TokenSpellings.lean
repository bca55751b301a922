/-
**How tokens are spelled.**

The rules of the written forms, apart from how a text is searched for them.  A block comment is
complete when every comment inside it is; a string literal goes on to the first quotes that match
its opening ones and no backslash stands before; what separates tokens is made of blanks and
complete block comments.  A step from the front of a text takes exactly such a form, and it fails
only where a form is opened and no continuation of the text closes it.

Main definitions:

* `Scaffold.Lexer.Closing` — what stands behind the opening of a block comment, with its end;
* `Scaffold.Lexer.IsGap` — blanks and complete block comments;
* `Scaffold.Lexer.LiteralForm.Closes` — what stands behind the opening quotes of a literal, with its
  end;
* `Scaffold.Lexer.IsLiteral` — a whole string literal;
* `Scaffold.Lexer.Finds` — what a step finds at the front of a text;
* `Scaffold.TokenKind.Spelled` — the written forms of each kind of token;
* `Scaffold.Lexer.Opens` — a text that starts with a comment or literal that nothing closes.

Main results:

* `Scaffold.Lexer.blockComment_eq_some_iff`, `Scaffold.Lexer.LiteralForm.Closes.literalBody`,
  `Scaffold.Lexer.closes_literalBody` — the searches find an end exactly where the rules have one;
* `Scaffold.Lexer.finds_munch` — every step is one of these findings;
* `Scaffold.Lexer.munch_isSpelled` — **a step takes a gap or a written form of its token**;
* `Scaffold.Lexer.opens_of_munch` — a step fails only at the opening of something unclosed.
-/

import Scaffold.Token.Lexer
import Scaffold.Proofs.TokenPlaces

set_option relaxedAutoImplicit false
set_option autoImplicit false

namespace Scaffold

namespace Lexer

open Text

/-! ### Block comments -/

/-- What stands behind the opening of a block comment, up to and with its end.  The comments inside
it are complete, and nothing else in it opens or ends a comment. -/
inductive Closing : List Char → Prop where
  /-- The end itself. -/
  | close : Closing ['*', '/']
  /-- A comment inside. -/
  | nested {xs ys : List Char} (inner : Closing xs) (outer : Closing ys) :
      Closing ('/' :: '*' :: (xs ++ ys))
  /-- A character with which no comment opens or ends. -/
  | char {c : Char} {xs : List Char} (hopen : ¬ (c = '/' ∧ xs.head? = some '*'))
      (hclose : ¬ (c = '*' ∧ xs.head? = some '/')) (more : Closing xs) : Closing (c :: xs)

theorem Closing.ne_nil {xs : List Char} (h : Closing xs) : xs ≠ [] := by
  cases h <;> exact List.cons_ne_nil _ _

theorem head?_append_of_ne_nil {xs : List Char} (h : xs ≠ []) (ys : List Char) :
    (xs ++ ys).head? = xs.head? := by
  obtain ⟨x, zs, rfl⟩ := List.exists_cons_of_ne_nil h
  rfl

/-- The extent that starts with further characters, whose line feeds all count. -/
def Extent.behind (xs : List Char) (e : Extent) : Extent :=
  ⟨xs ++ e.taken, xs.count '\n' + e.newlines, e.rest⟩

theorem blockComment_open (depth : Nat) (cs : List Char) :
    blockComment depth ('/' :: '*' :: cs) =
      (blockComment (depth + 1) cs).map (Extent.behind ['/', '*']) := by
  rw [blockComment]
  congr 1
  funext e
  simp [Extent.behind, Extent.cons]

theorem blockComment_close (depth : Nat) (cs : List Char) :
    blockComment (depth + 1) ('*' :: '/' :: cs) =
      (blockComment depth cs).map (Extent.behind ['*', '/']) := by
  rw [blockComment]
  congr 1
  funext e
  simp [Extent.behind, Extent.cons]

theorem Extent.behind_newline (e : Extent) : e.behind ['\n'] = e.newline := by
  simp [Extent.behind, Extent.newline, Nat.add_comm]

theorem Extent.behind_of_ne {c : Char} (hc : c ≠ '\n') (e : Extent) : e.behind [c] = e.cons c := by
  simp [Extent.behind, Extent.cons, hc]

theorem blockComment_char {c : Char} {cs : List Char} (hopen : ¬ (c = '/' ∧ cs.head? = some '*'))
    (hclose : ¬ (c = '*' ∧ cs.head? = some '/')) (depth : Nat) :
    blockComment depth (c :: cs) = (blockComment depth cs).map (Extent.behind [c]) := by
  by_cases hc : c = '\n'
  · subst hc
    rw [blockComment, funext Extent.behind_newline]
  · rw [blockComment, funext (Extent.behind_of_ne hc)]
    · rintro ds rfl rfl
      exact hopen ⟨rfl, rfl⟩
    · exact hc
    · rintro ds - rfl rfl
      exact hclose ⟨rfl, rfl⟩
    · rintro n ds - rfl rfl
      exact hclose ⟨rfl, rfl⟩

/-- The search for the end of a comment goes past what the rules close, and no further. -/
theorem Closing.blockComment {xs : List Char} (h : Closing xs) :
    (∀ ys, Lexer.blockComment 0 (xs ++ ys) = some ⟨xs, xs.count '\n', ys⟩) ∧
      ∀ depth ys, Lexer.blockComment (depth + 1) (xs ++ ys) =
        (Lexer.blockComment depth ys).map (Extent.behind xs) := by
  induction h with
  | close =>
      exact ⟨fun ys => rfl, fun depth ys => blockComment_close depth ys⟩
  | @nested xs zs _ _ ihinner ihouter =>
      constructor
      · intro ys
        rw [List.cons_append, List.cons_append, List.append_assoc, blockComment_open, ihinner.2,
          ihouter.1]
        simp [Extent.behind]
      · intro depth ys
        rw [List.cons_append, List.cons_append, List.append_assoc, blockComment_open, ihinner.2,
          ihouter.2, Option.map_map, Option.map_map]
        congr 1
        funext e
        simp [Extent.behind, Nat.add_assoc]
  | @char c xs hopen hclose more ih =>
      constructor
      · intro ys
        rw [← head?_append_of_ne_nil more.ne_nil ys] at hopen hclose
        rw [List.cons_append, blockComment_char hopen hclose, ih.1]
        simp [Extent.behind, List.count_cons, Nat.add_comm]
      · intro depth ys
        rw [← head?_append_of_ne_nil more.ne_nil ys] at hopen hclose
        rw [List.cons_append, blockComment_char hopen hclose, ih.2, Option.map_map]
        congr 1
        funext e
        simp [Extent.behind, List.count_cons, Nat.add_comm, Nat.add_assoc]

/-- What ends a comment and `depth` further ones around it, one behind the other. -/
def Closings : (depth : Nat) → List Char → Prop
  | 0, xs => Closing xs
  | depth + 1, xs => ∃ ys zs, xs = ys ++ zs ∧ Closing ys ∧ Closings depth zs

theorem Closings.char {depth : Nat} {c : Char} {xs : List Char}
    (hopen : ¬ (c = '/' ∧ xs.head? = some '*')) (hclose : ¬ (c = '*' ∧ xs.head? = some '/'))
    (h : Closings depth xs) : Closings depth (c :: xs) := by
  cases depth with
  | zero => exact Closing.char hopen hclose h
  | succ depth =>
      obtain ⟨ys, zs, rfl, hys, hzs⟩ := h
      rw [head?_append_of_ne_nil hys.ne_nil] at hopen hclose
      exact ⟨c :: ys, zs, rfl, hys.char hopen hclose, hzs⟩

theorem Closings.nested {depth : Nat} {xs : List Char} (h : Closings (depth + 1) xs) :
    Closings depth ('/' :: '*' :: xs) := by
  obtain ⟨ys, zs, rfl, hys, hzs⟩ := h
  cases depth with
  | zero => exact Closing.nested hys hzs
  | succ depth =>
      obtain ⟨us, vs, rfl, hus, hvs⟩ := hzs
      exact ⟨'/' :: '*' :: (ys ++ us), vs, by simp, Closing.nested hys hus, hvs⟩

theorem closings_blockComment {depth : Nat} {cs : List Char} {e : Extent}
    (h : blockComment depth cs = some e) : Closings depth e.taken := by
  fun_induction blockComment depth cs generalizing e with
  | case1 => cases h
  | case2 depth cs ih =>
      obtain ⟨f, hf, rfl⟩ := Option.map_eq_some_iff.1 h
      exact (ih hf).nested
  | case3 cs =>
      cases h
      exact Closing.close
  | case4 depth cs ih =>
      obtain ⟨f, hf, rfl⟩ := Option.map_eq_some_iff.1 h
      exact ⟨['*', '/'], f.taken, rfl, .close, ih hf⟩
  | case5 depth cs ih =>
      obtain ⟨f, hf, rfl⟩ := Option.map_eq_some_iff.1 h
      exact (ih hf).char (fun hc => absurd hc.1 (by decide)) (fun hc => absurd hc.1 (by decide))
  | case6 depth c cs hopen hzero hsucc hnewline ih =>
      obtain ⟨f, hf, rfl⟩ := Option.map_eq_some_iff.1 h
      -- what follows in the text is what follows in the comment
      have hhead : ∀ d, f.taken.head? = some d → ∃ ds, cs = d :: ds := by
        intro d hd
        obtain ⟨ds, hds⟩ := List.head?_eq_some_iff.1 hd
        exact ⟨ds ++ f.rest, by rw [← blockComment_append hf, hds, List.cons_append]⟩
      refine (ih hf).char ?_ ?_
      · rintro ⟨rfl, hd⟩
        obtain ⟨ds, rfl⟩ := hhead _ hd
        exact hopen ds rfl rfl
      · rintro ⟨rfl, hd⟩
        obtain ⟨ds, rfl⟩ := hhead _ hd
        cases depth with
        | zero => exact hzero ds rfl rfl rfl
        | succ depth => exact hsucc depth ds rfl rfl rfl

/-- The end of a comment is found exactly where the rules have it. -/
theorem blockComment_eq_some_iff {cs : List Char} {e : Extent} :
    blockComment 0 cs = some e ↔
      Closing e.taken ∧ e.newlines = e.taken.count '\n' ∧ e.taken ++ e.rest = cs := by
  constructor
  · intro h
    have hclosing : Closing e.taken := closings_blockComment h
    have happend := blockComment_append h
    have hfound := hclosing.blockComment.1 e.rest
    rw [happend, h] at hfound
    exact ⟨hclosing, congrArg Extent.newlines (Option.some.inj hfound), happend⟩
  · rintro ⟨hclosing, hnewlines, rfl⟩
    rw [hclosing.blockComment.1, ← hnewlines]

/-- Blanks and complete block comments. -/
inductive IsGap : List Char → Prop where
  /-- Nothing. -/
  | nil : IsGap []
  /-- A blank in front. -/
  | blank {c : Char} {cs : List Char} (hc : isBlank c = true) (more : IsGap cs) : IsGap (c :: cs)
  /-- A comment in front. -/
  | comment {xs cs : List Char} (hxs : Closing xs) (more : IsGap cs) :
      IsGap ('/' :: '*' :: (xs ++ cs))

theorem IsGap.append {xs ys : List Char} (hx : IsGap xs) (hy : IsGap ys) : IsGap (xs ++ ys) := by
  induction hx with
  | nil => exact hy
  | blank hc _ ih => exact .blank hc ih
  | comment hxs _ ih =>
      rw [List.cons_append, List.cons_append, List.append_assoc]
      exact .comment hxs ih

theorem IsGap.of_blanks {cs : List Char} (h : ∀ c ∈ cs, isBlank c = true) : IsGap cs := by
  induction cs with
  | nil => exact .nil
  | cons c cs ih =>
      exact .blank (h c List.mem_cons_self) (ih fun d hd => h d (List.mem_cons_of_mem c hd))

/-! ### String literals -/

/-- What stands behind the opening quotes of a literal, up to and with the quotes that end it. -/
inductive LiteralForm.Closes (f : LiteralForm) : List Char → Prop where
  /-- The quotes that match the opening ones. -/
  | close : f.Closes f.terminator
  /-- A backslash and the character that it takes along. -/
  | escape {c : Char} {xs : List Char} (hraw : f.raw = false) (more : f.Closes xs) :
      f.Closes ('\\' :: c :: xs)
  /-- A character for itself; a line feed only between three quotes. -/
  | char {c : Char} {xs : List Char} (hplain : ¬ (c = '\\' ∧ f.raw = false))
      (hline : c = '\n' → f.multiline = true) (hopen : ¬ f.terminator <+: c :: xs)
      (more : f.Closes xs) : f.Closes (c :: xs)

/-- The characters that open a literal. -/
def LiteralForm.opening (f : LiteralForm) : List Char :=
  (if f.raw then ['#'] else []) ++ f.quotes

/-- A string literal: its opening quotes, three if three stand there, and what closes them. -/
def IsLiteral (cs : List Char) : Prop :=
  ∃ (f : LiteralForm) (body : List Char), cs = f.opening ++ body ∧ f.Closes body ∧
    (f.multiline = true ↔ ['\x22', '\x22', '\x22'] <+: f.quotes ++ body)

theorem after?_eq_none_iff {xs ys : List Char} : after? xs ys = none ↔ ¬ xs <+: ys := by
  constructor
  · rintro h ⟨zs, rfl⟩
    rw [after?_append] at h
    cases h
  · intro h
    cases hafter : after? xs ys with
    | none => rfl
    | some zs => exact absurd ⟨zs, append_of_after? hafter⟩ h

/-- What closes a literal ends with its terminator. -/
theorem LiteralForm.Closes.terminator_suffix {f : LiteralForm} {xs : List Char} (h : f.Closes xs) :
    f.terminator <:+ xs := by
  induction h with
  | close => exact List.suffix_refl _
  | escape _ _ ih => exact (ih.trans (List.suffix_cons _ _)).trans (List.suffix_cons _ _)
  | char _ _ _ _ ih => exact ih.trans (List.suffix_cons _ _)

/-- A terminator starts with a quote, so nothing else in front is one. -/
theorem not_terminator_prefix {f : LiteralForm} {c : Char} (hc : c ≠ '\x22') (cs : List Char) :
    ¬ f.terminator <+: c :: cs := by
  rintro ⟨ds, hds⟩
  have hhead := congrArg List.head? hds
  simp only [LiteralForm.terminator, LiteralForm.quotes] at hhead
  split at hhead <;> exact hc (Option.some.inj hhead).symm

theorem literalBody_escape {f : LiteralForm} (hraw : f.raw = false) (c : Char) (cs : List Char) :
    literalBody f ('\\' :: c :: cs) = (literalBody f cs).map fun e => (e.cons c).cons '\\' := by
  have hopen : ¬ f.terminator <+: '\\' :: c :: cs := not_terminator_prefix (by decide) _
  rw [literalBody.eq_def]
  simp [after?_eq_none_iff.2 hopen, hraw]

theorem literalBody_char {f : LiteralForm} {c : Char} {cs : List Char}
    (hplain : ¬ (c = '\\' ∧ f.raw = false)) (hline : c = '\n' → f.multiline = true)
    (hopen : ¬ f.terminator <+: c :: cs) :
    literalBody f (c :: cs) = (literalBody f cs).map (Extent.behind [c]) := by
  rw [literalBody.eq_def]
  simp only [after?_eq_none_iff.2 hopen, if_neg hplain]
  by_cases hc : c = '\n'
  · rw [if_pos hc, if_pos (hline hc), hc, funext Extent.behind_newline]
  · rw [if_neg hc, funext (Extent.behind_of_ne hc)]

/-- The search for the end of a literal stops where the rules have it. -/
theorem LiteralForm.Closes.literalBody {f : LiteralForm} {xs : List Char} (h : f.Closes xs)
    (ys : List Char) : ∃ n, Lexer.literalBody f (xs ++ ys) = some ⟨xs, n, ys⟩ := by
  induction h with
  | close =>
      obtain ⟨c, cs, hcs⟩ : ∃ c cs, f.terminator = c :: cs := by
        simp only [LiteralForm.terminator, LiteralForm.quotes]
        split <;> exact ⟨_, _, rfl⟩
      have hafter := after?_append f.terminator ys
      refine ⟨0, ?_⟩
      rw [hcs] at hafter ⊢
      rw [List.cons_append] at hafter ⊢
      rw [Lexer.literalBody.eq_def]
      simp only [hcs, hafter]
  | @escape c xs hraw _ ih =>
      obtain ⟨n, hn⟩ := ih
      refine ⟨n, ?_⟩
      rw [List.cons_append, List.cons_append, literalBody_escape hraw, hn]
      rfl
  | @char c xs hplain hline hopen more ih =>
      obtain ⟨n, hn⟩ := ih
      have hprefix : ¬ f.terminator <+: c :: (xs ++ ys) := by
        intro hp
        rw [← List.cons_append] at hp
        exact hopen (List.prefix_of_prefix_length_le hp (List.prefix_append _ _)
          (Nat.le_succ_of_le more.terminator_suffix.length_le))
      refine ⟨[c].count '\n' + n, ?_⟩
      rw [List.cons_append, literalBody_char hplain hline hprefix, hn]
      rfl

theorem closes_literalBody {f : LiteralForm} {cs : List Char} {e : Extent}
    (h : literalBody f cs = some e) : f.Closes e.taken := by
  -- an end that the literal had earlier would be there in the whole text as well
  have hopen : ∀ {c : Char} {cs : List Char} {g : Extent}, after? f.terminator (c :: cs) = none →
      literalBody f cs = some g → ¬ f.terminator <+: c :: g.taken := by
    intro c cs g hafter hg hp
    refine after?_eq_none_iff.1 hafter (hp.trans ⟨g.rest, ?_⟩)
    rw [List.cons_append, literalBody_append hg]
  fun_induction literalBody f cs generalizing e with
  | case1 => cases h
  | case2 c cs rest hafter =>
      cases h
      exact .close
  | case3 => cases h
  | case4 c hc d ds hafter ih =>
      obtain ⟨g, hg, rfl⟩ := Option.map_eq_some_iff.1 h
      obtain ⟨rfl, hraw⟩ := hc
      exact .escape hraw (ih hg)
  | case5 cs hmultiline hafter hc ih =>
      obtain ⟨g, hg, rfl⟩ := Option.map_eq_some_iff.1 h
      exact .char hc (fun _ => hmultiline) (hopen hafter hg) (ih hg)
  | case6 => cases h
  | case7 c cs hafter hc hnewline ih =>
      obtain ⟨g, hg, rfl⟩ := Option.map_eq_some_iff.1 h
      exact .char hc (fun hline => absurd hline hnewline) (hopen hafter hg) (ih hg)

/-- What is taken of a text as a literal is one. -/
theorem isLiteral_of_literal {raw : Bool} {cs : List Char} {e : Extent}
    (h : literal raw ('\x22' :: cs) = some e) :
    IsLiteral ((if raw then ['#'] else []) ++ e.taken) := by
  have htext := literal_append h
  obtain ⟨g, hg, rfl⟩ := Option.map_eq_some_iff.1 h
  refine ⟨literalForm raw ('\x22' :: cs), g.taken, ?_, closes_literalBody hg, ?_⟩
  · simp [LiteralForm.opening, literalForm]
  · -- three quotes in front of the text are the opening ones
    simp only at htext
    constructor
    · intro hmultiline
      rw [LiteralForm.quotes, if_pos hmultiline]
      exact List.prefix_append _ _
    · intro hp
      refine List.isPrefixOf_iff_prefix.2 (hp.trans ⟨g.rest, ?_⟩)
      exact htext

/-! ### What a step finds -/

/-- What a step finds at the front of a text, one case for each kind of beginning. -/
inductive Finds : List Char → Except Unclosed Munch → Prop where
  /-- Blanks. -/
  | blanks {c : Char} {cs : List Char} (hc : isBlank c = true) :
      Finds (c :: cs) (.ok ⟨none, c :: cs.takeWhile isBlank,
        (c :: cs.takeWhile isBlank).count '\n', cs.dropWhile isBlank⟩)
  /-- A line comment. -/
  | lineComment (cs : List Char) : Finds ('/' :: '/' :: cs) (.ok (lineComment ('/' :: '/' :: cs)))
  /-- A block comment. -/
  | blockComment {cs : List Char} {e : Extent} (he : blockComment 0 cs = some e) :
      Finds ('/' :: '*' :: cs) (.ok ⟨none, (e.cons '*').cons '/'⟩)
  /-- A block comment without an end. -/
  | openComment {cs : List Char} (he : Lexer.blockComment 0 cs = none) :
      Finds ('/' :: '*' :: cs) (.error .comment)
  /-- A literal. -/
  | literal {cs : List Char} {e : Extent} (he : literal false ('\x22' :: cs) = some e) :
      Finds ('\x22' :: cs) (.ok ⟨some .literal, e⟩)
  /-- A literal without an end. -/
  | openLiteral {cs : List Char} (he : Lexer.literal false ('\x22' :: cs) = none) :
      Finds ('\x22' :: cs) (.error .literal)
  /-- A literal with hashes outside its quotes. -/
  | rawLiteral {cs : List Char} {e : Extent} (he : Lexer.literal true ('\x22' :: cs) = some e) :
      Finds ('#' :: '\x22' :: cs) (.ok ⟨some .literal, e.cons '#'⟩)
  /-- A literal with a hash outside its opening quotes and without an end. -/
  | openRawLiteral {cs : List Char} (he : Lexer.literal true ('\x22' :: cs) = none) :
      Finds ('#' :: '\x22' :: cs) (.error .literal)
  /-- An identifier in backticks. -/
  | quotedName (cs : List Char) : Finds ('\x60' :: cs) (.ok (quotedName cs))
  /-- A number. -/
  | number {c : Char} {cs : List Char} (hc : c.isDigit = true) :
      Finds (c :: cs) (.ok ⟨some .number, (number (c :: cs)).1, 0, (number (c :: cs)).2⟩)
  /-- An identifier. -/
  | name {c : Char} {cs : List Char} (hblank : isBlank c = false) (hc : startsName c = true) :
      Finds (c :: cs) (.ok ⟨some (.word (String.ofList (c :: cs.takeWhile continuesName))),
        c :: cs.takeWhile continuesName, 0, cs.dropWhile continuesName⟩)
  /-- An arrow. -/
  | arrow (cs : List Char) : Finds ('-' :: '>' :: cs) (.ok ⟨some .arrow, ['-', '>'], 0, cs⟩)
  /-- Any other character. -/
  | mark {c : Char} {cs : List Char} (hblank : isBlank c = false) :
      Finds (c :: cs) (.ok ⟨some (.mark c), [c], 0, cs⟩)

theorem finds_munch (c : Char) (cs : List Char) : Finds (c :: cs) (munch c cs) := by
  simp only [munch]
  split
  · next hc => exact .blanks hc
  next hblank =>
  rw [Bool.not_eq_true] at hblank
  split
  · next hc =>
      obtain ⟨rfl, hhead⟩ := hc
      obtain ⟨ds, rfl⟩ := List.head?_eq_some_iff.1 hhead
      exact .lineComment ds
  split
  · next hc =>
      obtain ⟨rfl, hhead⟩ := hc
      obtain ⟨ds, rfl⟩ := List.head?_eq_some_iff.1 hhead
      split
      · next e he => exact .blockComment he
      · next he => exact .openComment he
  split
  · next hc =>
      subst hc
      split
      · next e he => exact .literal he
      · next he => exact .openLiteral he
  split
  · next hc =>
      obtain ⟨rfl, hhead⟩ := hc
      obtain ⟨ds, rfl⟩ := List.head?_eq_some_iff.1 hhead
      split
      · next e he => exact .rawLiteral he
      · next he => exact .openRawLiteral he
  split
  · next hc =>
      subst hc
      exact .quotedName cs
  split
  · next hc => exact .number hc
  split
  · next hc => exact .name hblank hc
  split
  · next hc =>
      obtain ⟨rfl, hhead⟩ := hc
      obtain ⟨ds, rfl⟩ := List.head?_eq_some_iff.1 hhead
      exact .arrow ds
  · exact .mark hblank

/-! ### Unclosed comments and literals -/

/-- A text that starts with a comment or literal for which no part of what follows is an end. -/
def Opens (cs : List Char) : Unclosed → Prop
  | .comment => ∃ inside, cs = '/' :: '*' :: inside ∧ ∀ xs ys, inside = xs ++ ys → ¬ Closing xs
  | .literal => ∃ (f : LiteralForm) (inside : List Char), cs = f.opening ++ inside ∧
      (f.multiline = true ↔ ['\x22', '\x22', '\x22'] <+: f.quotes ++ inside) ∧
      ∀ xs ys, inside = xs ++ ys → ¬ f.Closes xs

theorem opens_of_blockComment {cs : List Char} (h : blockComment 0 cs = none) :
    Opens ('/' :: '*' :: cs) .comment := by
  refine ⟨cs, rfl, ?_⟩
  rintro xs ys rfl hclosing
  rw [hclosing.blockComment.1] at h
  cases h

theorem opens_of_literal {raw : Bool} {cs : List Char} (h : literal raw ('\x22' :: cs) = none) :
    Opens ((if raw then ['#'] else []) ++ '\x22' :: cs) .literal := by
  have htext := quotes_append_drop raw cs
  refine ⟨literalForm raw ('\x22' :: cs),
    ('\x22' :: cs).drop (literalForm raw ('\x22' :: cs)).quotes.length, ?_, ?_, ?_⟩
  · rw [LiteralForm.opening, List.append_assoc, htext]
    rfl
  · rw [htext]
    exact List.isPrefixOf_iff_prefix
  · intro xs ys hinside hcloses
    obtain ⟨n, hn⟩ := hcloses.literalBody ys
    simp only [literal, hinside, hn] at h
    cases h

/-- A step fails only at the opening of something that nothing closes. -/
theorem opens_of_munch {c : Char} {cs : List Char} {u : Unclosed} (h : munch c cs = .error u) :
    Opens (c :: cs) u := by
  have hfinds := finds_munch c cs
  rw [h] at hfinds
  cases hfinds with
  | openComment he => exact opens_of_blockComment he
  | openLiteral he => exact opens_of_literal he
  | openRawLiteral he => exact opens_of_literal he

end Lexer

/-! ### Tokens -/

open Lexer Text

/-- The written forms of a token: the characters `cs` spell it when `behind` follows them.  An
identifier may stand in backticks, the second of which may be missing at the end of a line or of the
text. -/
def TokenKind.Spelled (cs behind : List Char) : TokenKind → Prop
  | .mark c => cs = [c]
  | .arrow => cs = ['-', '>']
  | .word name =>
    (isPlainName name = true ∧ cs = name.toList) ∨
      ((∀ c ∈ name.toList, c ≠ '\x60' ∧ c ≠ '\n') ∧
        (cs = '\x60' :: (name.toList ++ ['\x60']) ∨
          cs = '\x60' :: name.toList ∧ ∀ c ∈ behind.head?, c = '\n'))
  | .comment body => ['/', '/'] <+: cs ∧ '\n' ∉ cs ∧ body = commentBody cs
  | .number => startsWithDigit cs = true
  | .literal => IsLiteral cs

namespace Lexer

/-- A step takes a written form of its token, or a gap if it has none. -/
def Munch.IsSpelled (m : Munch) : Prop :=
  match m.kind? with
  | none => IsGap m.extent.taken
  | some k => k.Spelled m.extent.taken m.extent.rest

theorem newline_notMem_takeWhile {p : Char → Bool} (h : p '\n' = false) (cs : List Char) :
    '\n' ∉ cs.takeWhile p := by
  intro hmem
  have := List.all_eq_true.1 List.all_takeWhile _ hmem
  rw [h] at this
  cases this

theorem quotedName_isSpelled (cs : List Char) : (quotedName cs).IsSpelled := by
  have hname : ∀ c ∈ cs.takeWhile fun c => c != '\x60' && c != '\n', c ≠ '\x60' ∧ c ≠ '\n' := by
    intro c hc
    simpa using List.all_eq_true.1 List.all_takeWhile c hc
  simp only [quotedName]
  split
  · exact .inr ⟨by simpa using hname, .inl (by simp)⟩
  · next hrest =>
      refine .inr ⟨by simpa using hname, .inr ⟨by simp, ?_⟩⟩
      intro c hc
      obtain ⟨ds, hds⟩ := List.head?_eq_some_iff.1 hc
      have hstop := List.head?_dropWhile_not (fun c => c != '\x60' && c != '\n') cs
      rw [hc] at hstop
      have hquote : c ≠ '\x60' := fun heq => hrest ds (hds.trans (by rw [heq]))
      simpa [hquote] using hstop

/-- **A step takes a written form of its token, or a gap.** -/
theorem munch_isSpelled {c : Char} {cs : List Char} {m : Munch} (h : munch c cs = .ok m) :
    m.IsSpelled := by
  have hfinds := finds_munch c cs
  rw [h] at hfinds
  cases hfinds with
  | blanks hc =>
      refine IsGap.of_blanks fun d hd => ?_
      rcases List.mem_cons.1 hd with rfl | hd
      · exact hc
      · exact List.all_eq_true.1 List.all_takeWhile d hd
  | lineComment ds =>
      have hslashes : ['/', '/'] <+: ('/' :: '/' :: ds).takeWhile (· != '\n') :=
        ⟨ds.takeWhile (· != '\n'), rfl⟩
      exact ⟨hslashes, newline_notMem_takeWhile (by decide) _, rfl⟩
  | @blockComment ds e he =>
      have hgap := IsGap.comment (blockComment_eq_some_iff.1 he).1 .nil
      rwa [List.append_nil] at hgap
  | literal he => exact isLiteral_of_literal he
  | rawLiteral he => exact isLiteral_of_literal he
  | quotedName => exact quotedName_isSpelled cs
  | number hc =>
      have hstart : startsWithDigit (number (c :: cs)).1 = true := by
        simp [number, Char.isAlphanum, hc, startsWithDigit]
      exact hstart
  | name _ hc => exact .inl ⟨by simp [isPlainName, hc], by simp⟩
  | arrow => rfl
  | mark => rfl

end Lexer

end Scaffold
