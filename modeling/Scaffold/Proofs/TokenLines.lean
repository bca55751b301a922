/-
**The lines of tokens.**

The line of a token is counted while the text is taken apart: blanks, block comments and literals of
several lines each count the line feeds that they take.  Only a line feed behind a backslash in a
literal escapes the count.  So the line of a token, and that of a failure, falls short of the line
feeds before it by just the escaped ones.

Main definitions:

* `Scaffold.Lexer.escapedFeeds`, `Scaffold.Lexer.literalFeeds` — the line feeds of a literal that
  stand behind a backslash;
* `Scaffold.Lexer.Munch.escaped`, `Scaffold.Token.escaped` — those of a step and of a token.

Main results:

* `Scaffold.Lexer.munch_newlines_add_escaped` — a step counts the other line feeds that it takes;
* `Scaffold.line_add_escaped` — **a token's line and the escaped line feeds before it make up its
  place, and so do the line of a failure and those before the unclosed comment or literal**;
* `Scaffold.line_short_of_place` — with an escaped line feed before it a token is a line further
  down than it says.
-/

import Mathlib.Algebra.Ring.Nat
import Scaffold.Proofs.TokenPlaces
import Scaffold.Proofs.TokenSpellings
import Scaffold.Proofs.TokenTiling

set_option relaxedAutoImplicit false
set_option autoImplicit false

namespace Scaffold

open Text

/-! ### One step -/

namespace Lexer

/-- The line feeds that stand behind a backslash, which takes one character along. -/
def escapedFeeds : List Char → Nat
  | [] => 0
  | [_] => 0
  | c :: d :: cs => if c = '\\' then lineEnd d + escapedFeeds cs else escapedFeeds (d :: cs)

theorem escapedFeeds_cons {c : Char} (hc : c ≠ '\\') (cs : List Char) :
    escapedFeeds (c :: cs) = escapedFeeds cs := by
  cases cs with
  | nil => rfl
  | cons d ds => rw [escapedFeeds, if_neg hc]

/-- The line feeds that stand behind a backslash in a literal; between quotes with hashes a
backslash is a character for itself. -/
def literalFeeds (cs : List Char) : Nat :=
  if cs.head? = some '#' then 0 else escapedFeeds cs

theorem count_newline_cons (c : Char) (cs : List Char) :
    (c :: cs).count '\n' = lineEnd c + cs.count '\n' := by
  rw [List.count_cons, lineEnd]
  simp only [beq_iff_eq]
  omega

theorem literalBody_newlines {f : LiteralForm} {cs : List Char} {e : Extent}
    (h : literalBody f cs = some e) :
    e.newlines + (if f.raw then 0 else escapedFeeds e.taken) = e.taken.count '\n' := by
  fun_induction literalBody f cs generalizing e with
  | case1 => cases h
  | case2 c cs rest hafter =>
      cases h
      obtain ⟨raw, multiline⟩ := f
      cases raw <;> cases multiline <;> rfl
  | case3 => cases h
  | case4 c hc d ds hafter ih =>
      obtain ⟨g, hg, rfl⟩ := Option.map_eq_some_iff.1 h
      obtain ⟨rfl, hraw⟩ := hc
      have := ih hg
      simp only [hraw, Bool.false_eq_true, if_false] at this
      simp only [Extent.cons, hraw, Bool.false_eq_true, if_false, escapedFeeds, if_true,
        count_newline_cons, lineEnd]
      simp
      omega
  | case5 cs hmultiline hafter hc ih =>
      obtain ⟨g, hg, rfl⟩ := Option.map_eq_some_iff.1 h
      have := ih hg
      simp only [Extent.newline, escapedFeeds_cons (by decide : '\n' ≠ '\\'), count_newline_cons,
        lineEnd, if_true]
      omega
  | case6 => cases h
  | case7 c cs hafter hc hnewline ih =>
      obtain ⟨g, hg, rfl⟩ := Option.map_eq_some_iff.1 h
      have := ih hg
      simp only [Extent.cons, count_newline_cons, lineEnd, if_neg hnewline]
      cases hraw : f.raw with
      | true => simpa [hraw] using this
      | false =>
          rw [escapedFeeds_cons (fun heq => hc ⟨heq, hraw⟩)]
          simpa [hraw] using this

theorem literalFeeds_quotes (f : LiteralForm) (xs : List Char) :
    literalFeeds (f.quotes ++ xs) = escapedFeeds xs := by
  simp only [LiteralForm.quotes]
  split <;> simp [literalFeeds, escapedFeeds_cons]

theorem count_quotes (f : LiteralForm) : f.quotes.count '\n' = 0 := by
  simp only [LiteralForm.quotes]
  split <;> rfl

theorem literal_newlines {raw : Bool} {cs : List Char} {e : Extent}
    (h : literal raw cs = some e) :
    e.newlines + literalFeeds ((if raw then ['#'] else []) ++ e.taken) = e.taken.count '\n' := by
  obtain ⟨g, hg, rfl⟩ := Option.map_eq_some_iff.1 h
  have hbody := literalBody_newlines hg
  simp only [List.count_append, count_quotes, Nat.zero_add]
  cases raw with
  | true =>
      -- the hash in front tells that nothing is escaped
      exact hbody
  | false =>
      rw [if_neg Bool.false_ne_true, List.nil_append, literalFeeds_quotes]
      exact hbody

/-- The line feeds that a step takes along behind a backslash. -/
def Munch.escaped (m : Munch) : Nat :=
  if m.kind? = some .literal then literalFeeds m.extent.taken else 0

theorem newline_notMem_number (cs : List Char) : '\n' ∉ (number cs).1 := by
  fun_induction number cs with
  | case1 => simp
  | case2 c cs hc parts ih =>
      have hne : c ≠ '\n' := by
        rintro rfl
        exact absurd (hc : false = true) Bool.false_ne_true
      exact fun hmem => (List.mem_cons.1 hmem).elim (fun heq => hne heq.symm) ih
  | case3 => simp

/-- A step counts the line feeds that it takes, less those behind a backslash. -/
theorem munch_newlines_add_escaped {c : Char} {cs : List Char} {m : Munch}
    (h : munch c cs = .ok m) :
    m.extent.newlines + m.escaped = m.extent.taken.count '\n' := by
  have hfree : ∀ (k : TokenKind) (xs rest : List Char), k ≠ .literal → '\n' ∉ xs →
      0 + Munch.escaped ⟨some k, xs, 0, rest⟩ = xs.count '\n' := by
    intro k xs rest hk hxs
    simp [Munch.escaped, hk, List.count_eq_zero.2 hxs]
  have hcons : ∀ {d : Char} {xs : List Char}, isBlank d = false → '\n' ∉ xs → '\n' ∉ d :: xs := by
    intro d xs hd hxs hmem
    rcases List.mem_cons.1 hmem with rfl | hmem
    · exact absurd hd (by decide)
    · exact hxs hmem
  have hfinds := finds_munch c cs
  rw [h] at hfinds
  cases hfinds with
  | blanks => rfl
  | lineComment => exact hfree _ _ _ (by simp) (newline_notMem_takeWhile (by decide) _)
  | blockComment he =>
      have hnewlines := (blockComment_eq_some_iff.1 he).2.1
      simpa [Extent.cons, Munch.escaped] using hnewlines
  | literal he => exact literal_newlines he
  | rawLiteral he => exact literal_newlines he
  | quotedName =>
      have hname : '\n' ∉ cs.takeWhile fun c => c != '\x60' && c != '\n' :=
        newline_notMem_takeWhile (by decide) cs
      simp only [quotedName]
      split
      · exact hfree _ _ _ (by simp) (hcons (by decide) (by simpa using hname))
      · exact hfree _ _ _ (by simp) (hcons (by decide) hname)
  | number => exact hfree _ _ _ (by simp) (newline_notMem_number _)
  | name hblank =>
      exact hfree _ _ _ (by simp) (hcons hblank (newline_notMem_takeWhile (by decide) _))
  | arrow => exact hfree _ _ _ (by simp) (by decide)
  | mark hblank => exact hfree _ _ _ (by simp) (hcons hblank (by simp))

end Lexer

/-! ### The whole text -/

open Lexer

/-- The line feeds behind a backslash in a token of a text; only literals have some. -/
def Token.escaped (source : List Char) (t : Token) : Nat :=
  if t.kind = .literal then ((slice? source t.start t.stop).map literalFeeds).getD 0 else 0

theorem Lexer.Munch.escaped_token {m : Munch} {k : TokenKind} (hk : m.kind? = some k)
    (before behind : List Char) (line : Nat) :
    Token.escaped (before ++ (m.extent.taken ++ behind))
      ⟨k, byteSize before, byteSize before + byteSize m.extent.taken, line⟩ = m.escaped := by
  simp only [Token.escaped, Munch.escaped, hk, Option.some.injEq, ← List.append_assoc,
    slice?_append, Option.map_some, Option.getD_some]

/-- What steps count and what they do not count make up the line feeds that they take. -/
theorem Lexer.Steps.newlines_add_escaped {cs rest : List Char} {ms : List Munch}
    (h : Steps cs ms rest) :
    (ms.map (·.extent.newlines)).sum + (ms.map Munch.escaped).sum =
      (takenText ms).count '\n' := by
  induction h with
  | nil cs => rfl
  | cons first _ ih =>
      have hfirst := munch_newlines_add_escaped first
      simp only [takenText] at ih
      simp only [takenText, List.map_cons, List.sum_cons, List.flatMap_cons, List.count_append]
      omega

/-- The lines of what steps yield, when the text before them has `skipped` escaped line feeds. -/
theorem Lexer.Steps.exists_place {cs rest : List Char} {ms : List Munch} (h : Steps cs ms rest)
    (front : List Char) {line skipped : Nat} (hline : line + skipped = 1 + front.count '\n') :
    ∀ before t behind, stepTokens (byteSize front) line ms = before ++ t :: behind →
      ∃ head, takeBytes? t.start (front ++ cs) = some head ∧
        t.line + (skipped + (before.map (Token.escaped (front ++ cs))).sum) =
          1 + head.count '\n' := by
  induction h generalizing front line skipped with
  | nil cs =>
      intro before t behind hts
      exact absurd hts.symm (List.append_ne_nil_of_right_ne_nil _ (List.cons_ne_nil _ _))
  | @cons c cs rest m ms first _ ih =>
      intro before t behind hts
      have hcount := munch_newlines_add_escaped first
      have hplace : line + m.extent.newlines + (skipped + m.escaped) =
          1 + (front ++ m.extent.taken).count '\n' := by
        rw [List.count_append]
        omega
      have hmore := ih (front ++ m.extent.taken) hplace
      rw [byteSize_append, List.append_assoc, munch_taken_append first] at hmore
      rw [stepTokens, Munch.token] at hts
      cases hk : m.kind? with
      | none =>
          have hescaped : m.escaped = 0 := by simp [Munch.escaped, hk]
          rw [hk, List.nil_append] at hts
          have hlater := hmore before t behind hts
          rwa [hescaped, Nat.add_zero] at hlater
      | some k =>
          rw [hk, List.cons_append, List.nil_append] at hts
          have hescaped := Munch.escaped_token hk front m.extent.rest line
          rw [munch_taken_append first] at hescaped
          cases before with
          | nil =>
              obtain ⟨rfl, -⟩ := List.cons.inj hts
              exact ⟨front, takeBytes?_append front (c :: cs), by simpa using hline⟩
          | cons u before =>
              obtain ⟨rfl, htail⟩ := List.cons.inj hts
              obtain ⟨head, hhead, hlater⟩ := hmore before t behind htail
              refine ⟨head, hhead, ?_⟩
              rw [List.map_cons, List.sum_cons, hescaped, ← Nat.add_assoc skipped]
              exact hlater

/-- **Places and lines.**  The line of a token and the escaped line feeds in the tokens before it
make up its place among the lines of the text.  Where a text has no tokens, steps lead to a comment
or literal that nothing closes, and the line of the failure and the line feeds that escaped on the
way make up its place. -/
theorem line_add_escaped (source : String) :
    (∀ ts, tokenize source = .ok ts → ∀ before t behind, ts = before ++ t :: behind →
      ∃ head, takeBytes? t.start source.toList = some head ∧
        t.line + (before.map (Token.escaped source.toList)).sum = 1 + head.count '\n') ∧
    ∀ e, tokenize source = .error e →
      ∃ ms rest, Steps source.toList ms rest ∧ takenText ms ++ rest = source.toList ∧
        Opens rest e.unclosed ∧
        e.line + (ms.map Munch.escaped).sum = 1 + (takenText ms).count '\n' := by
  constructor
  · intro ts hts before t behind hsplit
    obtain ⟨ms, hsteps, hms⟩ := exists_steps_of_tokens hts
    have hfirst : 1 + 0 = 1 + ([] : List Char).count '\n' := rfl
    obtain ⟨head, hhead, hline⟩ :=
      hsteps.exists_place [] hfirst before t behind (hms.symm.trans hsplit)
    rw [Nat.zero_add] at hline
    exact ⟨head, hhead, hline⟩
  · intro e he
    obtain ⟨ms, rest, hsteps, hopens, hline⟩ := exists_steps_of_error he
    have hcount := hsteps.newlines_add_escaped
    exact ⟨ms, rest, hsteps, hsteps.takenText_append, hopens, by omega⟩

/-- **A token may be a line further down than it says.**  The second `let` below is on the fifth
line of its text, behind a literal whose second line ends with a backslash. -/
theorem line_short_of_place :
    ¬ ∀ (source : String) (ts : List Token), tokenize source = .ok ts → ∀ t ∈ ts,
      ∃ head, takeBytes? t.start source.toList = some head ∧ t.line = 1 + head.count '\n' := by
  intro h
  have htokens : tokenize "let s = \"\"\"\na \\\nb\n\"\"\"\nlet t = 1" =
      .ok [⟨.word "let", 0, 3, 1⟩, ⟨.word "s", 4, 5, 1⟩, ⟨.mark '=', 6, 7, 1⟩,
        ⟨.literal, 8, 21, 1⟩, ⟨.word "let", 22, 25, 4⟩, ⟨.word "t", 26, 27, 4⟩,
        ⟨.mark '=', 28, 29, 4⟩, ⟨.number, 30, 31, 4⟩] := by decide +kernel
  obtain ⟨head, hhead, hline⟩ := h _ _ htokens ⟨.word "let", 22, 25, 4⟩ (by simp)
  have hplace : (takeBytes? 22 "let s = \"\"\"\na \\\nb\n\"\"\"\nlet t = 1".toList).map
      (List.count '\n') = some 4 := by decide
  simp only [hhead, Option.map_some, Option.some.injEq] at hplace
  rw [hplace] at hline
  exact absurd hline (by decide)

end Scaffold
