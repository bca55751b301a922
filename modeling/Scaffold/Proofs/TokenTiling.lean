/-
**Tokens tile the source.**

A text is taken apart by steps, each of which takes a gap or a written form of one token.  So the
text is made of gaps and written forms in turn: no byte is lost, none belongs to two tokens, and
what no token covers is white space and complete block comments.

Main definitions:

* `Scaffold.Lexer.Steps` — the steps from a text to a rest of it;
* `Scaffold.Tiles` — a text made of gaps and the written forms of tokens in turn;
* `Scaffold.gapsBetween` — the stretches before, between and behind tokens;
* `Scaffold.Tiling` — what that says of the spans of the tokens.

Main results:

* `Scaffold.Lexer.exists_steps_of_tokens`, `Scaffold.Lexer.exists_steps_of_error` — a text is taken
  apart to its end, or up to something unclosed;
* `Scaffold.Lexer.Steps.tiles` — what steps to the end yield tiles the text;
* `Scaffold.tiling_tokenize` — **the tokens of a text tile it**;
* `Scaffold.word_not_spelled_in_backticks` — a backtick that nothing closes on its line is part of a
  token all the same.
-/

import Mathlib.Algebra.Ring.Nat
import Scaffold.Proofs.TokenPlaces
import Scaffold.Proofs.TokenSpellings

set_option relaxedAutoImplicit false
set_option autoImplicit false

namespace Scaffold

open Text

/-! ### Steps -/

namespace Lexer

/-- Steps that take a text apart from its front up to a rest. -/
inductive Steps : List Char → List Munch → List Char → Prop where
  /-- No step. -/
  | nil (cs : List Char) : Steps cs [] cs
  /-- A step and those behind it. -/
  | cons {c : Char} {cs rest : List Char} {m : Munch} {ms : List Munch}
      (first : munch c cs = .ok m) (more : Steps m.extent.rest ms rest) :
      Steps (c :: cs) (m :: ms) rest

/-- The characters that steps take. -/
def takenText (ms : List Munch) : List Char := ms.flatMap (·.extent.taken)

/-- The tokens that steps from a byte offset and a line on yield. -/
def stepTokens : (offset line : Nat) → List Munch → List Token
  | _, _, [] => []
  | offset, line, m :: ms =>
    m.token offset line ++
      stepTokens (offset + byteSize m.extent.taken) (line + m.extent.newlines) ms

theorem Steps.takenText_append {cs rest : List Char} {ms : List Munch} (h : Steps cs ms rest) :
    takenText ms ++ rest = cs := by
  induction h with
  | nil cs => rfl
  | cons first _ ih =>
      rw [takenText, List.flatMap_cons, List.append_assoc]
      exact (congrArg _ ih).trans (munch_taken_append first)

/-- A text with tokens is taken apart to its end. -/
theorem exists_steps_of_tokens {offset line : Nat} {cs : List Char} {ts : List Token}
    (h : tokens offset line cs = .ok ts) :
    ∃ ms, Steps cs ms [] ∧ ts = stepTokens offset line ms := by
  induction hn : cs.length using Nat.strongRecOn generalizing cs offset line ts with
  | _ n ih =>
      cases cs with
      | nil =>
          cases h
          exact ⟨[], .nil [], rfl⟩
      | cons c cs =>
          obtain ⟨m, us, hm, hus, rfl⟩ := exists_munch_of_tokens h
          obtain ⟨ms, hms, rfl⟩ := ih _ (hn ▸ length_rest_lt hm) hus rfl
          exact ⟨m :: ms, .cons hm hms, rfl⟩

/-- A text without tokens is taken apart up to something unclosed, and the line ends counted on the
way give the line of the failure. -/
theorem exists_steps_of_error {offset line : Nat} {cs : List Char} {e : LexError}
    (h : tokens offset line cs = .error e) :
    ∃ ms rest, Steps cs ms rest ∧ Opens rest e.unclosed ∧
      e.line = line + (ms.map (·.extent.newlines)).sum := by
  induction hn : cs.length using Nat.strongRecOn generalizing cs offset line with
  | _ n ih =>
      cases cs with
      | nil => cases h
      | cons c cs =>
          cases hm : munch c cs with
          | error u =>
              rw [tokens_of_munch_error hm] at h
              cases h
              exact ⟨[], c :: cs, .nil _, opens_of_munch hm, rfl⟩
          | ok m =>
              rw [tokens_of_munch hm] at h
              cases hrest : tokens (offset + byteSize m.extent.taken) (line + m.extent.newlines)
                  m.extent.rest with
              | ok us =>
                  rw [hrest] at h
                  cases h
              | error e' =>
                  rw [hrest] at h
                  cases h
                  obtain ⟨ms, rest, hms, hopens, hline⟩ := ih _ (hn ▸ length_rest_lt hm) hrest rfl
                  refine ⟨m :: ms, rest, .cons hm hms, hopens, ?_⟩
                  rw [hline, List.map_cons, List.sum_cons, Nat.add_assoc]

end Lexer

/-! ### Gaps and written forms in turn -/

open Lexer

/-- Tokens tile a text that starts at a byte offset: gaps and written forms of the tokens take turns
and leave nothing out. -/
inductive Tiles : Nat → List Char → List Token → Prop where
  /-- A gap at the end. -/
  | last {offset : Nat} {gap : List Char} (hgap : IsGap gap) : Tiles offset gap []
  /-- A gap and a token before further text. -/
  | token {offset : Nat} {gap part behind : List Char} {t : Token} {ts : List Token}
      (hgap : IsGap gap) (hpart : part ≠ []) (hstart : t.start = offset + byteSize gap)
      (hstop : t.stop = t.start + byteSize part) (hspelled : t.kind.Spelled part behind)
      (more : Tiles t.stop behind ts) : Tiles offset (gap ++ part ++ behind) (t :: ts)

/-- A gap in front only makes the first gap longer. -/
theorem Tiles.gap_append {offset : Nat} {gap cs : List Char} {ts : List Token} (hgap : IsGap gap)
    (h : Tiles (offset + byteSize gap) cs ts) : Tiles offset (gap ++ cs) ts := by
  cases h with
  | last hlast => exact .last (hgap.append hlast)
  | @token _ inner part behind t ts hinner hpart hstart hstop hspelled more =>
      have hfront : t.start = offset + byteSize (gap ++ inner) := by
        rw [hstart, byteSize_append, Nat.add_assoc]
      have htile := Tiles.token (hgap.append hinner) hpart hfront hstop hspelled more
      simpa only [List.append_assoc] using htile

/-- What steps to the end of a text yield tiles it. -/
theorem Lexer.Steps.tiles {cs : List Char} {ms : List Munch} (h : Steps cs ms [])
    (offset line : Nat) : Tiles offset cs (stepTokens offset line ms) := by
  generalize hrest : ([] : List Char) = rest at h
  induction h generalizing offset line with
  | nil cs =>
      subst hrest
      exact .last .nil
  | @cons c cs rest m ms first _ ih =>
      have hmore := ih (offset + byteSize m.extent.taken) (line + m.extent.newlines) hrest
      have hspelled := munch_isSpelled first
      rw [← munch_taken_append first]
      simp only [Munch.IsSpelled] at hspelled
      simp only [stepTokens, Munch.token]
      cases hk : m.kind? with
      | none =>
          rw [hk] at hspelled
          exact hmore.gap_append hspelled
      | some k =>
          rw [hk] at hspelled
          exact Tiles.token .nil (munch_taken_ne_nil first) rfl rfl hspelled hmore

/-! ### Spans -/

/-- The stretches before, between and behind tokens, from one byte offset to another. -/
def gapsBetween (offset stop : Nat) : List Token → List (Nat × Nat)
  | [] => [(offset, stop)]
  | t :: ts => (offset, t.start) :: gapsBetween t.stop stop ts

theorem Tiles.start_lt_stop {offset : Nat} {cs : List Char} {ts : List Token}
    (h : Tiles offset cs ts) : ∀ t ∈ ts, t.start < t.stop := by
  induction h with
  | last => simp
  | @token offset gap part behind t ts _ hpart _ hstop _ _ ih =>
      intro u hu
      rcases List.mem_cons.1 hu with rfl | hu
      · have hsize : byteSize part ≠ 0 := fun hzero => hpart (eq_nil_of_byteSize hzero)
        omega
      · exact ih u hu

theorem Tiles.exists_gap {offset : Nat} {cs : List Char} {ts : List Token} (h : Tiles offset cs ts)
    (before : List Char) (hbefore : byteSize before = offset) :
    ∀ g ∈ gapsBetween offset (offset + byteSize cs) ts,
      ∃ gap, slice? (before ++ cs) g.1 g.2 = some gap ∧ IsGap gap := by
  induction h generalizing before with
  | @last offset gap hgap =>
      intro g hg
      obtain rfl := List.mem_singleton.1 hg
      have hslice := slice?_append before gap []
      rw [List.append_nil, hbefore] at hslice
      exact ⟨gap, hslice, hgap⟩
  | @token offset gap part behind t ts hgap _ hstart hstop _ _ ih =>
      intro g hg
      rcases List.mem_cons.1 hg with rfl | hg
      · have hslice := slice?_append before gap (part ++ behind)
        rw [hbefore, ← hstart, List.append_assoc, ← List.append_assoc gap] at hslice
        exact ⟨gap, hslice, hgap⟩
      · have hsize : offset + byteSize (gap ++ part ++ behind) = t.stop + byteSize behind := by
          simp only [byteSize_append]
          omega
        rw [hsize] at hg
        have hmore := ih (before ++ (gap ++ part))
          (by simp only [byteSize_append]; omega) g hg
        rwa [List.append_assoc] at hmore

theorem Tiles.exists_spelled {offset : Nat} {cs : List Char} {ts : List Token}
    (h : Tiles offset cs ts) (before : List Char) (hbefore : byteSize before = offset) :
    ∀ t ∈ ts, ∃ part behind, slice? (before ++ cs) t.start t.stop = some part ∧
      dropBytes? t.stop (before ++ cs) = some behind ∧ t.kind.Spelled part behind := by
  induction h generalizing before with
  | last => simp
  | @token offset gap part behind t ts _ _ hstart hstop hspelled _ ih =>
      have htext : before ++ (gap ++ part ++ behind) = before ++ gap ++ part ++ behind := by
        simp only [List.append_assoc]
      have hfront : byteSize (before ++ gap) = t.start := by
        rw [byteSize_append, hbefore, hstart]
      rw [htext]
      intro u hu
      rcases List.mem_cons.1 hu with rfl | hu
      · refine ⟨part, behind, ?_, ?_, hspelled⟩
        · have hslice := slice?_append (before ++ gap) part behind
          rwa [hfront, ← hstop] at hslice
        · have hdrop := dropBytes?_append (before ++ gap ++ part) behind
          rwa [byteSize_append, hfront, ← hstop] at hdrop
      · exact ih (before ++ gap ++ part) (by rw [byteSize_append, hfront, hstop]) u hu

/-- The spans of tokens that tile a text: none is empty, they stand one behind the other between
characters of the text, the stretches around them are gaps, and what a token covers spells it. -/
structure Tiling (source : List Char) (ts : List Token) : Prop extends Anchored source ts where
  /-- A token covers at least a byte. -/
  nonempty : ∀ t ∈ ts, t.start < t.stop
  /-- What no token covers is white space and complete block comments. -/
  gaps : ∀ g ∈ gapsBetween 0 (byteSize source) ts,
    ∃ gap, slice? source g.1 g.2 = some gap ∧ IsGap gap
  /-- What a token covers is a written form of it. -/
  spelled : ∀ t ∈ ts, ∃ part behind, slice? source t.start t.stop = some part ∧
    dropBytes? t.stop source = some behind ∧ t.kind.Spelled part behind

/-- **The tokens of a text tile it.** -/
theorem tiling_tokenize {source : String} {ts : List Token} (h : tokenize source = .ok ts) :
    Tiling source.toList ts := by
  obtain ⟨ms, hsteps, hts⟩ := exists_steps_of_tokens h
  have htiles : Tiles 0 source.toList ts := by
    rw [hts]
    exact hsteps.tiles 0 1
  have hgaps := htiles.exists_gap [] rfl
  rw [Nat.zero_add] at hgaps
  exact {
    toAnchored := anchored_tokenize h
    nonempty := htiles.start_lt_stop
    gaps := hgaps
    spelled := htiles.exists_spelled [] rfl }

/-- A gap with a comment inside a comment, and a token of every kind but a mark. -/
theorem tiling_tokenize_nested_comment :
    tokenize "/* é /* b */ */ f \x60in\x60 #\"é\"# -> 1.5 // done " =
        .ok [⟨.word "f", 17, 18, 1⟩, ⟨.word "in", 19, 23, 1⟩, ⟨.literal, 24, 30, 1⟩,
          ⟨.arrow, 31, 33, 1⟩, ⟨.number, 34, 37, 1⟩, ⟨.comment "done", 38, 46, 1⟩] ∧
      Tiling "/* é /* b */ */ f \x60in\x60 #\"é\"# -> 1.5 // done ".toList
        [⟨.word "f", 17, 18, 1⟩, ⟨.word "in", 19, 23, 1⟩, ⟨.literal, 24, 30, 1⟩,
          ⟨.arrow, 31, 33, 1⟩, ⟨.number, 34, 37, 1⟩, ⟨.comment "done", 38, 46, 1⟩] := by
  have h : tokenize "/* é /* b */ */ f \x60in\x60 #\"é\"# -> 1.5 // done " =
      .ok [⟨.word "f", 17, 18, 1⟩, ⟨.word "in", 19, 23, 1⟩, ⟨.literal, 24, 30, 1⟩,
        ⟨.arrow, 31, 33, 1⟩, ⟨.number, 34, 37, 1⟩, ⟨.comment "done", 38, 46, 1⟩] := by
    decide +kernel
  exact ⟨h, tiling_tokenize h⟩

/-- **An identifier need not be its name, nor its name between two backticks.**  At the end of a
text it may have the first backtick only. -/
theorem word_not_spelled_in_backticks :
    ¬ ∀ (source : String) (ts : List Token), tokenize source = .ok ts →
      ∀ t ∈ ts, ∀ name, t.kind = .word name →
        ∃ part, slice? source.toList t.start t.stop = some part ∧
          (part = name.toList ∨ part = '\x60' :: (name.toList ++ ['\x60'])) := by
  intro h
  have htokens : tokenize "\x60abc" = .ok [⟨.word "abc", 0, 4, 1⟩] := by decide +kernel
  obtain ⟨part, hpart, hspelled⟩ := h _ _ htokens _ List.mem_cons_self "abc" rfl
  have hslice : slice? "\x60abc".toList 0 4 = some ['\x60', 'a', 'b', 'c'] := by decide
  obtain rfl := Option.some.inj (hslice.symm.trans hpart)
  revert hspelled
  decide

end Scaffold
