/-
**Where tokens are.**

A text is taken apart from the front, and no step looks across a line feed unless it goes on behind
it.  So the tokens of two texts with a line feed between them are those of the first and behind them
those of the second, which have moved by the bytes and lines before them.  Tokens begin and end
between two characters of the text and stand one behind the other, so that every stretch of them
covers a part of the text.

Main definitions:

* `Scaffold.Lexer.tokens` — the tokens of a text, without fuel;
* `Scaffold.Token.move` — a token further down;
* `Scaffold.Anchored` — tokens that cover parts of a text, one behind the other.

Main results:

* `Scaffold.Lexer.munch_append` — a step that does not take blanks is not changed by a line feed
  behind the text;
* `Scaffold.Lexer.line_of_mem_tokens` — the tokens of a text without line feeds are on one line;
* `Scaffold.tokenize_append` — **the tokens of two texts with a line feed between them**;
* `Scaffold.anchored_tokenize` — the tokens of a text are anchored in it;
* `Scaffold.Anchored.exists_sourceText?_eq` — anchored tokens have a source text, which further text
  around does not change.
-/

import Scaffold.Source.Scan
import Scaffold.Token.Lexer

set_option relaxedAutoImplicit false
set_option autoImplicit false

namespace Scaffold

namespace Lexer

open Text

/-! ### Steps without fuel -/

theorem length_rest_lt {c : Char} {cs : List Char} {m : Munch} (h : munch c cs = .ok m) :
    m.extent.rest.length < (c :: cs).length := by
  have hlength := congrArg List.length (munch_taken_append h)
  have htaken := List.length_pos_iff.2 (munch_taken_ne_nil h)
  rw [List.length_append] at hlength
  omega

theorem tokensFrom_eq_of_le (fuel fuel' offset line : Nat) {cs : List Char}
    (h : cs.length ≤ fuel) (h' : cs.length ≤ fuel') :
    tokensFrom fuel offset line cs = tokensFrom fuel' offset line cs := by
  induction fuel generalizing fuel' offset line cs with
  | zero =>
      obtain rfl := List.length_eq_zero_iff.1 (Nat.le_zero.1 h)
      cases fuel' <;> rfl
  | succ fuel ih =>
      cases cs with
      | nil => cases fuel' <;> rfl
      | cons c cs =>
          cases fuel' with
          | zero => simp at h'
          | succ fuel' =>
              simp only [tokensFrom]
              cases hm : munch c cs with
              | error u => rfl
              | ok m =>
                  have hlt := length_rest_lt hm
                  simp only [List.length_cons] at h h' hlt
                  simp only [ih fuel' _ _ (Nat.lt_succ_iff.1 (Nat.lt_of_lt_of_le hlt h))
                    (Nat.lt_succ_iff.1 (Nat.lt_of_lt_of_le hlt h'))]

/-- The tokens of a text that starts at a byte offset and on a line. -/
def tokens (offset line : Nat) (cs : List Char) : Except LexError (List Token) :=
  tokensFrom cs.length offset line cs

@[simp] theorem tokens_nil (offset line : Nat) : tokens offset line [] = .ok [] := rfl

/-- The token that a step yields, if it yields one. -/
def Munch.token (m : Munch) (offset line : Nat) : List Token :=
  match m.kind? with
  | some k => [⟨k, offset, offset + byteSize m.extent.taken, line⟩]
  | none => []

theorem tokens_of_munch {c : Char} {cs : List Char} {m : Munch} (h : munch c cs = .ok m)
    (offset line : Nat) :
    tokens offset line (c :: cs) =
      (tokens (offset + byteSize m.extent.taken) (line + m.extent.newlines) m.extent.rest).map
        (m.token offset line ++ ·) := by
  have hlt := length_rest_lt h
  rw [List.length_cons] at hlt
  simp only [tokens, List.length_cons, tokensFrom, h]
  rw [tokensFrom_eq_of_le cs.length m.extent.rest.length _ _ (by omega) (Nat.le_refl _)]
  simp only [Munch.token]
  cases tokensFrom m.extent.rest.length (offset + byteSize m.extent.taken)
    (line + m.extent.newlines) m.extent.rest with
  | error e => rfl
  | ok ts => cases m.kind? <;> rfl

theorem tokens_of_munch_error {c : Char} {cs : List Char} {u : Unclosed}
    (h : munch c cs = .error u) (offset line : Nat) :
    tokens offset line (c :: cs) = .error ⟨u, line⟩ := by
  simp [tokens, tokensFrom, h]

/-- A text is taken apart step by step. -/
theorem exists_munch_of_tokens {offset line : Nat} {c : Char} {cs : List Char} {ts : List Token}
    (h : tokens offset line (c :: cs) = .ok ts) :
    ∃ m us, munch c cs = .ok m ∧
      tokens (offset + byteSize m.extent.taken) (line + m.extent.newlines) m.extent.rest = .ok us ∧
      ts = m.token offset line ++ us := by
  cases hm : munch c cs with
  | error u =>
      rw [tokens_of_munch_error hm] at h
      cases h
  | ok m =>
      rw [tokens_of_munch hm] at h
      cases hrest : tokens (offset + byteSize m.extent.taken) (line + m.extent.newlines)
          m.extent.rest with
      | error e =>
          rw [hrest] at h
          cases h
      | ok us =>
          rw [hrest] at h
          exact ⟨m, us, rfl, hrest, (Except.ok.inj h).symm⟩

/-! ### Blanks -/

theorem tokens_takeBlanks (offset line : Nat) (cs : List Char) :
    tokens offset line cs =
      tokens (offset + byteSize (cs.takeWhile isBlank)) (line + (cs.takeWhile isBlank).count '\n')
        (cs.dropWhile isBlank) := by
  cases cs with
  | nil => rfl
  | cons c cs =>
      cases hc : isBlank c with
      | false => simp [hc, byteSize]
      | true =>
          have hm : munch c cs = .ok ⟨none, c :: cs.takeWhile isBlank,
              (c :: cs.takeWhile isBlank).count '\n', cs.dropWhile isBlank⟩ := by
            rw [munch, if_pos hc]
          rw [tokens_of_munch hm]
          simp only [Munch.token, List.takeWhile_cons_of_pos hc, List.dropWhile_cons_of_pos hc]
          cases tokens (offset + byteSize (c :: cs.takeWhile isBlank))
            (line + (c :: cs.takeWhile isBlank).count '\n') (cs.dropWhile isBlank) <;> rfl

/-- The line ends that a blank counts for. -/
def lineEnd (c : Char) : Nat := if c = '\n' then 1 else 0

/-- Blanks may be taken one by one. -/
theorem tokens_blank {c : Char} (h : isBlank c = true) (offset line : Nat) (cs : List Char) :
    tokens offset line (c :: cs) = tokens (offset + c.utf8Size) (line + lineEnd c) cs := by
  have hcount : (c :: cs.takeWhile isBlank).count '\n' =
      lineEnd c + (cs.takeWhile isBlank).count '\n' := by
    rw [List.count_cons, lineEnd]
    simp only [beq_iff_eq]
    omega
  rw [tokens_takeBlanks offset line (c :: cs), tokens_takeBlanks (offset + c.utf8Size)]
  simp only [List.takeWhile_cons_of_pos h, List.dropWhile_cons_of_pos h, byteSize, hcount,
    Nat.add_assoc]

/-! ### Steps before a line feed -/

theorem takeWhile_append_cons {p : Char → Bool} {y : Char} (hy : p y = false) (xs ys : List Char) :
    (xs ++ y :: ys).takeWhile p = xs.takeWhile p := by
  induction xs with
  | nil => simp [hy]
  | cons x xs ih =>
      cases hx : p x with
      | true => simp [hx, ih]
      | false => simp [hx]

theorem dropWhile_append_cons {p : Char → Bool} {y : Char} (hy : p y = false) (xs ys : List Char) :
    (xs ++ y :: ys).dropWhile p = xs.dropWhile p ++ y :: ys := by
  induction xs with
  | nil => simp [hy]
  | cons x xs ih =>
      cases hx : p x with
      | true => simp [hx, ih]
      | false => simp [hx]

theorem head?_append_cons {x y : Char} (h : x ≠ y) (cs ys : List Char) :
    (cs ++ y :: ys).head? = some x ↔ cs.head? = some x := by
  cases cs with
  | nil => simp [Ne.symm h]
  | cons c cs => simp

/-- The extent with more text behind it. -/
def Extent.extend (e : Extent) (bs : List Char) : Extent := { e with rest := e.rest ++ bs }

/-- What a step takes, with more text behind it. -/
def Munch.extend (m : Munch) (bs : List Char) : Munch := { m with extent := m.extent.extend bs }

theorem blockComment_extend {depth : Nat} {cs : List Char} {e : Extent}
    (h : blockComment depth cs = some e) (bs : List Char) :
    blockComment depth (cs ++ bs) = some (e.extend bs) := by
  fun_induction blockComment depth cs generalizing e with
  | case1 => cases h
  | case2 depth cs ih =>
      obtain ⟨f, hf, rfl⟩ := Option.map_eq_some_iff.1 h
      simp [blockComment, ih hf, Extent.cons, Extent.extend]
  | case3 cs =>
      cases h
      simp [blockComment, Extent.extend]
  | case4 depth cs ih =>
      obtain ⟨f, hf, rfl⟩ := Option.map_eq_some_iff.1 h
      simp [blockComment, ih hf, Extent.cons, Extent.extend]
  | case5 depth cs ih =>
      obtain ⟨f, hf, rfl⟩ := Option.map_eq_some_iff.1 h
      simp [blockComment, ih hf, Extent.newline, Extent.extend]
  | case6 depth c cs hopen hzero hsucc hnewline ih =>
      obtain ⟨f, hf, rfl⟩ := Option.map_eq_some_iff.1 h
      cases cs with
      | nil => simp [blockComment] at hf
      | cons d ds =>
          rw [List.cons_append, List.cons_append, blockComment, ← List.cons_append, ih hf]
          · rfl
          · exact fun _ hc heq => hopen ds hc (by rw [(List.cons.inj heq).1])
          · exact hnewline
          · exact fun _ hd hc heq => hzero ds hd hc (by rw [(List.cons.inj heq).1])
          · exact fun n _ hd hc heq => hsucc n ds hd hc (by rw [(List.cons.inj heq).1])

theorem after?_extend {xs ys zs : List Char} (h : after? xs ys = some zs) (bs : List Char) :
    after? xs (ys ++ bs) = some (zs ++ bs) := by
  fun_induction after? xs ys with
  | case1 => simp_all [after?]
  | case2 => cases h
  | case3 x xs ys ih => simp [after?, ih h]
  | case4 => cases h

theorem after?_eq_none_extend {xs ys : List Char} (h : after? xs ys = none) {y : Char}
    (hy : y ∉ xs) (bs : List Char) : after? xs (ys ++ y :: bs) = none := by
  fun_induction after? xs ys with
  | case1 => cases h
  | case2 x xs =>
      have hne : x ≠ y := fun heq => hy (by simp [heq])
      simp [after?, hne]
  | case3 x xs ys ih => simp [after?, ih h (fun hmem => hy (List.mem_cons_of_mem _ hmem))]
  | case4 x xs y' ys hne => simp [after?, hne]

theorem newline_notMem_terminator (f : LiteralForm) : '\n' ∉ f.terminator := by
  simp only [LiteralForm.terminator, LiteralForm.quotes]
  split <;> split <;> decide

theorem literalBody_extend {f : LiteralForm} {cs : List Char} {e : Extent}
    (h : literalBody f cs = some e) (bs : List Char) :
    literalBody f (cs ++ '\n' :: bs) = some (e.extend ('\n' :: bs)) := by
  have hopen : ∀ {c cs}, after? f.terminator (c :: cs) = none →
      after? f.terminator (c :: (cs ++ '\n' :: bs)) = none :=
    fun hafter => after?_eq_none_extend hafter (newline_notMem_terminator f) bs
  fun_induction literalBody f cs generalizing e with
  | case1 => cases h
  | case2 c cs rest hafter =>
      cases h
      have hclose := after?_extend hafter ('\n' :: bs)
      rw [List.cons_append] at hclose
      rw [List.cons_append, literalBody.eq_def]
      simp only [hclose, Extent.extend]
  | case3 => cases h
  | case4 c hc d ds hafter ih =>
      obtain ⟨g, hg, rfl⟩ := Option.map_eq_some_iff.1 h
      have hafter' := hopen hafter
      rw [List.cons_append] at hafter'
      rw [List.cons_append, List.cons_append, literalBody.eq_def]
      simp only [hafter', if_pos hc, ih hg]
      rfl
  | case5 cs hmultiline hafter hc ih =>
      obtain ⟨g, hg, rfl⟩ := Option.map_eq_some_iff.1 h
      rw [List.cons_append, literalBody.eq_def]
      simp only [hopen hafter, if_neg hc, if_true, hmultiline, ih hg]
      rfl
  | case6 => cases h
  | case7 c cs hafter hc hnewline ih =>
      obtain ⟨g, hg, rfl⟩ := Option.map_eq_some_iff.1 h
      rw [List.cons_append, literalBody.eq_def]
      simp only [hopen hafter, if_neg hc, if_neg hnewline, ih hg]
      rfl

theorem isPrefixOf_extend {xs : List Char} {y : Char} (hy : y ∉ xs) (cs bs : List Char) :
    xs.isPrefixOf (cs ++ y :: bs) = xs.isPrefixOf cs := by
  induction xs generalizing cs with
  | nil => simp
  | cons x xs ih =>
      cases cs with
      | nil =>
          have hne : x ≠ y := fun heq => hy (by simp [heq])
          simp [List.isPrefixOf, hne]
      | cons c cs =>
          simp [List.isPrefixOf, ih (fun hmem => hy (List.mem_cons_of_mem _ hmem))]

theorem literal_extend {raw : Bool} {cs : List Char} {e : Extent}
    (h : literal raw ('\x22' :: cs) = some e) (bs : List Char) :
    literal raw ('\x22' :: cs ++ '\n' :: bs) = some (e.extend ('\n' :: bs)) := by
  obtain ⟨g, hg, rfl⟩ := Option.map_eq_some_iff.1 h
  have hform : literalForm raw ('\x22' :: cs ++ '\n' :: bs) = literalForm raw ('\x22' :: cs) := by
    simp only [literalForm, isPrefixOf_extend (by decide : '\n' ∉ ['\x22', '\x22', '\x22'])]
  have hlength : (literalForm raw ('\x22' :: cs)).quotes.length ≤ ('\x22' :: cs).length := by
    have := congrArg List.length (quotes_append_drop raw cs)
    rw [List.length_append] at this
    omega
  simp only [literal, hform, List.drop_append_of_le_length hlength, literalBody_extend hg]
  simp [Extent.extend]

theorem number_extend (cs bs : List Char) :
    number (cs ++ '\n' :: bs) = ((number cs).1, (number cs).2 ++ '\n' :: bs) := by
  induction cs with
  | nil => rfl
  | cons c cs ih =>
      have hdigit : startsWithDigit (cs ++ '\n' :: bs) = startsWithDigit cs := by
        cases cs <;> rfl
      simp only [List.cons_append, number, hdigit, ih]
      split <;> rfl

theorem quotedName_extend (cs bs : List Char) :
    quotedName (cs ++ '\n' :: bs) = (quotedName cs).extend ('\n' :: bs) := by
  simp only [quotedName]
  rw [takeWhile_append_cons (by decide), dropWhile_append_cons (by decide)]
  cases cs.dropWhile fun c => c != '\x60' && c != '\n' with
  | nil => rfl
  | cons d ds =>
      by_cases hd : d = '\x60'
      · subst hd
        rfl
      · simp [hd, Munch.extend, Extent.extend]

/-- A step that does not take blanks is not changed by a line feed behind the text. -/
theorem munch_append {c : Char} {cs : List Char} {m : Munch} (hc : isBlank c = false)
    (h : munch c cs = .ok m) (bs : List Char) :
    munch c (cs ++ '\n' :: bs) = .ok (m.extend ('\n' :: bs)) := by
  have hhead : ∀ x, x ≠ '\n' → ((cs ++ '\n' :: bs).head? = some x ↔ cs.head? = some x) :=
    fun x hx => head?_append_cons hx cs bs
  have htail : ∀ x, cs.head? = some x → (cs ++ '\n' :: bs).tail = cs.tail ++ '\n' :: bs := by
    intro x hx
    cases cs with
    | nil => simp at hx
    | cons y ys => rfl
  simp only [munch, hc, Bool.false_eq_true, if_false, hhead '/' (by decide), hhead '*' (by decide),
    hhead '\x22' (by decide), hhead '>' (by decide)] at h ⊢
  split at h
  · next hcond =>
      cases h
      rw [if_pos hcond]
      simp only [lineComment, ← List.cons_append]
      rw [takeWhile_append_cons (by decide), dropWhile_append_cons (by decide)]
      rfl
  next hline =>
  rw [if_neg hline]
  split at h
  · next hcond =>
      rw [if_pos hcond, htail _ hcond.2]
      split at h
      · next e he =>
          cases h
          rw [blockComment_extend he]
          rfl
      · cases h
  next hblock =>
  rw [if_neg hblock]
  split at h
  · next hcond =>
      subst hcond
      rw [if_pos rfl]
      split at h
      · next e he =>
          cases h
          rw [← List.cons_append, literal_extend he]
          rfl
      · cases h
  next hquote =>
  rw [if_neg hquote]
  split at h
  · next hcond =>
      rw [if_pos hcond]
      obtain ⟨ds, rfl⟩ := List.head?_eq_some_iff.1 hcond.2
      split at h
      · next e he =>
          cases h
          rw [literal_extend he]
          rfl
      · cases h
  next hraw =>
  rw [if_neg hraw]
  split at h
  · next hcond =>
      cases h
      rw [if_pos hcond, quotedName_extend]
  next hbacktick =>
  rw [if_neg hbacktick]
  split at h
  · next hcond =>
      cases h
      rw [if_pos hcond, ← List.cons_append, number_extend]
      rfl
  next hdigit =>
  rw [if_neg hdigit]
  split at h
  · next hcond =>
      cases h
      rw [if_pos hcond, takeWhile_append_cons (by decide), dropWhile_append_cons (by decide)]
      rfl
  next hname =>
  rw [if_neg hname]
  split at h
  · next hcond =>
      cases h
      rw [if_pos hcond, htail _ hcond.2]
      rfl
  next harrow =>
  rw [if_neg harrow]
  cases h
  rfl

/-! ### Lines -/

theorem le_count_cons {n : Nat} {cs : List Char} (h : n ≤ cs.count '\n') (c : Char) :
    n ≤ (c :: cs).count '\n' := Nat.le_trans h List.count_le_count_cons

theorem blockComment_newlines_le {depth : Nat} {cs : List Char} {e : Extent}
    (h : blockComment depth cs = some e) : e.newlines ≤ e.taken.count '\n' := by
  fun_induction blockComment depth cs generalizing e with
  | case1 => cases h
  | case2 depth cs ih =>
      obtain ⟨f, hf, rfl⟩ := Option.map_eq_some_iff.1 h
      simpa [Extent.cons] using ih hf
  | case3 cs =>
      cases h
      simp
  | case4 depth cs ih =>
      obtain ⟨f, hf, rfl⟩ := Option.map_eq_some_iff.1 h
      simpa [Extent.cons] using ih hf
  | case5 depth cs ih =>
      obtain ⟨f, hf, rfl⟩ := Option.map_eq_some_iff.1 h
      simpa [Extent.newline] using ih hf
  | case6 depth c cs _ _ _ _ ih =>
      obtain ⟨f, hf, rfl⟩ := Option.map_eq_some_iff.1 h
      exact le_count_cons (ih hf) c

theorem literalBody_newlines_le {f : LiteralForm} {cs : List Char} {e : Extent}
    (h : literalBody f cs = some e) : e.newlines ≤ e.taken.count '\n' := by
  fun_induction literalBody f cs generalizing e with
  | case1 => cases h
  | case2 c cs rest hp =>
      cases h
      exact Nat.zero_le _
  | case3 => cases h
  | case4 c _ _ d ds ih =>
      obtain ⟨g, hg, rfl⟩ := Option.map_eq_some_iff.1 h
      exact le_count_cons (le_count_cons (ih hg) _) _
  | case5 cs _ _ _ ih =>
      obtain ⟨g, hg, rfl⟩ := Option.map_eq_some_iff.1 h
      simpa [Extent.newline] using ih hg
  | case6 => cases h
  | case7 c cs _ _ _ ih =>
      obtain ⟨g, hg, rfl⟩ := Option.map_eq_some_iff.1 h
      exact le_count_cons (ih hg) c

theorem literal_newlines_le {raw : Bool} {cs : List Char} {e : Extent}
    (h : literal raw cs = some e) : e.newlines ≤ e.taken.count '\n' := by
  obtain ⟨g, hg, rfl⟩ := Option.map_eq_some_iff.1 h
  have := literalBody_newlines_le hg
  simp only [List.count_append]
  omega

/-- A step counts no more line ends than it takes line feeds. -/
theorem munch_newlines_le {c : Char} {cs : List Char} {m : Munch} (h : munch c cs = .ok m) :
    m.extent.newlines ≤ m.extent.taken.count '\n' := by
  simp only [munch] at h
  split at h
  · cases h
    exact Nat.le_refl _
  split at h
  · cases h
    exact Nat.zero_le _
  split at h
  · split at h
    · next e he =>
        cases h
        exact le_count_cons (le_count_cons (blockComment_newlines_le he) _) _
    · cases h
  split at h
  · split at h
    · next e he =>
        cases h
        exact literal_newlines_le he
    · cases h
  split at h
  · split at h
    · next e he =>
        cases h
        exact le_count_cons (literal_newlines_le he) _
    · cases h
  split at h
  · cases h
    simp only [quotedName]
    split <;> exact Nat.zero_le _
  split at h
  · cases h
    exact Nat.zero_le _
  split at h
  · cases h
    exact Nat.zero_le _
  split at h
  · cases h
    exact Nat.zero_le _
  · cases h
    exact Nat.zero_le _

/-- In a text without line feeds a step counts no line ends, and leaves no line feeds. -/
theorem newlines_of_notMem {c : Char} {cs : List Char} {m : Munch} (h : munch c cs = .ok m)
    (hcs : '\n' ∉ c :: cs) : m.extent.newlines = 0 ∧ '\n' ∉ m.extent.rest := by
  rw [← munch_taken_append h, List.mem_append, not_or] at hcs
  have := munch_newlines_le h
  rw [List.count_eq_zero.2 hcs.1] at this
  exact ⟨Nat.le_zero.1 this, hcs.2⟩

/-- The tokens of a text without line feeds are on its line. -/
theorem line_of_mem_tokens {offset line : Nat} {cs : List Char} {ts : List Token}
    (h : tokens offset line cs = .ok ts) (hcs : '\n' ∉ cs) : ∀ t ∈ ts, t.line = line := by
  induction hn : cs.length using Nat.strongRecOn generalizing cs offset ts with
  | _ n ih =>
      cases cs with
      | nil =>
          cases h
          simp
      | cons c cs =>
          obtain ⟨m, us, hm, hus, rfl⟩ := exists_munch_of_tokens h
          obtain ⟨hnewlines, hrest⟩ := newlines_of_notMem hm hcs
          rw [hnewlines, Nat.add_zero] at hus
          have hothers := ih _ (hn ▸ length_rest_lt hm) hus hrest rfl
          intro t ht
          rcases List.mem_append.1 ht with ht | ht
          · simp only [Munch.token] at ht
            split at ht
            · rw [List.mem_singleton.1 ht]
            · cases ht
          · exact hothers t ht

/-! ### Texts one behind the other -/

/-- The tokens of two texts with a line feed between them are those of the first, and those of the
second from its place on; how many lines the first takes does not depend on where it stands, and
without line feeds it takes one. -/
theorem tokens_append (cs : List Char) :
    ∃ lines, ('\n' ∉ cs → lines = 1) ∧
      ∀ {offset line : Nat} {ts us : List Token} {bs : List Char},
        tokens offset line cs = .ok ts →
        tokens (offset + (byteSize cs + 1)) (line + lines) bs = .ok us →
        tokens offset line (cs ++ '\n' :: bs) = .ok (ts ++ us) := by
  induction hn : cs.length using Nat.strongRecOn generalizing cs with
  | _ n ih =>
      cases cs with
      | nil =>
          refine ⟨1, fun _ => rfl, fun h hbs => ?_⟩
          cases h
          rw [List.nil_append, tokens_blank (by decide)]
          exact hbs
      | cons c cs =>
          cases hc : isBlank c with
          | true =>
              obtain ⟨lines, hone, hlines⟩ := ih cs.length (by simp [← hn]) cs rfl
              refine ⟨lineEnd c + lines, fun hcs => ?_, fun h hbs => ?_⟩
              · rw [List.mem_cons, not_or] at hcs
                rw [hone hcs.2, lineEnd, if_neg (Ne.symm hcs.1)]
              · rw [tokens_blank hc] at h
                rw [List.cons_append, tokens_blank hc]
                exact hlines h (by simpa only [byteSize, Nat.add_assoc] using hbs)
          | false =>
              cases hm : munch c cs with
              | error u =>
                  refine ⟨1, fun _ => rfl, fun h => ?_⟩
                  rw [tokens_of_munch_error hm] at h
                  cases h
              | ok m =>
                  obtain ⟨lines, hone, hlines⟩ := ih m.extent.rest.length
                    (hn ▸ length_rest_lt hm) m.extent.rest rfl
                  refine ⟨m.extent.newlines + lines, fun hcs => ?_,
                    fun {offset line _ us bs} h hbs => ?_⟩
                  · obtain ⟨hnewlines, hrest⟩ := newlines_of_notMem hm hcs
                    rw [hnewlines, hone hrest]
                  · obtain ⟨m', ts, hm', hts, rfl⟩ := exists_munch_of_tokens h
                    cases hm.symm.trans hm'
                    have hsize := congrArg byteSize (munch_taken_append hm)
                    rw [byteSize_append] at hsize
                    have hrest := @hlines _ _ _ us bs hts
                      (by rw [← hbs, ← hsize]; simp only [Nat.add_assoc])
                    rw [List.cons_append, tokens_of_munch (munch_append hc hm bs)]
                    simp only [Munch.extend, Extent.extend, hrest]
                    rw [List.append_assoc]
                    rfl

end Lexer

/-- A token further down, by a number of bytes and lines. -/
def Token.move (bytes lines : Nat) (t : Token) : Token :=
  { t with start := bytes + t.start, stop := bytes + t.stop, line := lines + t.line }

namespace Lexer

open Text

/-- The tokens of a text do not depend on where it stands, except for their places. -/
theorem tokens_move (bytes lines : Nat) {offset line : Nat} {cs : List Char} {ts : List Token}
    (h : tokens offset line cs = .ok ts) :
    tokens (bytes + offset) (lines + line) cs = .ok (ts.map (Token.move bytes lines)) := by
  induction hn : cs.length using Nat.strongRecOn generalizing cs offset line ts with
  | _ n ih =>
      cases cs with
      | nil =>
          cases h
          rfl
      | cons c cs =>
          obtain ⟨m, us, hm, hus, rfl⟩ := exists_munch_of_tokens h
          have hrest := ih _ (hn ▸ length_rest_lt hm) hus rfl
          rw [tokens_of_munch hm, Nat.add_assoc, Nat.add_assoc, hrest, List.map_append]
          have htoken : m.token (bytes + offset) (lines + line) =
              (m.token offset line).map (Token.move bytes lines) := by
            simp only [Munch.token]
            cases m.kind? with
            | none => rfl
            | some k => simp [Token.move, Nat.add_assoc]
          rw [htoken]
          rfl

end Lexer

open Text

/-- **The tokens of two texts with a line feed between them** are those of the first and, further
down, those of the second. -/
theorem tokenize_append {a : String} {ts : List Token} (ha : tokenize a = .ok ts) :
    ∃ lines, ∀ {b : String} {us : List Token}, tokenize b = .ok us →
      tokenize (a ++ "\n" ++ b) =
        .ok (ts ++ us.map (Token.move (byteSize (a.toList ++ ['\n'])) lines)) := by
  obtain ⟨lines, -, hlines⟩ := Lexer.tokens_append a.toList
  refine ⟨lines, fun {b us} hb => ?_⟩
  have hmoved := Lexer.tokens_move (byteSize a.toList + 1) lines hb
  have hsize : byteSize (a.toList ++ ['\n']) = byteSize a.toList + 1 := by
    rw [byteSize_append]
    rfl
  have htext : (a ++ "\n" ++ b).toList = a.toList ++ '\n' :: b.toList := by simp
  rw [hsize]
  simp only [tokenize, htext]
  exact hlines ha (by rw [Nat.zero_add, Nat.add_comm 1 lines]; exact hmoved)

/-! ### Parts of a text -/

/-- A text can be cut at a byte offset. -/
def Text.IsCut (source : List Char) (n : Nat) : Prop :=
  ∃ xs ys, source = xs ++ ys ∧ byteSize xs = n

theorem Text.eq_nil_of_byteSize {cs : List Char} (h : byteSize cs = 0) : cs = [] := by
  cases cs with
  | nil => rfl
  | cons c cs =>
      have := Char.utf8Size_pos c
      simp only [byteSize] at h
      omega

/-- Between two cuts there is a part of the text, whatever stands around the text. -/
theorem Text.exists_slice?_eq {source : List Char} {start stop : Nat} (hstart : IsCut source start)
    (hstop : IsCut source stop) (hle : start ≤ stop) :
    ∃ part, ∀ before behind,
      slice? (before ++ source ++ behind) (byteSize before + start) (byteSize before + stop) =
        some part := by
  obtain ⟨xs, ys, rfl, rfl⟩ := hstart
  obtain ⟨us, vs, heq, rfl⟩ := hstop
  have hpart : ∃ part, us = xs ++ part ∧ ys = part ++ vs := by
    rcases List.append_eq_append_iff.1 heq with h | ⟨as, rfl, rfl⟩
    · exact h
    · rw [byteSize_append] at hle
      obtain rfl := eq_nil_of_byteSize (by omega : byteSize as = 0)
      exact ⟨[], by simp, by simp⟩
  obtain ⟨part, rfl, rfl⟩ := hpart
  refine ⟨part, fun before behind => ?_⟩
  have htext : before ++ (xs ++ (part ++ vs)) ++ behind =
      (before ++ xs) ++ part ++ (vs ++ behind) := by
    simp only [List.append_assoc]
  have hparts := slice?_append (before ++ xs) part (vs ++ behind)
  rw [htext, byteSize_append, ← Nat.add_assoc]
  rwa [byteSize_append] at hparts

/-- Tokens cover parts of a text and stand one behind the other. -/
structure Anchored (source : List Char) (ts : List Token) : Prop where
  /-- The text can be cut at both ends of a token. -/
  cuts : ∀ t ∈ ts, Text.IsCut source t.start ∧ Text.IsCut source t.stop
  /-- A token ends behind its start. -/
  ends : ∀ t ∈ ts, t.start ≤ t.stop
  /-- A token starts behind those before it. -/
  ordered : ts.Pairwise fun t u => t.stop ≤ u.start

theorem Anchored.sublist {source : List Char} {ts us : List Token} (h : Anchored source ts)
    (hsub : us.Sublist ts) : Anchored source us where
  cuts t ht := h.cuts t (hsub.subset ht)
  ends t ht := h.ends t (hsub.subset ht)
  ordered := h.ordered.sublist hsub

theorem Lexer.anchored_tokens {line : Nat} {cs : List Char} {ts : List Token} (before : List Char)
    (h : Lexer.tokens (byteSize before) line cs = .ok ts) :
    Anchored (before ++ cs) ts ∧ ∀ t ∈ ts, byteSize before ≤ t.start := by
  induction hn : cs.length using Nat.strongRecOn generalizing cs before line ts with
  | _ n ih =>
      cases cs with
      | nil =>
          cases h
          exact ⟨⟨by simp, by simp, .nil⟩, by simp⟩
      | cons c cs =>
          obtain ⟨m, us, hm, hus, rfl⟩ := exists_munch_of_tokens h
          have htext := munch_taken_append hm
          rw [← byteSize_append] at hus
          obtain ⟨hanchored, hfrom⟩ :=
            ih _ (hn ▸ length_rest_lt hm) (before ++ m.extent.taken) hus rfl
          rw [List.append_assoc, htext] at hanchored
          rw [byteSize_append] at hfrom
          simp only [Munch.token]
          cases m.kind? with
          | none =>
              refine ⟨hanchored, fun t ht => ?_⟩
              have := hfrom t ht
              omega
          | some k =>
              refine ⟨⟨?_, ?_, ?_⟩, ?_⟩
              · intro t ht
                rcases List.mem_cons.1 ht with rfl | ht
                · refine ⟨⟨before, c :: cs, rfl, rfl⟩,
                    before ++ m.extent.taken, m.extent.rest, ?_, ?_⟩
                  · rw [List.append_assoc, htext]
                  · rw [byteSize_append]
                · exact hanchored.cuts t ht
              · intro t ht
                rcases List.mem_cons.1 ht with rfl | ht
                · exact Nat.le_add_right _ _
                · exact hanchored.ends t ht
              · exact .cons (fun u hu => hfrom u hu) hanchored.ordered
              · intro t ht
                rcases List.mem_cons.1 ht with rfl | ht
                · exact Nat.le_refl _
                · have := hfrom t ht
                  omega

/-- The tokens of a text are anchored in it. -/
theorem anchored_tokenize {text : String} {ts : List Token} (h : tokenize text = .ok ts) :
    Anchored text.toList ts :=
  (Lexer.anchored_tokens [] h).1

/-- The first token of a stretch starts before the end of any of its tokens. -/
theorem Anchored.start_le_stop {source : List Char} {ts : List Token} (h : Anchored source ts)
    {first t : Token} (hfirst : ts.head? = some first) (ht : t ∈ ts) : first.start ≤ t.stop := by
  obtain ⟨us, rfl⟩ := List.head?_eq_some_iff.1 hfirst
  rcases List.mem_cons.1 ht with rfl | htail
  · exact h.ends t ht
  · have hfirst := h.ends first (by simp)
    have hnext := (List.pairwise_cons.1 h.ordered).1 t htail
    have hlast := h.ends t ht
    omega

/-- Anchored tokens have a source text, and further text around does not change it. -/
theorem Anchored.exists_sourceText?_eq {source : List Char} {ts : List Token}
    (h : Anchored source ts) :
    ∃ text, ∀ before behind lines,
      sourceText? (before ++ source ++ behind) (ts.map (Token.move (byteSize before) lines)) =
        some text := by
  have hhead : ∀ bytes lines, (ts.map (Token.move bytes lines)).head? =
      ts.head?.map (Token.move bytes lines) := fun _ _ => List.head?_map
  have hlast : ∀ bytes lines,
      ((ts.map (Token.move bytes lines)).reverse.find? fun t => !t.isComment) =
        (ts.reverse.find? fun t => !t.isComment).map (Token.move bytes lines) := by
    intro bytes lines
    rw [← List.map_reverse, List.find?_map]
    rfl
  simp only [sourceText?, hhead, hlast]
  cases hfirst : ts.head? with
  | none => exact ⟨"", fun _ _ _ => rfl⟩
  | some first =>
      cases hfind : ts.reverse.find? fun t => !t.isComment with
      | none => exact ⟨"", fun _ _ _ => rfl⟩
      | some last =>
          have hmem : first ∈ ts := List.mem_of_mem_head? hfirst
          have hmem' : last ∈ ts := List.mem_reverse.1 (List.mem_of_find?_eq_some hfind)
          obtain ⟨part, hpart⟩ := Text.exists_slice?_eq (h.cuts first hmem).1 (h.cuts last hmem').2
            (h.start_le_stop hfirst hmem')
          refine ⟨String.ofList (trimChars part), fun before behind lines => ?_⟩
          simp only [Option.map_some, Token.move, hpart]

end Scaffold
