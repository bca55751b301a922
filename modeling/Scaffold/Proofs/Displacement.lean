/-
**Reading further down.**

A reader asks of tokens what they are, whether two of them touch and which of two lines comes first.
So it does the same wherever the tokens stand: with more text before and behind the source, every
place it reaches and every line it reports move along, and nothing else changes.  This module proves
it for places and for stretches of tokens.

Reading goes on from places that are settled, with a token before them and with tokens that are
anchored in the source.  From there every stretch has a source text, so that reading never stops for
the lack of one.

Main definitions:

* `Scaffold.Displacement` — the text around a source, with the lines before it;
* `Scaffold.Cursor.Settled` — a place from which reading goes on;
* `Scaffold.Cursor.Leads` — a place is reached from another;
* `Scaffold.Alike` — two results agree.

Main results:

* `Scaffold.Displacement.line_cursor` — lines move along;
* `Scaffold.Displacement.split_tokens`, `Scaffold.Displacement.scan_tokens` — **groups and stretches
  are the same further down**;
* `Scaffold.Displacement.skipStatement_cursor` — so are statements;
* `Scaffold.Displacement.alike_requireText` — the text of a stretch is the same.
-/

import Scaffold.Proofs.TokenPlaces
import Scaffold.Source.Members

set_option relaxedAutoImplicit false
set_option autoImplicit false

namespace Scaffold

/-! ### Places -/

/-- The text around a source, and the lines before it. -/
structure Displacement where
  /-- The text before. -/
  before : List Char
  /-- The text behind. -/
  behind : List Char
  /-- The lines before. -/
  lines : Nat

namespace Displacement

variable (σ : Displacement)

/-- The source with the text around it. -/
def source (cs : List Char) : List Char := σ.before ++ cs ++ σ.behind

/-- A token further down. -/
def token (t : Token) : Token := t.move (Text.byteSize σ.before) σ.lines

/-- Tokens further down. -/
def tokens (ts : List Token) : List Token := ts.map σ.token

/-- A place further down. -/
def cursor (c : Cursor) : Cursor := ⟨c.prev.map σ.token, σ.tokens c.rest⟩

/-- A failure further down. -/
def failure (f : Failure) : Failure := { f with line := σ.lines + f.line }

@[simp] theorem kind_token (t : Token) : (σ.token t).kind = t.kind := rfl

@[simp] theorem line_token (t : Token) : (σ.token t).line = σ.lines + t.line := rfl

@[simp] theorem isWord_token (t : Token) (w : String) : (σ.token t).isWord w = t.isWord w := by
  simp only [Token.isWord, kind_token]

@[simp] theorem isMark_token (t : Token) (c : Char) : (σ.token t).isMark c = t.isMark c := by
  simp only [Token.isMark, kind_token]

@[simp] theorem isArrow_token (t : Token) : (σ.token t).isArrow = t.isArrow := by
  simp only [Token.isArrow, kind_token]

@[simp] theorem isComment_token (t : Token) : (σ.token t).isComment = t.isComment := by
  simp only [Token.isComment, kind_token]

@[simp] theorem word?_token (t : Token) : (σ.token t).word? = t.word? := by
  simp only [Token.word?, kind_token]

@[simp] theorem isWordIn_token (t : Token) (ws : List String) :
    (σ.token t).isWordIn ws = t.isWordIn ws := by
  simp only [Token.isWordIn, kind_token]

@[simp] theorem tokens_nil : σ.tokens [] = [] := rfl

@[simp] theorem tokens_cons (t : Token) (ts : List Token) :
    σ.tokens (t :: ts) = σ.token t :: σ.tokens ts := rfl

@[simp] theorem length_tokens (ts : List Token) : (σ.tokens ts).length = ts.length :=
  List.length_map _

@[simp] theorem isEmpty_tokens (ts : List Token) : (σ.tokens ts).isEmpty = ts.isEmpty := by
  cases ts <;> rfl

@[simp] theorem getLast?_tokens (ts : List Token) :
    (σ.tokens ts).getLast? = ts.getLast?.map σ.token :=
  List.getLast?_map

/-- With nothing before them, tokens stay where they are. -/
theorem tokens_of_behind (behind : List Char) (ts : List Token) :
    (⟨[], behind, 0⟩ : Displacement).tokens ts = ts := by
  have htoken : (⟨[], behind, 0⟩ : Displacement).token = id := by
    funext t
    simp [token, Token.move, Text.byteSize]
  rw [tokens, htoken, List.map_id]

@[simp] theorem prev_cursor (c : Cursor) : (σ.cursor c).prev = c.prev.map σ.token := rfl

@[simp] theorem rest_cursor (c : Cursor) : (σ.cursor c).rest = σ.tokens c.rest := rfl

@[simp] theorem next?_cursor (c : Cursor) : (σ.cursor c).next? = c.next?.map σ.token :=
  List.head?_map

@[simp] theorem found_cursor (c : Cursor) : (σ.cursor c).found = c.found := by
  simp [Cursor.found, Function.comp_def]

@[simp] theorem advance_cursor (c : Cursor) : (σ.cursor c).advance = σ.cursor c.advance := by
  obtain ⟨prev, rest⟩ := c
  cases rest <;> rfl

@[simp] theorem past_cursor (c : Cursor) (taken left : List Token) :
    (σ.cursor c).past (σ.tokens taken) (σ.tokens left) = σ.cursor (c.past taken left) := by
  simp only [Cursor.past, getLast?_tokens, cursor]
  cases taken.getLast? <;> rfl

@[simp] theorem toEnd_cursor (c : Cursor) : (σ.cursor c).toEnd = σ.cursor c.toEnd :=
  σ.past_cursor c c.rest []

@[simp] theorem atWord_cursor (c : Cursor) (w : String) : (σ.cursor c).atWord w = c.atWord w := by
  rw [Cursor.atWord, next?_cursor]
  cases h : c.next? <;> simp [Cursor.atWord, h]

@[simp] theorem atMark_cursor (c : Cursor) (m : Char) : (σ.cursor c).atMark m = c.atMark m := by
  rw [Cursor.atMark, next?_cursor]
  cases h : c.next? <;> simp [Cursor.atMark, h]

@[simp] theorem atArrow_cursor (c : Cursor) : (σ.cursor c).atArrow = c.atArrow := by
  rw [Cursor.atArrow, next?_cursor]
  cases h : c.next? <;> simp [Cursor.atArrow, h]

@[simp] theorem word?_cursor (c : Cursor) : (σ.cursor c).word? = c.word? := by
  cases h : c.next? <;> simp [Cursor.word?, h]

@[simp] theorem secondWord?_cursor (c : Cursor) : (σ.cursor c).secondWord? = c.secondWord? := by
  simp [Cursor.secondWord?]

@[simp] theorem mark?_cursor (c : Cursor) (m : Char) :
    (σ.cursor c).mark? m = (c.mark? m).map σ.cursor := by
  simp only [Cursor.mark?, atMark_cursor, advance_cursor]
  split <;> rfl

@[simp] theorem skipMark_cursor (c : Cursor) (m : Char) :
    (σ.cursor c).skipMark m = σ.cursor (c.skipMark m) := by
  simp only [Cursor.skipMark, mark?_cursor]
  cases c.mark? m <;> rfl

@[simp] theorem keyword?_cursor (c : Cursor) (w : String) :
    (σ.cursor c).keyword? w = (c.keyword? w).map σ.cursor := by
  simp only [Cursor.keyword?, atWord_cursor, advance_cursor]
  split <;> rfl

/-- Behind a token, lines move along. -/
theorem line_cursor {c : Cursor} (h : c.prev.isSome = true) :
    (σ.cursor c).line = σ.lines + c.line := by
  obtain ⟨p, hp⟩ := Option.isSome_iff_exists.1 h
  simp only [Cursor.line, next?_cursor, prev_cursor, hp]
  cases c.next? <;> rfl

theorem fail_cursor {c : Cursor} (h : c.prev.isSome = true) (reason : Reason) :
    (σ.cursor c).fail reason = σ.failure (c.fail reason) := by
  simp [Cursor.fail, failure, σ.line_cursor h]

/-! ### Groups and stretches -/

theorem opened?_token (kinds : List Bracket) (t : Token) :
    Group.opened? kinds (σ.token t) = Group.opened? kinds t := rfl

theorem step_token (g : Group) (t : Token) : g.step (σ.token t) = g.step t := rfl

/-- Groups are closed by the same token further down. -/
theorem split_tokens (g : Group) (ts : List Token) :
    g.split (σ.tokens ts) =
      (g.split ts).map fun parts => (σ.tokens parts.1, σ.token parts.2.1, σ.tokens parts.2.2) := by
  induction ts generalizing g with
  | nil => rfl
  | cons t ts ih =>
      simp only [tokens_cons, Group.split, step_token]
      cases g.step t with
      | none => rfl
      | some g =>
          simp only [ih]
          cases g.split ts <;> rfl

@[simp] theorem skipGroup_cursor (c : Cursor) : (σ.cursor c).skipGroup = σ.cursor c.skipGroup := by
  obtain ⟨prev, rest⟩ := c
  cases rest with
  | nil => rfl
  | cons t ts =>
      simp only [Cursor.skipGroup, rest_cursor, tokens_cons, opened?_token]
      cases Group.opened? [.curly, .round, .square, .angle] t with
      | none => exact σ.toEnd_cursor _
      | some g =>
          simp only [split_tokens]
          cases g.split ts with
          | none => exact σ.toEnd_cursor _
          | some parts => rfl

@[simp] theorem skipGluedParens_cursor (c : Cursor) :
    (σ.cursor c).skipGluedParens = σ.cursor c.skipGluedParens := by
  simp only [Cursor.skipGluedParens, prev_cursor, next?_cursor]
  cases c.prev with
  | none => rfl
  | some p =>
      cases c.next? with
      | none => rfl
      | some t =>
          have hglued : ((σ.token t).start == (σ.token p).stop) = (t.start == p.stop) := by
            rw [Bool.eq_iff_iff, beq_iff_eq, beq_iff_eq]
            exact Nat.add_left_cancel_iff
          simp only [Option.map_some, isMark_token, hglued, skipGroup_cursor]
          split <;> rfl

/-- A stretch ends at the same token further down, if its test and its state move along. -/
theorem scan_tokens {S : Type} {stop : S → Token → List Token → Bool} {note : S → Token → S}
    {kinds : List Bracket} {f : S → S}
    (hstop : ∀ s t ts, stop (f s) (σ.token t) (σ.tokens ts) = stop s t ts)
    (hnote : ∀ s t, note (f s) (σ.token t) = f (note s t)) (s : S) (g : Option Group)
    (ts : List Token) :
    scan stop note kinds (f s) g (σ.tokens ts) =
      (σ.tokens (scan stop note kinds s g ts).1, σ.tokens (scan stop note kinds s g ts).2) := by
  induction ts generalizing s g with
  | nil => cases g <;> rfl
  | cons t ts ih =>
      cases g with
      | some g =>
          simp only [tokens_cons, scan, step_token, hnote]
          cases g.step t <;> simp only [ih]
      | none =>
          simp only [tokens_cons, scan, hstop, opened?_token, hnote]
          cases stop s t ts with
          | true => rfl
          | false =>
              cases Group.opened? kinds t <;>
                simp only [ih, Bool.false_eq_true, if_false, tokens_cons]

theorem opensObservers_tokens (ts : List Token) :
    opensObservers (σ.tokens ts) = opensObservers ts := by
  simp only [opensObservers, tokens, List.find?_map, Function.comp_def, isComment_token]
  cases ts.find? fun t => !t.isComment <;> rfl

theorem statement_cursor {c : Cursor} (h : c.prev.isSome = true) (observers : Bool) :
    (σ.cursor c).statement observers =
      (σ.tokens (c.statement observers).1, σ.tokens (c.statement observers).2) := by
  rw [Cursor.statement, σ.line_cursor h]
  refine σ.scan_tokens ?_ ?_ c.line none c.rest
  · intro last t ts
    simp [endsStatement, opensObservers_tokens]
  · intro last t
    simp only [noteLine, isComment_token, line_token]
    exact (apply_ite (σ.lines + ·) _ _ _).symm

theorem skipStatement_cursor {c : Cursor} (h : c.prev.isSome = true) :
    (σ.cursor c).skipStatement = σ.cursor c.skipStatement := by
  simp only [Cursor.skipStatement, σ.statement_cursor h, isEmpty_tokens, advance_cursor, past_cursor]
  split <;> simp only [skipMark_cursor]

@[simp] theorem skipAttribute_cursor (c : Cursor) :
    (σ.cursor c).skipAttribute = σ.cursor c.skipAttribute := by
  simp only [Cursor.skipAttribute, advance_cursor, word?_cursor, skipGluedParens_cursor]
  split <;> rfl

@[simp] theorem skipModifier_cursor (c : Cursor) :
    (σ.cursor c).skipModifier = σ.cursor c.skipModifier := by
  simp [Cursor.skipModifier]

@[simp] theorem skipComments_cursor (c : Cursor) :
    (σ.cursor c).skipComments = σ.cursor c.skipComments := by
  have htake : (σ.tokens c.rest).takeWhile Token.isComment =
      σ.tokens (c.rest.takeWhile Token.isComment) := by
    simp [tokens, List.takeWhile_map, Function.comp_def]
  have hdrop : (σ.tokens c.rest).dropWhile Token.isComment =
      σ.tokens (c.rest.dropWhile Token.isComment) := by
    simp [tokens, List.dropWhile_map, Function.comp_def]
  rw [Cursor.skipComments, rest_cursor, htake, hdrop, past_cursor, Cursor.skipComments]

end Displacement

/-! ### Places that are reached -/

namespace Cursor

/-- A place is reached from another: what is left is left there, and behind a token there is one. -/
structure Leads (c c' : Cursor) : Prop where
  /-- There is a token before the place. -/
  prev : c.prev.isSome = true → c'.prev.isSome = true
  /-- Tokens are taken from the front. -/
  rest : c'.rest <:+ c.rest

theorem Leads.refl (c : Cursor) : c.Leads c := ⟨id, List.suffix_rfl⟩

theorem Leads.trans {c c' c'' : Cursor} (h : c.Leads c') (h' : c'.Leads c'') : c.Leads c'' :=
  ⟨fun hprev => h'.prev (h.prev hprev), h'.rest.trans h.rest⟩

theorem leads_advance (c : Cursor) : c.Leads c.advance := by
  obtain ⟨prev, rest⟩ := c
  cases rest with
  | nil => exact Leads.refl _
  | cons t ts => exact ⟨fun _ => rfl, List.suffix_cons t ts⟩

theorem leads_past {c : Cursor} {taken left : List Token} (h : taken ++ left = c.rest) :
    c.Leads (c.past taken left) := by
  refine ⟨fun hprev => ?_, taken, h⟩
  simp only [past]
  cases taken.getLast? with
  | none => exact hprev
  | some t => rfl

theorem leads_toEnd (c : Cursor) : c.Leads c.toEnd := leads_past (List.append_nil _)

theorem leads_scan {S : Type} {stop : S → Token → List Token → Bool} {note : S → Token → S}
    {kinds : List Bracket} {s : S} {g : Option Group} (c : Cursor) :
    c.Leads (c.past (scan stop note kinds s g c.rest).1 (scan stop note kinds s g c.rest).2) :=
  leads_past (scan_append stop note kinds s g c.rest)

theorem leads_of_mark? {c c' : Cursor} {m : Char} (h : c.mark? m = some c') : c.Leads c' := by
  simp only [mark?, Option.ite_none_right_eq_some, Option.some.injEq] at h
  exact h.2 ▸ leads_advance c

theorem leads_of_keyword? {c c' : Cursor} {w : String} (h : c.keyword? w = some c') :
    c.Leads c' := by
  simp only [keyword?, Option.ite_none_right_eq_some, Option.some.injEq] at h
  exact h.2 ▸ leads_advance c

theorem leads_skipMark (c : Cursor) (m : Char) : c.Leads (c.skipMark m) := by
  simp only [skipMark]
  cases h : c.mark? m with
  | none => exact Leads.refl c
  | some c' => exact leads_of_mark? h

theorem leads_close {c : Cursor} {t close : Token} {ts inside after : List Token} {g : Group}
    (hrest : c.rest = t :: ts) (h : g.split ts = some (inside, close, after)) :
    c.Leads ⟨some close, after⟩ := by
  refine ⟨fun _ => rfl, t :: (inside ++ [close]), ?_⟩
  rw [hrest, ← Group.split_append h]
  simp

theorem leads_skipGroup (c : Cursor) : c.Leads c.skipGroup := by
  simp only [skipGroup]
  split
  · exact Leads.refl c
  · next t ts hrest =>
      split
      · exact leads_toEnd c
      · split
        · next hsplit => exact leads_close hrest hsplit
        · exact leads_toEnd c

theorem leads_skipGluedParens (c : Cursor) : c.Leads c.skipGluedParens := by
  simp only [skipGluedParens]
  split
  · split
    · exact leads_skipGroup c
    · exact Leads.refl c
  · exact Leads.refl c

theorem leads_skipStatement (c : Cursor) : c.Leads c.skipStatement := by
  refine Leads.trans ?_ (leads_skipMark _ ';')
  split
  · exact leads_advance c
  · exact leads_scan c

theorem leads_skipAttribute (c : Cursor) : c.Leads c.skipAttribute := by
  simp only [skipAttribute]
  split
  · exact (leads_advance c).trans ((leads_advance _).trans (leads_skipGluedParens _))
  · exact leads_advance c

theorem leads_skipModifier (c : Cursor) : c.Leads c.skipModifier :=
  (leads_advance c).trans (leads_skipGluedParens _)

theorem leads_skipComments (c : Cursor) : c.Leads c.skipComments :=
  leads_past List.takeWhile_append_dropWhile

/-- A place from which reading goes on: there is a token before it, and the tokens behind it are
anchored in the source. -/
structure Settled (source : List Char) (c : Cursor) : Prop where
  /-- There is a token before the place. -/
  prev : c.prev.isSome = true
  /-- The tokens behind it are anchored in the source. -/
  anchored : Anchored source c.rest

theorem Settled.of_leads {source : List Char} {c c' : Cursor} (h : c.Settled source)
    (hleads : c.Leads c') : c'.Settled source :=
  ⟨hleads.prev h.prev, h.anchored.sublist hleads.rest.sublist⟩

end Cursor

/-! ### Results that agree -/

/-- Two results agree: both are values that agree, or both are errors that agree. -/
def Alike {ε α β : Type} (E : ε → ε → Prop) (V : α → β → Prop) (r : Except ε α) (r' : Except ε β) :
    Prop :=
  (∃ a b, r = .ok a ∧ r' = .ok b ∧ V a b) ∨ ∃ e e', r = .error e ∧ r' = .error e' ∧ E e e'

section Alike

variable {ε α β γ δ : Type} {E : ε → ε → Prop} {V : α → β → Prop} {W : γ → δ → Prop}

theorem Alike.ok {a : α} {b : β} (h : V a b) : Alike E V (.ok a) (.ok b) :=
  .inl ⟨a, b, rfl, rfl, h⟩

theorem Alike.error {e e' : ε} (h : E e e') : Alike E V (.error e) (.error e') :=
  .inr ⟨e, e', rfl, rfl, h⟩

theorem Alike.bind {r : Except ε α} {r' : Except ε β} {f : α → Except ε γ} {f' : β → Except ε δ}
    (h : Alike E V r r') (hf : ∀ a b, V a b → Alike E W (f a) (f' b)) :
    Alike E W (r >>= f) (r' >>= f') := by
  rcases h with ⟨a, b, rfl, rfl, hab⟩ | ⟨e, e', rfl, rfl, he⟩
  · exact hf a b hab
  · exact .error he

end Alike

namespace Displacement

variable (σ : Displacement) (cs : List Char)

/-- A failure is the same further down. -/
def Fails (f f' : Failure) : Prop := f' = σ.failure f

/-- A stop is a failure, and the same further down. -/
def Halts (h h' : Halt) : Prop := ∃ f, h = .failure f ∧ h' = .failure (σ.failure f)

/-- A place is the same further down, and reading goes on from it. -/
def Moves (c c' : Cursor) : Prop := c' = σ.cursor c ∧ c.Settled cs

/-- What was read is the same further down, and reading goes on behind it. -/
def Steps {α : Type} (x x' : α × Cursor) : Prop := x' = (x.1, σ.cursor x.2) ∧ x.2.Settled cs

variable {cs} {c : Cursor} (hc : c.Settled cs)

include hc

theorem alike_expectMark (m : Char) :
    Alike σ.Fails (σ.Moves cs) (c.expectMark m) ((σ.cursor c).expectMark m) := by
  simp only [Cursor.expectMark, mark?_cursor]
  cases h : c.mark? m with
  | none => exact .error (by simp [Fails, σ.fail_cursor hc.prev])
  | some c' => exact .ok ⟨rfl, hc.of_leads (Cursor.leads_of_mark? h)⟩

theorem alike_expectName (role : String) :
    Alike σ.Fails (σ.Steps cs) (c.expectName role) ((σ.cursor c).expectName role) := by
  simp only [Cursor.expectName, word?_cursor]
  cases c.word? with
  | none => exact .error (by simp [Fails, σ.fail_cursor hc.prev])
  | some w => exact .ok ⟨by simp, hc.of_leads (Cursor.leads_advance c)⟩

omit hc

/-- Items between commas are the same further down if each of them is. -/
theorem alike_separated {ε α : Type} {E : ε → ε → Prop} {lift : Failure → ε}
    {item item' : Nat → Cursor → Except ε (α × Cursor)}
    (hlift : ∀ f, E (lift f) (lift (σ.failure f)))
    (hitem : ∀ index c, c.Settled cs →
      Alike E (σ.Steps cs) (item index c) (item' index (σ.cursor c)))
    (close : Char) (fuel index : Nat) {c : Cursor} (hc : c.Settled cs) :
    Alike E (σ.Steps cs) (Cursor.separated lift item close fuel index c)
      (Cursor.separated lift item' close fuel index (σ.cursor c)) := by
  induction fuel generalizing index c with
  | zero => exact .error (by simpa [σ.fail_cursor hc.prev] using hlift _)
  | succ fuel ih =>
      simp only [Cursor.separated]
      rcases hitem index c hc with ⟨⟨x, c₁⟩, _, hr, hr', rfl, hc₁⟩ | ⟨e, e', hr, hr', he⟩
      · simp only [hr, hr', mark?_cursor]
        cases hcomma : c₁.mark? ',' with
        | some c₂ =>
            have hc₂ := hc₁.of_leads (Cursor.leads_of_mark? hcomma)
            rcases ih (index + 1) hc₂ with ⟨⟨xs, c₃⟩, _, hs, hs', rfl, hc₃⟩ | ⟨e, e', hs, hs', he⟩
            · simp only [hs, hs', Option.map_some]
              exact .ok ⟨rfl, hc₃⟩
            · simp only [hs, hs', Option.map_some]
              exact .error he
        | none =>
            rcases σ.alike_expectMark hc₁ close with ⟨c₂, _, hs, hs', rfl, hc₂⟩ | ⟨f, _, hs, hs', rfl⟩
            · simp only [hs, hs', Option.map_none]
              exact .ok ⟨rfl, hc₂⟩
            · simp only [hs, hs', Option.map_none]
              exact .error (hlift f)
      · simp only [hr, hr']
        exact .error he

/-! ### Texts of stretches -/

theorem exists_sourceText?_eq {ts : List Token} (h : Anchored cs ts) :
    ∃ text, sourceText? cs ts = some text ∧ sourceText? (σ.source cs) (σ.tokens ts) = some text := by
  obtain ⟨text, htext⟩ := h.exists_sourceText?_eq
  have hsame : ts.map (Token.move (Text.byteSize []) 0) = ts := tokens_of_behind [] ts
  refine ⟨text, ?_, htext σ.before σ.behind σ.lines⟩
  rw [← htext [] [] 0, hsame, List.nil_append, List.append_nil]

/-- The text of a stretch is the same, and there always is one. -/
theorem alike_requireText {ts : List Token} (h : Anchored cs ts) (f : Failure) :
    Alike σ.Halts Eq (requireText cs ts f)
      (requireText (σ.source cs) (σ.tokens ts) (σ.failure f)) := by
  obtain ⟨text, htext, htext'⟩ := σ.exists_sourceText?_eq h
  simp only [requireText, htext, htext']
  split
  · exact .error ⟨f, rfl, rfl⟩
  · exact .ok rfl

/-- A reader does the same further down. -/
def Carries {ε α : Type} (cs : List Char) (E : ε → ε → Prop)
    (read read' : Cursor → Except ε (α × Cursor)) : Prop :=
  ∀ ⦃c⦄, c.Settled cs → Alike E (σ.Steps cs) (read c) (read' (σ.cursor c))

/-- The text of the next tokens is the same, and reading goes on behind them. -/
theorem alike_stretch (hc : c.Settled cs) {parts : List Token × List Token}
    (h : parts.1 ++ parts.2 = c.rest) (reason : Reason) :
    Alike σ.Halts (σ.Steps cs)
      (do return (← requireText cs parts.1 (c.fail reason), c.past parts.1 parts.2))
      (do return (← requireText (σ.source cs) (σ.tokens parts.1) ((σ.cursor c).fail reason),
        (σ.cursor c).past (σ.tokens parts.1) (σ.tokens parts.2))) := by
  have hanchored : Anchored cs parts.1 := hc.anchored.sublist (h ▸ List.sublist_append_left _ _)
  rw [σ.fail_cursor hc.prev]
  refine (σ.alike_requireText hanchored _).bind ?_
  rintro text _ rfl
  exact .ok ⟨by simp, hc.of_leads (Cursor.leads_past h)⟩

theorem carries_expression :
    σ.Carries cs σ.Halts (Cursor.expression cs) (Cursor.expression (σ.source cs)) := by
  intro c hc
  simp only [Cursor.expression, σ.statement_cursor hc.prev]
  exact σ.alike_stretch hc (scan_append _ _ _ _ _ _) _

theorem carries_argument :
    σ.Carries cs σ.Halts (Cursor.argument cs) (Cursor.argument (σ.source cs)) := by
  intro c hc
  simp only [Cursor.argument, rest_cursor]
  rw [σ.scan_tokens (f := id) (fun _ _ _ => rfl) (fun _ _ => rfl)]
  exact σ.alike_stretch hc (scan_append _ _ _ _ _ _) _

end Displacement

end Scaffold
