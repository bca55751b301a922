/-
**Texts of values.**

A value behind an equals sign has no end of its own: it goes on until a line or a semicolon ends the
statement, a brace closes the body, or a block of observers follows.  A text in which the brackets
match, on one line and without comments, is taken whole, and copied as it stands.

Main definitions:

* `Scaffold.isValueRow` — tokens whose brackets match, and outside of which no statement ends;
* `Scaffold.Lexer.commentFree` — a text that holds no comment;
* `Scaffold.isValueText` — the texts that can stand behind an equals sign.

Main results:

* `Scaffold.exists_inside_of_isValueRow` — matching brackets close the groups that are open;
* `Scaffold.scan_of_isValueRow` — a statement goes on to the end of a value;
* `Scaffold.Lexer.covers_tokens` — the tokens of a text without comments cover it;
* `Scaffold.exists_isValue` — the tokens of a value, wherever it stands;
* `Scaffold.IsValue.expression` — **a value is copied as it stands**.
-/

import Mathlib.Data.List.TakeWhile
import Scaffold.Proofs.CheckedStretches
import Scaffold.Proofs.Declarations

set_option relaxedAutoImplicit false
set_option autoImplicit false

namespace Scaffold

open Text

/-! ### Matching brackets -/

/-- The kind of group that a token opens in an expression, if it opens one. -/
def Token.opens? (t : Token) : Option Bracket :=
  Bracket.grouping.find? fun b => t.isMark b.opener

/-- The kind of group that a token closes in an expression, if it closes one. -/
def Token.closes? (t : Token) : Option Bracket :=
  Bracket.grouping.find? fun b => t.isMark b.closer

/-- Whether the brackets of tokens match, behind others that are open, and outside of groups there
is neither a semicolon nor a block of observers. -/
def isValueRow : (stack : List Bracket) → List Token → Bool
  | stack, [] => stack.isEmpty
  | stack, t :: ts =>
    match t.opens? with
    | some b =>
      (!stack.isEmpty || b != .curly || !opensObservers ts) && isValueRow (b :: stack) ts
    | none =>
      match t.closes? with
      | some b => stack.head? == some b && isValueRow stack.tail ts
      | none => (!stack.isEmpty || !t.isMark ';') && isValueRow stack ts

theorem Token.kind_of_opens? {t : Token} {b : Bracket} (h : t.opens? = some b) :
    b ∈ Bracket.grouping ∧ t.kind = .mark b.opener :=
  ⟨List.mem_of_find?_eq_some h, Token.isMark_iff.1 (by simpa using List.find?_some h)⟩

theorem Token.kind_of_closes? {t : Token} {b : Bracket} (h : t.closes? = some b) :
    b ∈ Bracket.grouping ∧ t.kind = .mark b.closer :=
  ⟨List.mem_of_find?_eq_some h, Token.isMark_iff.1 (by simpa using List.find?_some h)⟩

theorem Token.isMark_opener_of_opens? {t : Token} (h : t.opens? = none) {b : Bracket}
    (hb : b ∈ Bracket.grouping) : t.isMark b.opener = false := by
  simpa using List.find?_eq_none.1 h b hb

theorem Token.isMark_closer_of_closes? {t : Token} (h : t.closes? = none) {b : Bracket}
    (hb : b ∈ Bracket.grouping) : t.isMark b.closer = false := by
  simpa using List.find?_eq_none.1 h b hb

/-- Tokens leave open groups of every kind as they are. -/
def LeavesAllOpen (ts : List Token) : Prop := ∀ b ∈ Bracket.grouping, LeavesOpen b ts

theorem LeavesAllOpen.append {ts us : List Token} (ht : LeavesAllOpen ts) (hu : LeavesAllOpen us) :
    LeavesAllOpen (ts ++ us) := fun b hb => (ht b hb).append (hu b hb)

/-- A token that is no bracket. -/
theorem leavesAllOpen_singleton {t : Token} (hopen : t.opens? = none) (hclose : t.closes? = none) :
    LeavesAllOpen [t] := by
  intro b hb
  apply leavesOpen_singleton
  · exact fun h => by simpa [Token.isMark_of_mark h] using Token.isMark_opener_of_opens? hopen hb
  · exact fun h => by simpa [Token.isMark_of_mark h] using Token.isMark_closer_of_closes? hclose hb

/-- A whole group: brackets of other kinds do not count. -/
theorem LeavesAllOpen.group {b : Bracket} {o c : Token} {ts : List Token} (h : LeavesAllOpen ts)
    (ho : o.kind = .mark b.opener) (hc : c.kind = .mark b.closer) :
    LeavesAllOpen (o :: (ts ++ [c])) := by
  intro d hd
  by_cases hbd : b = d
  · subst hbd
    exact (h b hd).group ho hc
  · have hmarks : b.opener ≠ d.opener ∧ b.opener ≠ d.closer ∧ b.closer ≠ d.opener ∧
        b.closer ≠ d.closer := by
      revert hbd
      cases b <;> cases d <;> decide
    obtain ⟨h₁, h₂, h₃, h₄⟩ := hmarks
    have hopen : LeavesOpen d [o] := leavesOpen_singleton (by simpa [ho]) (by simpa [ho])
    have hclose : LeavesOpen d [c] := leavesOpen_singleton (by simpa [hc]) (by simpa [hc])
    exact hopen.append ((h d hd).append hclose)

/-- Tokens that close the innermost open group, if one is open, and go on matching. -/
def Closes : List Bracket → List Token → Prop
  | [], ts => ts = []
  | b :: stack, ts =>
    ∃ c after, ts = c :: after ∧ c.kind = .mark b.closer ∧ isValueRow stack after = true

/-- **Matching brackets close the groups that are open**, each where its inside leaves it open. -/
theorem exists_inside_of_isValueRow {stack : List Bracket} {ts : List Token}
    (h : isValueRow stack ts = true) :
    ∃ inside behind, ts = inside ++ behind ∧ LeavesAllOpen inside ∧ Closes stack behind := by
  induction hn : ts.length using Nat.strongRecOn generalizing stack ts with
  | _ n ih =>
      cases ts with
      | nil =>
          have hopen : stack = [] := by simpa [isValueRow] using h
          exact ⟨[], [], rfl, fun b _ => leavesOpen_nil b, hopen ▸ rfl⟩
      | cons t ts =>
          rw [List.length_cons] at hn
          rw [isValueRow] at h
          cases hopens : t.opens? with
          | some b =>
              simp only [hopens, Bool.and_eq_true] at h
              -- the group that the token opens, and what stands behind it
              obtain ⟨inside, behind, rfl, hinside, c, after, rfl, hc, hafter⟩ :=
                ih ts.length (by omega) h.2 rfl
              simp only [List.length_append, List.length_cons] at hn
              obtain ⟨inside', behind', rfl, hinside', hcloses⟩ :=
                ih after.length (by omega) hafter rfl
              exact ⟨t :: (inside ++ [c]) ++ inside', behind', by simp,
                (hinside.group (Token.kind_of_opens? hopens).2 hc).append hinside', hcloses⟩
          | none =>
              simp only [hopens] at h
              cases hcloses : t.closes? with
              | some b =>
                  simp only [hcloses, Bool.and_eq_true, beq_iff_eq] at h
                  obtain ⟨rest, rfl⟩ := List.head?_eq_some_iff.1 h.1
                  exact ⟨[], t :: ts, rfl, fun b _ => leavesOpen_nil b, t, ts, rfl,
                    (Token.kind_of_closes? hcloses).2, h.2⟩
              | none =>
                  simp only [hcloses, Bool.and_eq_true] at h
                  obtain ⟨inside, behind, rfl, hinside, hbehind⟩ :=
                    ih ts.length (by omega) h.2 rfl
                  exact ⟨t :: inside, behind, rfl,
                    (leavesAllOpen_singleton hopens hcloses).append hinside, hbehind⟩

/-- A value leaves open groups as they are. -/
theorem leavesAllOpen_of_isValueRow {ts : List Token} (h : isValueRow [] ts = true) :
    LeavesAllOpen ts := by
  obtain ⟨inside, behind, rfl, hinside, hbehind⟩ := exists_inside_of_isValueRow h
  obtain rfl : behind = [] := hbehind
  simpa using hinside

/-! ### The end of a value -/

/-- Further tokens do not matter for whether a block that is closed holds observers. -/
theorem opensObservers_append {inside after : List Token} {c : Token} (hc : c.isComment = false)
    (rest : List Token) :
    opensObservers (inside ++ c :: after ++ rest) = opensObservers (inside ++ c :: after) := by
  simp only [opensObservers, List.append_assoc, List.find?_append, List.cons_append,
    List.find?_cons, hc, Bool.not_false]

theorem Group.opened?_grouping (t : Token) :
    Group.opened? Bracket.grouping t = t.opens?.map fun b => { bracket := b } := rfl

section Statement

variable {line : Nat} {t : Token} {ts : List Token}

/-- A group on the line goes on with a statement, unless it is a block of observers. -/
theorem endsStatement_of_opens? {b : Bracket} (hopens : t.opens? = some b) (hline : t.line = line)
    (h : (b != .curly || !opensObservers ts) = true) : endsStatement true line t ts = false := by
  have hkind := (Token.kind_of_opens? hopens).2
  cases b <;> simp_all [endsStatement, Token.isMark, Bracket.opener]

/-- A token on the line goes on with a statement, unless it is a semicolon or a bracket. -/
theorem endsStatement_of_plain (hopens : t.opens? = none) (hcloses : t.closes? = none)
    (hline : t.line = line) (h : t.isMark ';' = false) : endsStatement true line t ts = false := by
  have hcurly : Bracket.curly ∈ Bracket.grouping := by decide
  have hopener : t.isMark '{' = false := Token.isMark_opener_of_opens? hopens hcurly
  have hcloser : t.isMark '}' = false := Token.isMark_closer_of_closes? hcloses hcurly
  simp [endsStatement, h, hopener, hcloser, hline]

end Statement

/-- The tokens behind a value: a member on a later line, or none. -/
def StartsBelow (line : Nat) (rest : List Token) : Prop :=
  ∀ t ∈ rest.head?, line < t.line ∧ ∃ w, t.kind = .word w

/-- **A statement goes on to the end of a value** on its line. -/
theorem scan_of_isValueRow {line : Nat} {ts rest : List Token} (h : isValueRow [] ts = true)
    (hline : ∀ t ∈ ts, t.line = line) (hrest : StartsBelow line rest) :
    scan (endsStatement true) noteLine Bracket.grouping line none (ts ++ rest) = (ts, rest) := by
  have hnote : ∀ t ∈ ts, noteLine line t = line := by
    intro t ht
    simp [noteLine, hline t ht]
  induction hn : ts.length using Nat.strongRecOn generalizing ts with
  | _ n ih =>
      cases ts with
      | nil =>
          cases rest with
          | nil => rfl
          | cons r rs =>
              obtain ⟨hbelow, w, hw⟩ := hrest r (by simp)
              have hends : endsStatement true line r rs = true := by
                simp [endsStatement, hbelow, Token.isMark, Token.isArrow, hw]
              rw [List.nil_append, scan, if_pos hends]
      | cons t ts =>
          rw [List.length_cons] at hn
          rw [isValueRow] at h
          have htline := hline t (by simp)
          cases hopens : t.opens? with
          | some b =>
              simp only [hopens, Bool.and_eq_true, List.isEmpty_nil, Bool.not_true,
                Bool.false_or] at h
              obtain ⟨hobservers, hrow⟩ := h
              -- the statement passes over the whole group, and goes on behind it
              obtain ⟨inside, behind, rfl, hinside, c, after, rfl, hc, hafter⟩ :=
                exists_inside_of_isValueRow hrow
              have hcomment : c.isComment = false := by simp [Token.isComment, hc]
              rw [← opensObservers_append hcomment rest] at hobservers
              have hsplit : Group.split { bracket := b } (inside ++ c :: after ++ rest) =
                  some (inside, c, after ++ rest) := by
                rw [List.append_assoc, List.cons_append]
                exact split_of_leavesOpen (hinside b (Token.kind_of_opens? hopens).1) hc _
              have hafter := ih after.length (by simp at hn; omega) hafter
                (fun u hu => hline u (by simp [hu])) (fun u hu => hnote u (by simp [hu])) rfl
              rw [List.cons_append, scan, endsStatement_of_opens? hopens htline hobservers,
                Group.opened?_grouping, hopens]
              simp only [Bool.false_eq_true, if_false, Option.map_some, scan_group line hsplit,
                hnote c (by simp), hafter]
          | none =>
              simp only [hopens] at h
              cases hcloses : t.closes? with
              | some b => simp [hcloses] at h
              | none =>
                  simp only [hcloses, Bool.and_eq_true, List.isEmpty_nil, Bool.not_true,
                    Bool.false_or, Bool.not_eq_eq_eq_not] at h
                  have hbehind := ih ts.length (by omega) h.2
                    (fun u hu => hline u (List.mem_cons_of_mem _ hu))
                    (fun u hu => hnote u (List.mem_cons_of_mem _ hu)) rfl
                  rw [List.cons_append, scan, endsStatement_of_plain hopens hcloses htline h.1,
                    Group.opened?_grouping, hopens]
                  simp only [Bool.false_eq_true, if_false, Option.map_none, hnote t (by simp),
                    hbehind]

/-! ### Texts without comments -/

namespace Lexer

/-- Whether a text holds no comment: but for blanks, each step through it yields a token, and no
comment; `fuel` bounds the steps. -/
def commentFreeFrom : (fuel : Nat) → List Char → Bool
  | _, [] => true
  | 0, _ :: _ => false
  | fuel + 1, c :: cs =>
    match munch c cs with
    | .error _ => false
    | .ok m =>
      (match m.kind? with
        | some (.comment _) => false
        | some _ => true
        | none => isBlank c) && commentFreeFrom fuel m.extent.rest

/-- Whether a text holds no comment. -/
def commentFree (cs : List Char) : Bool := commentFreeFrom cs.length cs

/-- What one step through a text without comments yields. -/
theorem commentFreeFrom_step {fuel : Nat} {c : Char} {cs : List Char} {m : Munch}
    (h : commentFreeFrom (fuel + 1) (c :: cs) = true) (hm : munch c cs = .ok m) :
    commentFreeFrom fuel m.extent.rest = true ∧
      (isBlank c = false → ∃ k, m.kind? = some k ∧ ∀ text, k ≠ .comment text) := by
  simp only [commentFreeFrom, hm, Bool.and_eq_true] at h
  refine ⟨h.2, fun hc => ?_⟩
  cases hk : m.kind? with
  | none => simp [hk, hc] at h
  | some k =>
      refine ⟨k, rfl, ?_⟩
      rintro text rfl
      simp [hk] at h

/-- The last token of a text without comments reaches to its end, if no blank is there. -/
theorem exists_last_token {fuel offset line : Nat} {cs : List Char} {ts : List Token} {d : Char}
    (h : commentFreeFrom fuel cs = true) (hts : tokens offset line cs = .ok ts)
    (hd : cs.getLast? = some d) (hblank : isBlank d = false) :
    ∃ t, ts.getLast? = some t ∧ t.isComment = false ∧ t.stop = offset + byteSize cs := by
  induction fuel generalizing cs offset line ts with
  | zero => cases cs <;> simp [commentFreeFrom] at h hd
  | succ fuel ih =>
      cases cs with
      | nil => simp at hd
      | cons c cs =>
          obtain ⟨m, us, hm, hus, rfl⟩ := exists_munch_of_tokens hts
          obtain ⟨hfree, htoken⟩ := commentFreeFrom_step h hm
          have htext := munch_taken_append hm
          cases hrest : m.extent.rest with
          | nil =>
              rw [hrest, List.append_nil] at htext
              rw [hrest] at hus
              cases hus
              have hc : isBlank c = false := by
                cases hc : isBlank c with
                | false => rfl
                | true =>
                    -- a step over blanks takes nothing but blanks
                    rw [munch, if_pos hc] at hm
                    cases hm
                    have hall : ∀ e ∈ c :: cs, isBlank e = true :=
                      List.forall_mem_cons.2 ⟨hc, List.dropWhile_eq_nil_iff.1 hrest⟩
                    exact absurd (hall d (List.mem_of_getLast? hd)) (by simp [hblank])
              obtain ⟨k, hk, hcomment⟩ := htoken hc
              refine ⟨⟨k, offset, offset + byteSize m.extent.taken, line⟩, ?_, ?_, by rw [htext]⟩
              · simp [Munch.token, hk]
              · cases k with
                | comment text => exact absurd rfl (hcomment text)
                | _ => rfl
          | cons e es =>
              have hlast : m.extent.rest.getLast? = some d := by
                rw [← hd, ← htext, hrest, List.getLast?_append_of_ne_nil _ (by simp)]
              obtain ⟨t, ht, hcomment, hstop⟩ := ih hfree hus hlast
              refine ⟨t, ?_, hcomment, ?_⟩
              · rw [List.getLast?_append, ht, Option.some_or]
              · rw [hstop, ← htext, byteSize_append, Nat.add_assoc]

/-- The tokens of a text without comments cover it, if there are no blanks around it. -/
theorem covers_tokens {offset line : Nat} {cs : List Char} {ts : List Token} (hne : cs ≠ [])
    (hhead : ∀ c ∈ cs.head?, isBlank c = false) (hlast : ∀ c ∈ cs.getLast?, isBlank c = false)
    (h : commentFree cs = true) (hts : tokens offset line cs = .ok ts) :
    Covers offset (offset + byteSize cs) ts := by
  cases cs with
  | nil => exact absurd rfl hne
  | cons c cs =>
      refine ⟨?_, ?_⟩
      · obtain ⟨m, us, hm, -, rfl⟩ := exists_munch_of_tokens hts
        obtain ⟨k, hk, -⟩ := (commentFreeFrom_step h hm).2 (hhead c rfl)
        simp [Munch.token, hk]
      · obtain ⟨d, hd⟩ := List.getLast?_isSome.2 hne |> Option.isSome_iff_exists.1
        exact exists_last_token h hts hd (hlast d hd)

end Lexer

/-! ### Values -/

/-- Whether a text neither starts nor ends with a blank. -/
def isTrimmed (cs : List Char) : Bool :=
  cs.head?.all (!isBlank ·) && cs.getLast?.all (!isBlank ·)

/-- Whether a text can stand behind an equals sign: it is one line without blanks around it, it has
no comments, and its brackets match. -/
def isValueText (value : String) : Bool :=
  !value.isEmpty && !value.toList.contains '\n' && isTrimmed value.toList &&
    Lexer.commentFree value.toList &&
    match tokenize value with
    | .ok ts => isValueRow [] ts
    | .error _ => false

theorem isTrimmed_iff {cs : List Char} : isTrimmed cs = true ↔
    (∀ c ∈ cs.head?, isBlank c = false) ∧ ∀ c ∈ cs.getLast?, isBlank c = false := by
  simp [isTrimmed, Option.all_eq_true]

theorem isValueText_iff {value : String} : isValueText value = true ↔
    value.isEmpty = false ∧ '\n' ∉ value.toList ∧ isTrimmed value.toList = true ∧
      Lexer.commentFree value.toList = true ∧
      ∃ ts, tokenize value = .ok ts ∧ isValueRow [] ts = true := by
  simp only [isValueText, Bool.and_eq_true, and_assoc]
  cases tokenize value <;> simp

/-- The tokens of a value on a line of a text. -/
structure IsValue (source : List Char) (line : Nat) (value : String) (ts : List Token) : Prop where
  /-- Its brackets match. -/
  row : isValueRow [] ts = true
  /-- It is on the line. -/
  line_eq : ∀ t ∈ ts, t.line = line
  /-- It has tokens. -/
  ne_nil : ts ≠ []
  /-- It is copied as it stands. -/
  text : sourceText? source ts = some value
  /-- It is not empty. -/
  nonempty : value.isEmpty = false

/-- Where tokens stand does not matter for their brackets. -/
theorem Displacement.isValueRow_tokens (σ : Displacement) (stack : List Bracket)
    (ts : List Token) : isValueRow stack (σ.tokens ts) = isValueRow stack ts := by
  induction ts generalizing stack with
  | nil => rfl
  | cons t ts ih =>
      have hopens : (σ.token t).opens? = t.opens? := rfl
      have hcloses : (σ.token t).closes? = t.closes? := rfl
      have hmark : (σ.token t).isMark ';' = t.isMark ';' := rfl
      simp only [tokens_cons, isValueRow, hopens, hcloses, hmark, opensObservers_tokens, ih]

/-- A text that can stand behind an equals sign is copied, wherever it stands. -/
theorem exists_isValue {value : String} (h : isValueText value = true) (before after : List Char)
    (line : Nat) :
    ∃ ts, Lexer.tokens (byteSize before) (line + 1) value.toList = .ok ts ∧
      IsValue (before ++ value.toList ++ after) (line + 1) value ts := by
  obtain ⟨hempty, hline, htrimmed, hfree, us, htokens, hrow⟩ := isValueText_iff.1 h
  obtain ⟨hhead, hlast⟩ := isTrimmed_iff.1 htrimmed
  have hts := Lexer.tokens_move (byteSize before) line htokens
  have hne : value.toList ≠ [] := by simpa using hempty
  have hcovers := Lexer.covers_tokens hne hhead hlast hfree hts
  refine ⟨_, hts, ?_, ?_, ?_, ?_, hempty⟩
  · exact (Displacement.isValueRow_tokens ⟨before, after, line⟩ [] us).trans hrow
  · exact Lexer.line_of_mem_tokens hts hline
  · rintro hnil
    simp [Covers, hnil] at hcovers
  · rw [sourceText?_of_covers hcovers (trimChars_of_ends hhead hlast), String.ofList_toList]

/-- **A value is copied as it stands**, up to the next member. -/
theorem IsValue.expression {source : List Char} {line : Nat} {value : String} {ts rest : List Token}
    (h : IsValue source line value ts) (hrest : StartsBelow line rest) (prev : Option Token) :
    Cursor.expression source ⟨prev, ts ++ rest⟩ =
      .ok (value, ⟨ts.getLast?.or prev, rest⟩) := by
  have hcursor : (⟨prev, ts ++ rest⟩ : Cursor).line = line := by
    cases ts with
    | nil => exact absurd rfl h.ne_nil
    | cons t ts => exact h.line_eq t (by simp)
  simp only [Cursor.expression, Cursor.statement, hcursor,
    scan_of_isValueRow h.row h.line_eq hrest, requireText, h.text, h.nonempty, Bool.false_eq_true,
    if_false, Cursor.past]
  rfl

end Scaffold
