/-
**Every derived type is read.**

The reader of types never goes back, and takes as many marks as it finds.  So it may take a mark for
the result of a function where a derivation has it behind the function; what is left of the marks is
then shorter, and a function stays one.  With that, a reader gets behind the tokens of every phrase
of the grammar, before whatever may follow.

Main definitions:

* `Scaffold.BehindType`, `Scaffold.BehindCore` — what may follow a type, and a core;
* `Scaffold.Phrase.IsRead` — how the tokens of a phrase are read.

Main results:

* `Scaffold.Derives.noLabel` — no label is found where there is none;
* `Scaffold.Derives.isRead` — **whatever is derived is read**;
* `Scaffold.TypeRef.parse_iff_derives` — **the type parser accepts exactly the grammar**.
-/

import Scaffold.Proofs.TypeGrammar

set_option relaxedAutoImplicit false
set_option autoImplicit false

namespace Scaffold

/-! ### What follows -/

/-- What may follow a type inside a longer one. -/
def BehindType (k : TokenKind) : Prop := ∃ c ∈ [',', ')', ']', '>', ':'], k = .mark c

/-- What may follow a core: a mark of the type that it is the core of, or what follows that type. -/
def BehindCore (k : TokenKind) : Prop := ∃ c ∈ ['?', '!', ',', ')', ']', '>', ':'], k = .mark c

theorem behindType_mark {c : Char} (h : c ∈ [',', ')', ']', '>', ':']) : BehindType (.mark c) :=
  ⟨c, h, rfl⟩

theorem BehindType.behindCore {k : TokenKind} (h : BehindType k) : BehindCore k := by
  obtain ⟨c, hc, rfl⟩ := h
  exact ⟨c, List.mem_cons_of_mem _ (List.mem_cons_of_mem _ hc), rfl⟩

theorem BehindType.followsOptional {k : TokenKind} (h : BehindType k) : FollowsOptional k := by
  obtain ⟨c, hc, rfl⟩ := h
  have hall : ∀ d ∈ [',', ')', ']', '>', ':'], d ≠ '?' ∧ d ≠ '!' := by simp
  simpa [FollowsOptional] using hall c hc

theorem behindType_of_followsItem {close : Char} (hclose : close ∈ [')', '>']) {k : TokenKind}
    (h : FollowsItem close k) : BehindType k := by
  rcases h with rfl | rfl
  · exact behindType_mark (by decide)
  · simp only [List.mem_cons, List.not_mem_nil, or_false] at hclose
    rcases hclose with rfl | rfl <;> exact behindType_mark (by decide)

theorem followsElement_of_followsItem {k : TokenKind} (h : FollowsItem ')' k) :
    FollowsElement k := by
  rcases h with rfl | rfl <;> simp [FollowsElement]

namespace BehindCore

variable {k : TokenKind} (h : BehindCore k)
include h

/-- What follows a core goes on with no name and opens no bracket. -/
theorem ne_mark {c : Char} (hc : c ∈ ['.', '<', '(']) : k ≠ .mark c := by
  obtain ⟨d, hd, rfl⟩ := h
  have hall : ∀ a ∈ ['.', '<', '('], ∀ b ∈ ['?', '!', ',', ')', ']', '>', ':'], b ≠ a := by simp
  simpa using hall c hc d hd

theorem ne_word (w : String) : k ≠ .word w := by
  obtain ⟨d, -, rfl⟩ := h
  simp

theorem ne_arrow : k ≠ .arrow := by
  obtain ⟨d, -, rfl⟩ := h
  simp

theorem followsEffects : FollowsEffects k :=
  ⟨h.ne_word _, h.ne_word _, h.ne_word _, h.ne_mark (by decide)⟩

end BehindCore

/-- All tokens are marks that make a type optional. -/
def AreOptionalMarks (ms : List Token) : Prop := ∀ m ∈ ms, m.IsOptionalMark

theorem AreOptionalMarks.append {ms ns : List Token} (hms : AreOptionalMarks ms)
    (hns : AreOptionalMarks ns) : AreOptionalMarks (ms ++ ns) := by
  intro m hm
  rcases List.mem_append.1 hm with hm | hm
  · exact hms m hm
  · exact hns m hm

theorem AreOptionalMarks.of_suffix {ms ns : List Token} (h : AreOptionalMarks ns)
    (hms : ms <:+ ns) : AreOptionalMarks ms :=
  fun m hm => h m (hms.subset hm)

theorem areOptionalMarks_nil : AreOptionalMarks [] := by simp [AreOptionalMarks]

/-- Behind marks there is what follows a core. -/
theorem endsWith_marks {follows : TokenKind → Prop} {ms rest : List Token}
    (hms : AreOptionalMarks ms) (hquestion : follows (.mark '?'))
    (hexclamation : follows (.mark '!')) (hrest : EndsWith follows rest) :
    EndsWith follows (ms ++ rest) := by
  cases ms with
  | nil => exact hrest
  | cons m ms =>
      rw [List.cons_append, endsWith_cons]
      rcases hms m List.mem_cons_self with hm | hm
      · exact hm ▸ hquestion
      · exact hm ▸ hexclamation

theorem endsWith_behindCore {ms rest : List Token} (hms : AreOptionalMarks ms)
    (hrest : EndsWith BehindType rest) : EndsWith BehindCore (ms ++ rest) :=
  endsWith_marks hms ⟨_, by simp, rfl⟩ ⟨_, by simp, rfl⟩ (hrest.mono fun _ hk => hk.behindCore)

/-! ### How phrases start -/

namespace Derives

variable {n : Nat} {ts : List Token} {t : TypeRef}

/-- A core starts with a bracket or a word. -/
theorem exists_cons_of_core (h : Derives n .core ts t) :
    ∃ u us, ts = u :: us ∧
      (u.kind = .mark '[' ∨ u.kind = .mark '(' ∨ ∃ w, u.kind = .word w) := by
  cases h with
  | sequence ho => exact ⟨_, _, rfl, .inl ho⟩
  | mapping ho => exact ⟨_, _, rfl, .inl ho⟩
  | action ho => exact ⟨_, _, rfl, .inr (.inl ho)⟩
  | function ho => exact ⟨_, _, rfl, .inr (.inl ho)⟩
  | unit ho => exact ⟨_, _, rfl, .inr (.inl ho)⟩
  | group ho => exact ⟨_, _, rfl, .inr (.inl ho)⟩
  | existential ha => exact ⟨_, _, rfl, .inr (.inr ⟨_, ha⟩)⟩
  | name hf => exact ⟨_, _, rfl, .inr (.inr ⟨_, hf⟩)⟩
  | application hf => exact ⟨_, _, rfl, .inr (.inr ⟨_, hf⟩)⟩

/-- The front of a core is followed by nothing that a keyword or a mark before it could take. -/
theorem endsWith_core (h : Derives n .core ts t) {test : TokenKind → Prop} (rest : List Token)
    (hsquare : test (.mark '[')) (hround : test (.mark '(')) (hword : ∀ w, test (.word w)) :
    EndsWith test (ts ++ rest) := by
  obtain ⟨u, us, rfl, hu⟩ := h.exists_cons_of_core
  rw [List.cons_append, endsWith_cons]
  rcases hu with hu | hu | ⟨w, hu⟩
  · exact hu ▸ hsquare
  · exact hu ▸ hround
  · exact hu ▸ hword w

/-- A type starts with an at sign, or as a core does. -/
theorem endsWith_type (h : Derives n .type ts t) {test : TokenKind → Prop} (rest : List Token)
    (hat : test (.mark '@')) (hsquare : test (.mark '[')) (hround : test (.mark '('))
    (hword : ∀ w, test (.word w)) : EndsWith test (ts ++ rest) := by
  cases h with
  | type has hcore _ _ =>
      cases has with
      | nil =>
          rw [List.nil_append, List.append_assoc]
          exact hcore.endsWith_core _ hsquare hround hword
      | cons hm _ _ =>
          rw [List.cons_append, List.cons_append, List.cons_append, endsWith_cons, hm]
          exact hat

theorem ne_nil_of_type (h : Derives n .type ts t) : ts ≠ [] := by
  cases h with
  | type _ hcore _ _ =>
      obtain ⟨u, us, rfl, -⟩ := hcore.exists_cons_of_core
      simp

theorem endsWith_label {ls us : List Token} {test : TokenKind → Prop} (h : IsLabel ls)
    (hword : ∀ w, test (.word w)) (hus : EndsWith test us) : EndsWith test (ls ++ us) := by
  cases h with
  | none => exact hus
  | one ha _ => exact endsWith_cons.2 (ha ▸ hword _)
  | two ha _ _ => exact endsWith_cons.2 (ha ▸ hword _)

/-- An element does not start with the closing parenthesis. -/
theorem endsWith_element (h : Derives n .element ts t) (rest : List Token) :
    EndsWith (· ≠ .mark ')') (ts ++ rest) := by
  cases h with
  | element hls hts _ =>
      rw [List.append_assoc]
      exact endsWith_label hls (by simp) (hts.endsWith_type rest (by simp) (by simp) (by simp)
        (by simp))
  | inout hls hm _ =>
      rw [List.append_assoc]
      exact endsWith_label hls (by simp) (endsWith_cons.2 (by simp [hm]))

theorem endsWith_elements {xs : List TypeRef} (h : Derives n (.list .element) ts xs)
    (rest : List Token) : EndsWith (· ≠ .mark ')') (ts ++ rest) := by
  cases h with
  | last hts => exact hts.endsWith_element rest
  | more hts _ _ =>
      rw [List.append_assoc]
      exact hts.endsWith_element _

/-- What follows the words of a dotted name. -/
theorem endsWith_path {ps rest : List Token} {parts : List String} {test : TokenKind → Prop}
    (h : WordsBehind '.' ps parts) (hdot : test (.mark '.')) (hrest : EndsWith test rest) :
    EndsWith test (ps ++ rest) := by
  cases h with
  | nil => exact hrest
  | cons hm _ _ => exact endsWith_cons.2 (hm ▸ hdot)

/-- No label is found at the front of a core. -/
theorem noLabel_of_core : ∀ {n : Nat} {ts : List Token} {t : TypeRef}, Derives n .core ts t →
    ∀ {rest : List Token}, EndsWith FollowsElement rest → NoLabel (ts ++ rest) := by
  intro n
  have hdot : FollowsElement (.mark '.') := by simp [FollowsElement]
  induction n with
  | zero => intro ts t h; cases h
  | succ n ih =>
      intro ts t h rest hrest
      cases h with
      | sequence ho => exact noLabel_of_mark ho
      | mapping ho => exact noLabel_of_mark ho
      | action ho => exact noLabel_of_mark ho
      | function ho => exact noLabel_of_mark ho
      | unit ho => exact noLabel_of_mark ho
      | group ho => exact noLabel_of_mark ho
      | existential ha hts =>
          -- the second token opens the constraint, so that the third one is no colon either
          exact noLabel_cons (ih hts hrest)
            (hts.endsWith_core rest (by simp) (by simp) (by simp))
      | name _ _ _ hps => exact noLabel_of_follows (endsWith_path hps hdot hrest)
      | application _ _ _ hps ho =>
          rw [List.append_assoc, List.append_assoc, List.cons_append]
          refine noLabel_of_follows (endsWith_path hps hdot ?_)
          exact endsWith_cons.2 (by simp [ho, FollowsElement])

/-- **No label is found at the front of a type** that is an element of a list in parentheses. -/
theorem noLabel (h : Derives n .type ts t) {rest : List Token} (hrest : EndsWith FollowsElement rest) :
    NoLabel (ts ++ rest) := by
  cases h with
  | type has hcore _ hms =>
      cases has with
      | nil =>
          rw [List.nil_append, List.append_assoc]
          exact hcore.noLabel_of_core (endsWith_marks hms (by simp [FollowsElement])
            (by simp [FollowsElement]) hrest)
      | cons hm _ _ => exact noLabel_of_mark hm

end Derives

/-! ### The parts around a core -/

namespace Cursor

/-- Attributes are taken, up to what is none. -/
theorem exists_attributesFrom_of_wordsBehind {as : List Token} {attributes : List String}
    (h : WordsBehind '@' as attributes) (prev : Option Token) {rest : List Token}
    (hrest : EndsWith (· ≠ .mark '@') rest) :
    ∃ last, attributesFrom prev (as ++ rest) = .ok (attributes, ⟨last, rest⟩) := by
  induction h generalizing prev with
  | nil => exact ⟨prev, attributesFrom_of_ends hrest⟩
  | @cons m t ts w ws hm ht _ ih =>
      obtain ⟨last, hread⟩ := ih (some t)
      refine ⟨last, ?_⟩
      simp [attributesFrom, Token.isMark_of_mark hm, Token.word?_of_word ht, hread]

/-- A dotted name is taken, up to what is no further part of it. -/
theorem exists_pathFrom_of_wordsBehind {ps : List Token} {parts : List String}
    (h : WordsBehind '.' ps parts) (name : String) (prev : Option Token) {rest : List Token}
    (hrest : EndsWith (· ≠ .mark '.') rest) :
    ∃ last, pathFrom name prev (ps ++ rest) = (dotted name parts, ⟨last, rest⟩) := by
  induction h generalizing name prev with
  | nil => exact ⟨prev, pathFrom_of_ends hrest⟩
  | @cons m t ts w ws hm ht _ ih =>
      obtain ⟨last, hread⟩ := ih (name ++ "." ++ w) (some t)
      refine ⟨last, ?_⟩
      simp only [List.cons_append, pathFrom, Token.isMark_of_mark hm, Token.word?_of_word ht]
      exact hread

/-- All marks are taken. -/
theorem exists_optionalsFrom_of_marks {ms : List Token} (hms : AreOptionalMarks ms) (t : TypeRef)
    (prev : Option Token) {rest : List Token} (hrest : EndsWith FollowsOptional rest) :
    ∃ last, optionalsFrom t prev (ms ++ rest) =
      (TypeRef.optional^[ms.length] t, ⟨last, rest⟩) := by
  induction ms generalizing t prev with
  | nil => exact ⟨prev, optionalsFrom_of_ends t hrest⟩
  | cons m ms ih =>
      obtain ⟨last, hread⟩ := ih (fun m' hm' => hms m' (List.mem_cons_of_mem _ hm')) (.optional t)
        (some m)
      refine ⟨last, ?_⟩
      have hm : (m.isMark '?' || m.isMark '!') = true := by
        rw [Bool.or_eq_true, Token.isMark_iff, Token.isMark_iff]
        exact hms m List.mem_cons_self
      rw [List.cons_append, optionalsFrom, if_pos hm, hread]
      rfl

theorem attributed_of_isFunction {attributes : List String} {line : Nat} {t : TypeRef}
    (h : attributes ≠ [] → t.isFunction = true) :
    attributed attributes line t = .ok (t.withAttributes attributes) := by
  cases attributes with
  | nil => rfl
  | cons a as =>
      cases t with
      | function => rfl
      | _ => cases h (by simp)

/-- A label is passed over. -/
theorem exists_skipLabel_of_isLabel {ls : List Token} (h : IsLabel ls) (prev : Option Token)
    {rest : List Token} (hrest : NoLabel rest) :
    ∃ last, (⟨prev, ls ++ rest⟩ : Cursor).skipLabel = ⟨last, rest⟩ := by
  cases h with
  | none => exact ⟨prev, skipLabel_of_noLabel hrest⟩
  | @one a m w ha hm =>
      refine ⟨some m, ?_⟩
      simp [skipLabel, Token.word?_of_word ha, Token.isMark_of_mark hm]
  | @two a b m v w ha hb hm =>
      refine ⟨some m, ?_⟩
      have hcolon : b.isMark ':' = false := Token.isMark_eq_false (by simp [hb])
      simp [skipLabel, Token.word?_of_word ha, Token.word?_of_word hb, hcolon,
        Token.isMark_of_mark hm]

end Cursor

/-! ### Effects -/

/-- The end of a group is found where the parentheses inside it match. -/
theorem Group.split_of_count (inner : Nat) {inside : List Token} (rest : List Token) {closing : Token}
    (hclosing : closing.kind = .mark ')')
    (hcount : (inside.map Token.kind).count (.mark ')') =
      inner + (inside.map Token.kind).count (.mark '('))
    (hfirst : ∀ us, us <+: inside.map Token.kind →
      us.count (.mark ')') ≤ inner + us.count (.mark '(')) :
    Group.split ⟨.round, inner⟩ (inside ++ closing :: rest) = some (inside, closing, rest) := by
  induction inside generalizing inner with
  | nil =>
      obtain rfl : inner = 0 := by simpa using hcount.symm
      have hstep : Group.step ⟨.round, 0⟩ closing = none := by
        simp [Group.step, Bracket.opener, Bracket.closer, Token.isMark, hclosing]
      simp [Group.split, hstep]
  | cons t inside ih =>
      have hafter : ∀ us, us <+: inside.map Token.kind →
          (t.kind :: us).count (.mark ')') ≤ inner + (t.kind :: us).count (.mark '(') := by
        intro us hus
        refine hfirst (t.kind :: us) ?_
        rw [List.map_cons]
        exact List.cons_prefix_cons.2 ⟨rfl, hus⟩
      by_cases hopen : t.kind = .mark '('
      · have hstep : Group.step ⟨.round, inner⟩ t = some ⟨.round, inner + 1⟩ := by
          simp [Group.step, Bracket.opener, Token.isMark_iff.2 hopen]
        simp only [hopen, List.map_cons, List.count_cons_self, List.count_cons_of_ne, ne_eq,
          TokenKind.mark.injEq, Char.reduceEq, not_false_eq_true] at hcount hafter
        have hrest := ih (inner + 1) (by omega) fun us hus => by
          have := hafter us hus
          omega
        simp [Group.split, hstep, hrest]
      by_cases hclosed : t.kind = .mark ')'
      · simp only [hclosed, List.map_cons, List.count_cons_self, List.count_cons_of_ne, ne_eq,
          TokenKind.mark.injEq, Char.reduceEq, not_false_eq_true] at hcount hafter
        obtain ⟨inner, rfl⟩ : ∃ i, inner = i + 1 := by
          have := hafter [] List.nil_prefix
          simp only [List.count_nil] at this
          exact ⟨inner - 1, by omega⟩
        have hstep : Group.step ⟨.round, inner + 1⟩ t = some ⟨.round, inner⟩ := by
          simp [Group.step, Bracket.opener, Bracket.closer, Token.isMark, hclosed]
        have hrest := ih inner (by omega) fun us hus => by
          have := hafter us hus
          omega
        simp [Group.split, hstep, hrest]
      · have hstep : Group.step ⟨.round, inner⟩ t = some ⟨.round, inner⟩ := by
          simp [Group.step, Bracket.opener, Bracket.closer, Token.isMark_iff, hopen, hclosed]
        simp only [List.map_cons, List.count_cons_of_ne hopen, List.count_cons_of_ne hclosed]
          at hcount hafter
        simp [Group.split, hstep, ih inner hcount hafter]

theorem Cursor.skipGluedParens_of_isBalanced {t opening closing : Token} {inside rest : List Token}
    (hopening : opening.kind = .mark '(') (hglued : opening.start = t.stop)
    (hinside : IsBalanced (inside.map Token.kind)) (hclosing : closing.kind = .mark ')') :
    (⟨some t, opening :: inside ++ closing :: rest⟩ : Cursor).skipGluedParens =
      ⟨some closing, rest⟩ := by
  have hopened : Group.opened? [.curly, .round, .square, .angle] opening =
      some { bracket := .round } := by
    simp [Group.opened?, Bracket.opener, Token.isMark, hopening]
  have hsplit := Group.split_of_count 0 rest hclosing
    (by simpa using hinside.1) (fun us hus => by simpa using hinside.2 us hus)
  simp [skipGluedParens, next?, Token.isMark_of_mark hopening, hglued, skipGroup, hopened, hsplit]

theorem EffectWords.endsWith {es rest : List Token} {e : Effects} (h : EffectWords es e)
    (hrest : EndsWith (· ≠ .mark '(') rest) : EndsWith (· ≠ .mark '(') (es ++ rest) := by
  cases h with
  | nil => exact hrest
  | async ht _ => exact endsWith_cons.2 (by simp [ht])
  | throws ht _ => exact endsWith_cons.2 (by simp [ht])
  | throwsGroup ht => exact endsWith_cons.2 (by simp [ht])

/-- **Effects are read**, one word after the other. -/
theorem EffectWords.exists_effectsFrom {es rest : List Token} {e : Effects} (h : EffectWords es e)
    (hrest : EndsWith FollowsEffects rest) {fuel : Nat} (hfuel : es.length < fuel) (before : Effects)
    (prev : Option Token) :
    ∃ last, Cursor.effectsFrom fuel before ⟨prev, es ++ rest⟩ =
      .ok (⟨before.isAsync || e.isAsync, before.isThrowing || e.isThrowing⟩, ⟨last, rest⟩) := by
  induction h generalizing fuel before prev with
  | nil => exact ⟨prev, by simpa using Cursor.effectsFrom_of_ends fuel before hrest⟩
  | @async t ts e ht _ ih =>
      obtain ⟨fuel, rfl⟩ : ∃ i, fuel = i + 1 := ⟨fuel - 1, by omega⟩
      obtain ⟨last, hread⟩ := ih (by simpa using hfuel) { before with isAsync := true } (some t)
      refine ⟨last, ?_⟩
      rw [List.cons_append, Cursor.effectsFrom_async _ _ ht, hread]
      simp
  | @throws t ts e ht hts ih =>
      obtain ⟨fuel, rfl⟩ : ∃ i, fuel = i + 1 := ⟨fuel - 1, by omega⟩
      obtain ⟨last, hread⟩ := ih (by simpa using hfuel) { before with isThrowing := true } (some t)
      refine ⟨last, ?_⟩
      rw [List.cons_append, Cursor.effectsFrom_throws _ _ ht
        (hts.endsWith (hrest.mono fun k hk => hk.2.2.2)), hread]
      simp
  | @throwsGroup t opening closing inside ts e ht hopening hglued hinside hclosing _ ih =>
      obtain ⟨fuel, rfl⟩ : ∃ i, fuel = i + 1 := ⟨fuel - 1, by omega⟩
      have hless : ts.length < fuel := by
        simp only [List.length_cons, List.length_append] at hfuel
        omega
      obtain ⟨last, hread⟩ := ih hless { before with isThrowing := true } (some closing)
      have hasync : (⟨prev, t :: (opening :: inside ++ closing :: (ts ++ rest))⟩ : Cursor).keyword?
          "async" = none := Cursor.keyword?_eq_none (endsWith_cons.2 (by simp [ht]))
      refine ⟨last, ?_⟩
      simp only [List.cons_append, List.append_assoc] at hasync ⊢
      rw [Cursor.effectsFrom, hasync, Cursor.keyword?_of_word ht]
      simp only
      rw [← List.cons_append,
        Cursor.skipGluedParens_of_isBalanced hopening hglued hinside hclosing, hread]
      simp

theorem EffectWords.exists_effects {es rest : List Token} {e : Effects} (h : EffectWords es e)
    (hrest : EndsWith FollowsEffects rest) (prev : Option Token) :
    ∃ last, Cursor.effects ⟨prev, es ++ rest⟩ = .ok (e, ⟨last, rest⟩) := by
  have hfuel : es.length < (es ++ rest).length + 1 := by
    rw [List.length_append]
    omega
  obtain ⟨last, hread⟩ := h.exists_effectsFrom hrest hfuel {} prev
  refine ⟨last, ?_⟩
  rw [Cursor.effects, hread]
  simp

/-! ### Lists in brackets -/

/-- The tokens of an item of a list in brackets are taken by its reader. -/
def IsItem {α : Type} (read : Cursor → Except Failure (α × Cursor)) (close : Char)
    (ts : List Token) : Prop :=
  ∀ prev rest, EndsWith (FollowsItem close) rest →
    ∃ x last, read ⟨prev, ts ++ rest⟩ = .ok (x, ⟨last, rest⟩)

/-- The tokens of a list in brackets are taken, with the closing bracket. -/
def IsItems {α : Type} (read : Cursor → Except Failure (α × Cursor)) (close : Char)
    (ts : List Token) : Prop :=
  ∀ prev closing rest fuel index, closing.kind = .mark close → ts.length < fuel →
    ∃ xs, Cursor.separated id (fun _ => read) close fuel index ⟨prev, ts ++ closing :: rest⟩ =
      .ok (xs, ⟨some closing, rest⟩)

section Lists

variable {α : Type} {read : Cursor → Except Failure (α × Cursor)} {close : Char}
  {ts us : List Token}

theorem IsItem.last (h : IsItem read close ts) (hclose : close ≠ ',') : IsItems read close ts := by
  intro prev closing rest fuel index hclosing hfuel
  obtain ⟨fuel, rfl⟩ : ∃ i, fuel = i + 1 := ⟨fuel - 1, by omega⟩
  obtain ⟨x, last, hread⟩ := h prev (closing :: rest) (endsWith_cons.2 (.inr hclosing))
  have hcomma : (⟨last, closing :: rest⟩ : Cursor).mark? ',' = none :=
    Cursor.mark?_eq_none (endsWith_cons.2 (by simpa [hclosing] using hclose))
  refine ⟨[x], ?_⟩
  simp only [Cursor.separated, hread, hcomma, Cursor.expectMark_of_mark hclosing]

theorem IsItem.more (h : IsItem read close ts) {m : Token} (hm : m.kind = .mark ',')
    (hus : IsItems read close us) : IsItems read close (ts ++ m :: us) := by
  intro prev closing rest fuel index hclosing hfuel
  obtain ⟨fuel, rfl⟩ : ∃ i, fuel = i + 1 := ⟨fuel - 1, by omega⟩
  obtain ⟨x, last, hread⟩ := h prev (m :: (us ++ closing :: rest)) (endsWith_cons.2 (.inl hm))
  have hless : us.length < fuel := by
    simp only [List.length_append, List.length_cons] at hfuel
    omega
  obtain ⟨xs, hothers⟩ := hus (some m) closing rest fuel (index + 1) hclosing hless
  refine ⟨x :: xs, ?_⟩
  rw [List.append_assoc, List.cons_append]
  simp only [Cursor.separated, hread, Cursor.mark?_of_mark hm, hothers]

end Lists

/-! ### Reading phrases -/

/-- How the tokens of a phrase are read, with room for the cores inside it.  Behind a core any number of
marks may follow, of which a core that ends with a type takes the first ones; a core that
stands for a function is read as a function. -/
def Phrase.IsRead (n : Nat) : (part : Phrase) → List Token → part.Meaning → Prop
  | .core, ts, t => ∀ prev ms rest, AreOptionalMarks ms → EndsWith BehindType rest →
      ∃ t' last left, left <:+ ms ∧ (t.isFunction = true → t'.isFunction = true) ∧
        Cursor.typeCore n ⟨prev, ts ++ (ms ++ rest)⟩ = .ok (t', ⟨last, left ++ rest⟩)
  | .type, ts, t => ∀ prev ms rest, AreOptionalMarks ms → EndsWith BehindType rest →
      ∃ t' last, (ms = [] → t.isFunction = true → t'.isFunction = true) ∧
        Cursor.type n ⟨prev, ts ++ (ms ++ rest)⟩ = .ok (t', ⟨last, rest⟩)
  | .element, ts, t => ∀ prev rest, EndsWith (FollowsItem ')') rest →
      ∃ t' last, (t.isFunction = true → t'.isFunction = true) ∧
        Cursor.elementWith (Cursor.type n) ⟨prev, ts ++ rest⟩ = .ok (t', ⟨last, rest⟩)
  | .list .type, ts, _ => IsItems (Cursor.type n) '>' ts
  | .list .element, ts, _ => IsItems (Cursor.elementWith (Cursor.type n)) ')' ts
  | .list _, _, _ => True

namespace Phrase

variable {n : Nat} {ts : List Token} {t : TypeRef}

/-- A type is read before what may follow it. -/
theorem IsRead.exists_type (h : IsRead n .type ts t) (prev : Option Token) (rest : List Token)
    (hrest : EndsWith BehindType rest) :
    ∃ t' last, (t.isFunction = true → t'.isFunction = true) ∧
      Cursor.type n ⟨prev, ts ++ rest⟩ = .ok (t', ⟨last, rest⟩) := by
  obtain ⟨t', last, hfunction, hread⟩ := h prev [] rest areOptionalMarks_nil hrest
  exact ⟨t', last, hfunction rfl, hread⟩

theorem IsRead.isItem_type (h : IsRead n .type ts t) : IsItem (Cursor.type n) '>' ts := by
  intro prev rest hrest
  obtain ⟨t', last, -, hread⟩ := h.exists_type prev _
    (hrest.mono fun k hk => behindType_of_followsItem (by decide) hk)
  exact ⟨t', last, hread⟩

theorem IsRead.isItem_element (h : IsRead n .element ts t) :
    IsItem (Cursor.elementWith (Cursor.type n)) ')' ts := by
  intro prev rest hrest
  obtain ⟨t', last, -, hread⟩ := h prev rest hrest
  exact ⟨t', last, hread⟩

theorem isFunction_iterate_optional {k : Nat} (h : (TypeRef.optional^[k] t).isFunction = true) :
    k = 0 := by
  cases k with
  | zero => rfl
  | succ k =>
      rw [Function.iterate_succ_apply'] at h
      cases h

theorem isFunction_withAttributes (attributes : List String) :
    (t.withAttributes attributes).isFunction = t.isFunction := by
  cases attributes <;> cases t <;> rfl

theorem isRead_type {as ms : List Token} {attributes : List String}
    (has : WordsBehind '@' as attributes) (hcore : Derives n .core ts t) (ih : IsRead n .core ts t)
    (hfunction : attributes ≠ [] → t.isFunction = true) (hms : AreOptionalMarks ms) :
    IsRead n .type (as ++ ts ++ ms)
      (TypeRef.optional^[ms.length] (t.withAttributes attributes)) := by
  intro prev ns rest hns hrest
  have hmarks := hms.append hns
  obtain ⟨last, hattributes⟩ := Cursor.exists_attributesFrom_of_wordsBehind has prev
    (hcore.endsWith_core ((ms ++ ns) ++ rest) (by simp) (by simp) (by simp))
  obtain ⟨t', last', left, hleft, hkept, hread⟩ := ih last (ms ++ ns) rest hmarks hrest
  have hplaced : Cursor.attributed attributes
      (⟨prev, as ++ (ts ++ ((ms ++ ns) ++ rest))⟩ : Cursor).line t' =
        .ok (t'.withAttributes attributes) :=
    Cursor.attributed_of_isFunction fun hne => hkept (hfunction hne)
  obtain ⟨last'', hoptional⟩ := Cursor.exists_optionalsFrom_of_marks (hmarks.of_suffix hleft)
    (t'.withAttributes attributes) last' (hrest.mono fun k hk => hk.followsOptional)
  refine ⟨TypeRef.optional^[left.length] (t'.withAttributes attributes), last'', ?_, ?_⟩
  · -- a function has no marks of its own, so none is left behind its core
    rintro rfl hmarked
    obtain rfl : ms = [] := List.length_eq_zero_iff.1 (isFunction_iterate_optional hmarked)
    obtain rfl : left = [] := List.suffix_nil.1 hleft
    exact (isFunction_withAttributes attributes).trans
      (hkept ((isFunction_withAttributes attributes).symm.trans hmarked))
  · simp only [List.append_assoc] at hattributes hread hplaced ⊢
    simp only [Cursor.type, Cursor.typeWith, hattributes, hread, hplaced, hoptional, bind,
      Except.bind, pure, Except.pure]

/-! ### Collections and names -/

theorem isRead_sequence {o c : Token} (ho : o.kind = .mark '[') (ih : IsRead n .type ts t)
    (hc : c.kind = .mark ']') : IsRead (n + 1) .core (o :: ts ++ [c]) (.sequence t) := by
  intro prev ms rest hms hrest
  obtain ⟨t', last, -, hread⟩ := ih.exists_type (some o) (c :: (ms ++ rest))
    (endsWith_cons.2 (hc ▸ behindType_mark (by decide)))
  have hcolon : (⟨last, c :: (ms ++ rest)⟩ : Cursor).mark? ':' = none :=
    Cursor.mark?_eq_none (endsWith_cons.2 (by simp [hc]))
  refine ⟨.sequence t', some c, ms, List.suffix_rfl, by simp [TypeRef.isFunction], ?_⟩
  rw [List.cons_append, List.cons_append, List.append_assoc, List.singleton_append,
    TypeRef.typeCore_of_bracket ho]
  simp only [Cursor.collectionWith, Cursor.advance, hread, hcolon, Cursor.expectMark_of_mark hc,
    bind, Except.bind, pure, Except.pure]

theorem isRead_mapping {o m c : Token} {ks vs : List Token} {k v : TypeRef} (ho : o.kind = .mark '[')
    (ihk : IsRead n .type ks k) (hm : m.kind = .mark ':') (ihv : IsRead n .type vs v)
    (hc : c.kind = .mark ']') :
    IsRead (n + 1) .core (o :: ks ++ m :: vs ++ [c]) (.mapping k v) := by
  intro prev ms rest hms hrest
  obtain ⟨k', last, -, hkey⟩ := ihk.exists_type (some o) (m :: (vs ++ c :: (ms ++ rest)))
    (endsWith_cons.2 (hm ▸ behindType_mark (by decide)))
  obtain ⟨v', last', -, hvalue⟩ := ihv.exists_type (some m) (c :: (ms ++ rest))
    (endsWith_cons.2 (hc ▸ behindType_mark (by decide)))
  refine ⟨.mapping k' v', some c, ms, List.suffix_rfl, by simp [TypeRef.isFunction], ?_⟩
  simp only [List.cons_append, List.append_assoc, List.nil_append]
  rw [TypeRef.typeCore_of_bracket ho]
  simp only [Cursor.collectionWith, Cursor.advance, hkey, Cursor.mark?_of_mark hm, hvalue,
    Cursor.expectMark_of_mark hc, bind, Except.bind, pure, Except.pure]

theorem isRead_existential {a : Token} (ha : a.kind = .word "any") (ih : IsRead n .core ts t) :
    IsRead (n + 1) .core (a :: ts) (.existential t) := by
  intro prev ms rest hms hrest
  obtain ⟨t', last, left, hleft, -, hread⟩ := ih (some a) ms rest hms hrest
  refine ⟨.existential t', last, left, hleft, by simp [TypeRef.isFunction], ?_⟩
  simp only [List.cons_append, Cursor.typeCore, Cursor.coreWith, Cursor.found, Cursor.next?,
    List.head?_cons, Option.map_some, ha, if_true, Cursor.advance, hread, bind, Except.bind, pure,
    Except.pure]

section Names

variable {f : Token} {ps : List Token} {first : String} {parts : List String}
  (hf : f.kind = .word first) (hany : first ≠ "any") (hsome : first ≠ "some")
  (hps : WordsBehind '.' ps parts)
include hf hany hsome hps

theorem isRead_name : IsRead (n + 1) .core (f :: ps) (.ofApplication (dotted first parts) []) := by
  intro prev ms rest hms hrest
  have hbehind := endsWith_behindCore hms hrest
  obtain ⟨last, hpath⟩ := Cursor.exists_pathFrom_of_wordsBehind hps first (some f)
    (hbehind.mono fun k hk => hk.ne_mark (by decide))
  have hangle : (⟨last, ms ++ rest⟩ : Cursor).mark? '<' = none :=
    Cursor.mark?_eq_none (hbehind.mono fun k hk => hk.ne_mark (by decide))
  refine ⟨_, last, ms, List.suffix_rfl, id, ?_⟩
  rw [List.cons_append, TypeRef.typeCore_of_word hf hany hsome]
  simp only [Cursor.namedWith, Cursor.expectName_of_word hf, hpath, hangle, applied_eq_ofApplication,
    bind, Except.bind, pure, Except.pure]

omit hf hany hsome hps in
/-- No name with arguments stands for a function. -/
theorem isFunction_ofApplication (name : String) (args : List TypeRef) :
    (TypeRef.ofApplication name args).isFunction = false := by
  simp only [TypeRef.ofApplication]
  split <;> (try split_ifs) <;> rfl

theorem isRead_application {o c : Token} {args : List TypeRef} (ho : o.kind = .mark '<')
    (ih : IsRead n (.list .type) ts args) (hc : c.kind = .mark '>') :
    IsRead (n + 1) .core (f :: ps ++ o :: ts ++ [c]) (.ofApplication (dotted first parts) args) := by
  intro prev ms rest hms hrest
  have hangle : EndsWith (· ≠ .mark '.') (o :: (ts ++ c :: (ms ++ rest))) :=
    endsWith_cons.2 (by simp [ho])
  obtain ⟨last, hpath⟩ := Cursor.exists_pathFrom_of_wordsBehind hps first (some f) hangle
  obtain ⟨xs, hread⟩ := ih (some o) c (ms ++ rest) ((ts ++ c :: (ms ++ rest)).length + 1) 0 hc
    (by simp only [List.length_append, List.length_cons]; omega)
  refine ⟨.ofApplication (dotted first parts) xs, some c, ms, List.suffix_rfl,
    by simp [isFunction_ofApplication], ?_⟩
  simp only [List.cons_append, List.append_assoc, List.nil_append]
  rw [TypeRef.typeCore_of_word hf hany hsome]
  simp only [Cursor.namedWith, Cursor.expectName_of_word hf, hpath, Cursor.mark?_of_mark ho, hread,
    applied_eq_ofApplication, bind, Except.bind, pure, Except.pure]

end Names

/-! ### Parentheses -/

/-- An element is read behind its label and the word `inout`. -/
theorem isRead_inout {m : Token} {ls : List Token} (hls : IsLabel ls) (hm : m.kind = .word "inout")
    (hts : Derives n .type ts t) (ih : IsRead n .type ts t) :
    IsRead n .element (ls ++ m :: ts) t := by
  intro prev rest hrest
  have hlabel : NoLabel (m :: (ts ++ rest)) := by
    refine noLabel_cons (hts.noLabel (hrest.mono fun k hk => followsElement_of_followsItem hk)) ?_
    exact hts.endsWith_type rest (by simp) (by simp) (by simp) (by simp)
  obtain ⟨last, hskip⟩ := Cursor.exists_skipLabel_of_isLabel hls prev hlabel
  obtain ⟨t', last', hfunction, hread⟩ := ih.exists_type (some m) _
    (hrest.mono fun k hk => behindType_of_followsItem (by decide) hk)
  refine ⟨t', last', hfunction, ?_⟩
  rw [List.append_assoc, List.cons_append]
  simp only [Cursor.elementWith, hskip, Cursor.keyword?_of_word hm, Option.getD_some, hread]

theorem isRead_element {ls : List Token} (hls : IsLabel ls) (hts : Derives n .type ts t)
    (hinout : ∀ u ∈ ts.head?, u.kind ≠ .word "inout") (ih : IsRead n .type ts t) :
    IsRead n .element (ls ++ ts) t := by
  intro prev rest hrest
  obtain ⟨last, hskip⟩ := Cursor.exists_skipLabel_of_isLabel hls prev
    (hts.noLabel (hrest.mono fun k hk => followsElement_of_followsItem hk))
  obtain ⟨t', last', hfunction, hread⟩ := ih.exists_type last _
    (hrest.mono fun k hk => behindType_of_followsItem (by decide) hk)
  have hplain : (⟨last, ts ++ rest⟩ : Cursor).keyword? "inout" = none := by
    refine Cursor.keyword?_eq_none ?_
    intro u hu
    rw [List.head?_append_of_ne_nil _ hts.ne_nil_of_type] at hu
    exact hinout u hu
  refine ⟨t', last', hfunction, ?_⟩
  rw [List.append_assoc]
  simp only [Cursor.elementWith, hskip, hplain, Option.getD_none, hread]

/-- The elements of a list in parentheses are read, with the closing one. -/
theorem exists_elementsWith {xs : List TypeRef} (hts : Derives n (.list .element) ts xs)
    (ih : IsRead n (.list .element) ts xs) {c : Token} (hc : c.kind = .mark ')')
    (prev : Option Token) (rest : List Token) :
    ∃ ys, Cursor.elementsWith (Cursor.type n) ⟨prev, ts ++ c :: rest⟩ = .ok (ys, ⟨some c, rest⟩) := by
  obtain ⟨ys, hread⟩ := ih prev c rest ((ts ++ c :: rest).length + 1) 0 hc
    (by simp only [List.length_append, List.length_cons]; omega)
  refine ⟨ys, ?_⟩
  rw [Cursor.elementsWith, Cursor.mark?_eq_none (hts.endsWith_elements _)]
  exact hread

/-- Nothing stands between parentheses. -/
theorem elementsWith_of_mark {c : Token} (hc : c.kind = .mark ')') (prev : Option Token)
    (rest : List Token) :
    Cursor.elementsWith (Cursor.type n) ⟨prev, c :: rest⟩ = .ok ([], ⟨some c, rest⟩) := by
  rw [Cursor.elementsWith, Cursor.mark?_of_mark hc]

/-- A function is read, given how its parameters are. -/
theorem isRead_function (ps : List Token) {o c a : Token} {es rs : List Token}
    {params : List TypeRef} {e : Effects} {r : TypeRef} (ho : o.kind = .mark '(')
    (hparams : ∀ prev rest, ∃ ys, Cursor.elementsWith (Cursor.type n) ⟨prev, ps ++ c :: rest⟩ =
      .ok (ys, ⟨some c, rest⟩))
    (hes : EffectWords es e) (ha : a.kind = .arrow) (ih : IsRead n .type rs r) :
    IsRead (n + 1) .core (o :: ps ++ c :: es ++ a :: rs) (.function [] params e r) := by
  intro prev ms rest hms hrest
  obtain ⟨ys, helements⟩ := hparams (some o) (es ++ a :: (rs ++ (ms ++ rest)))
  have harrow : EndsWith FollowsEffects (a :: (rs ++ (ms ++ rest))) :=
    endsWith_cons.2 (by simp [ha, FollowsEffects])
  obtain ⟨last, heffects⟩ := hes.exists_effects harrow (some c)
  obtain ⟨r', last', -, hread⟩ := ih (some a) ms rest hms hrest
  refine ⟨.function [] ys e r', last', [], List.nil_suffix, fun _ => rfl, ?_⟩
  simp only [List.cons_append, List.append_assoc, List.nil_append]
  rw [TypeRef.typeCore_of_parens ho]
  simp only [Cursor.parenthesizedWith, Cursor.advance, helements, heffects, hread,
    Cursor.atArrow_of_arrow ha, if_true, bind, Except.bind, pure, Except.pure]

/-- What elements in parentheses stand for, if there are no more than one. -/
def single? : List TypeRef → Option TypeRef
  | [] => some .void
  | [t] => some t
  | _ => none

/-- Parentheses that no arrow follows are read as what they hold. -/
theorem typeCore_of_elements (ps : List Token) {o c : Token} {behind : List Token} {xs : List TypeRef}
    (ho : o.kind = .mark '(') (hbehind : EndsWith BehindCore behind)
    (helements : Cursor.elementsWith (Cursor.type n) ⟨some o, ps ++ c :: behind⟩ =
      .ok (xs, ⟨some c, behind⟩))
    (hsingle : single? xs = some t) (prev : Option Token) :
    Cursor.typeCore (n + 1) ⟨prev, o :: (ps ++ c :: behind)⟩ = .ok (t, ⟨some c, behind⟩) := by
  have heffects : Cursor.effects ⟨some c, behind⟩ = .ok ({}, ⟨some c, behind⟩) :=
    Cursor.effectsFrom_of_ends _ _ (hbehind.mono fun k hk => hk.followsEffects)
  have harrow : (⟨some c, behind⟩ : Cursor).atArrow = false :=
    Cursor.atArrow_eq_false (hbehind.mono fun k hk => hk.ne_arrow)
  rw [TypeRef.typeCore_of_parens ho]
  simp only [Cursor.parenthesizedWith, Cursor.advance, helements, heffects, harrow, bind,
    Except.bind, pure, Except.pure, Bool.or_self, Bool.false_eq_true, if_false]
  rcases xs with _ | ⟨x, _ | ⟨y, ys⟩⟩
  · cases hsingle
    rfl
  · cases hsingle
    rfl
  · cases hsingle

theorem isRead_unit {o c : Token} (ho : o.kind = .mark '(') (hc : c.kind = .mark ')') :
    IsRead (n + 1) .core [o, c] (.primitive "Void") := by
  intro prev ms rest hms hrest
  refine ⟨.void, some c, ms, List.suffix_rfl, id, ?_⟩
  exact typeCore_of_elements [] ho (endsWith_behindCore hms hrest)
    (elementsWith_of_mark hc (some o) (ms ++ rest)) rfl prev

theorem isRead_group {o c : Token} (ho : o.kind = .mark '(') (hts : Derives n .element ts t)
    (ih : IsRead n .element ts t) (hc : c.kind = .mark ')') :
    IsRead (n + 1) .core (o :: ts ++ [c]) t := by
  intro prev ms rest hms hrest
  obtain ⟨t', last, hfunction, hread⟩ := ih (some o) (c :: (ms ++ rest))
    (endsWith_cons.2 (.inr hc))
  have hcomma : (⟨last, c :: (ms ++ rest)⟩ : Cursor).mark? ',' = none :=
    Cursor.mark?_eq_none (endsWith_cons.2 (by simp [hc]))
  have helements : Cursor.elementsWith (Cursor.type n) ⟨some o, ts ++ c :: (ms ++ rest)⟩ =
      .ok ([t'], ⟨some c, ms ++ rest⟩) := by
    rw [Cursor.elementsWith, Cursor.mark?_eq_none (hts.endsWith_element _)]
    simp only [Cursor.separated, hread, hcomma, Cursor.expectMark_of_mark hc]
  refine ⟨t', some c, ms, List.suffix_rfl, hfunction, ?_⟩
  rw [List.cons_append, List.cons_append, List.append_assoc, List.singleton_append]
  exact typeCore_of_elements ts ho (endsWith_behindCore hms hrest) helements rfl prev

end Phrase

/-- **Whatever is derived is read.** -/
theorem Derives.isRead {n : Nat} {part : Phrase} {ts : List Token} {x : part.Meaning}
    (h : Derives n part ts x) : part.IsRead n ts x := by
  induction h with
  | type has hcore hfunction hms ih => exact Phrase.isRead_type has hcore ih hfunction hms
  | sequence ho _ hc ih => exact Phrase.isRead_sequence ho ih hc
  | mapping ho _ hm _ hc ihk ihv => exact Phrase.isRead_mapping ho ihk hm ihv hc
  | action ho hc hes ha _ ih =>
      refine Phrase.isRead_function [] ho ?_ hes ha ih
      exact fun prev rest => ⟨[], Phrase.elementsWith_of_mark hc prev rest⟩
  | function ho hps hc hes ha _ ihps ih =>
      refine Phrase.isRead_function _ ho ?_ hes ha ih
      exact fun prev rest => Phrase.exists_elementsWith hps ihps hc prev rest
  | unit ho hc => exact Phrase.isRead_unit ho hc
  | group ho hts hc ih => exact Phrase.isRead_group ho hts ih hc
  | existential ha _ ih => exact Phrase.isRead_existential ha ih
  | name hf hany hsome hps => exact Phrase.isRead_name hf hany hsome hps
  | application hf hany hsome hps ho _ hc ih =>
      exact Phrase.isRead_application hf hany hsome hps ho ih hc
  | element hls hts hinout ih => exact Phrase.isRead_element hls hts hinout ih
  | inout hls hm hts ih => exact Phrase.isRead_inout hls hm hts ih
  | @last n item ts x _ ih =>
      cases item with
      | type => exact (Phrase.IsRead.isItem_type ih).last (by decide)
      | element => exact (Phrase.IsRead.isItem_element ih).last (by decide)
      | core => trivial
      | list item => trivial
  | @more n item m ts us x xs _ hm _ ih ihs =>
      cases item with
      | type => exact (Phrase.IsRead.isItem_type ih).more hm ihs
      | element => exact (Phrase.IsRead.isItem_element ih).more hm ihs
      | core => trivial
      | list item => trivial

/-! ### The type parser -/

/-- **The type parser accepts exactly the grammar.**  A text is accepted if and only if its tokens are
derived as a type with at most `maxNesting` nested cores, and what it yields is what they stand for in
such a derivation. -/
theorem TypeRef.parse_iff_derives (text : String) :
    ((∃ t, TypeRef.parse text = .ok t) ↔
      ∃ tokens t, tokenize text = .ok tokens ∧ Derives maxNesting .type tokens t) ∧
    ∀ t, TypeRef.parse text = .ok t →
      ∃ tokens, tokenize text = .ok tokens ∧ Derives maxNesting .type tokens t := by
  have hsound : ∀ t, TypeRef.parse text = .ok t →
      ∃ tokens, tokenize text = .ok tokens ∧ Derives maxNesting .type tokens t := by
    intro t h
    simp only [TypeRef.parse] at h
    split at h
    · cases h
    · next tokens htokens =>
        split at h
        · cases h
        · next t' c hread =>
            split at h
            · next hend =>
                cases h
                obtain ⟨ts, hts, hrest⟩ := Cursor.isSound_type maxNesting hread
                rw [List.isEmpty_iff.1 hend, List.append_nil] at hrest
                obtain rfl : tokens = ts := hrest
                exact ⟨tokens, htokens, hts⟩
            · cases h
  refine ⟨⟨?_, ?_⟩, hsound⟩
  · rintro ⟨t, h⟩
    obtain ⟨tokens, htokens, hts⟩ := hsound t h
    exact ⟨tokens, t, htokens, hts⟩
  · rintro ⟨tokens, t, htokens, hts⟩
    obtain ⟨t', last, -, hread⟩ := hts.isRead.exists_type none [] (endsWith_nil _)
    refine ⟨t', ?_⟩
    rw [List.append_nil] at hread
    simp [TypeRef.parse, htokens, Cursor.start, hread]

end Scaffold
