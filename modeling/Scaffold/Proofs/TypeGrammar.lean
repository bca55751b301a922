/-
**The grammar of types.**

The grammar of written types as a relation between tokens and the type reference they stand for.  It
says what may be written and not how it is read: marks may follow any core, so that the marks behind
the result of a function belong to the result or to the function, and the relation holds of both.
Every type that is read is derived in the grammar.

Main definitions:

* `Scaffold.Phrase` — the parts of the grammar;
* `Scaffold.WordsBehind`, `Scaffold.IsLabel`, `Scaffold.EffectWords` — attributes and dotted names,
  labels, effects;
* `Scaffold.Derives` — the grammar: tokens stand for a meaning, with a bound on the nesting of cores.

Main results:

* `Scaffold.Cursor.isSound_typeCore`, `Scaffold.Cursor.isSound_type` — **whatever is read is derived**.
-/

import Mathlib.Logic.Function.Iterate
import Scaffold.Proofs.TypeExpressions

set_option relaxedAutoImplicit false
set_option autoImplicit false

namespace Scaffold

/-! ### The grammar -/

/-- The parts of the grammar of types. -/
inductive Phrase where
  /-- A type with its attributes and marks. -/
  | type
  /-- A core. -/
  | core
  /-- A type in parentheses, with its label. -/
  | element
  /-- One or more of a part, with commas between them. -/
  | list (item : Phrase)

/-- What a part of the grammar stands for. -/
@[reducible] def Phrase.Meaning : Phrase → Type
  | .type => TypeRef
  | .core => TypeRef
  | .element => TypeRef
  | .list item => List item.Meaning

/-- Any number of words, each behind a given mark. -/
inductive WordsBehind (c : Char) : List Token → List String → Prop
  /-- No words. -/
  | nil : WordsBehind c [] []
  /-- One more word. -/
  | cons {m t : Token} {ts : List Token} {w : String} {ws : List String} :
      m.kind = .mark c → t.kind = .word w → WordsBehind c ts ws →
      WordsBehind c (m :: t :: ts) (w :: ws)

/-- At most two words with a colon behind them. -/
inductive IsLabel : List Token → Prop
  /-- No label. -/
  | none : IsLabel []
  /-- A label of one word. -/
  | one {a m : Token} {w : String} : a.kind = .word w → m.kind = .mark ':' → IsLabel [a, m]
  /-- A label of two words. -/
  | two {a b m : Token} {v w : String} :
      a.kind = .word v → b.kind = .word w → m.kind = .mark ':' → IsLabel [a, b, m]

/-- Effects in any order and number; parentheses that touch the word `throws` go with it. -/
inductive EffectWords : List Token → Effects → Prop
  /-- No effects. -/
  | nil : EffectWords [] {}
  /-- The word `async`. -/
  | async {t : Token} {ts : List Token} {e : Effects} :
      t.kind = .word "async" → EffectWords ts e → EffectWords (t :: ts) { e with isAsync := true }
  /-- The word `throws`. -/
  | throws {t : Token} {ts : List Token} {e : Effects} :
      t.kind = .word "throws" → EffectWords ts e → EffectWords (t :: ts) { e with isThrowing := true }
  /-- The word `throws` with balanced parentheses. -/
  | throwsGroup {t opening closing : Token} {inside ts : List Token} {e : Effects} :
      t.kind = .word "throws" → opening.kind = .mark '(' → opening.start = t.stop →
      IsBalanced (inside.map Token.kind) → closing.kind = .mark ')' → EffectWords ts e →
      EffectWords (t :: opening :: inside ++ closing :: ts) { e with isThrowing := true }

/-- A question or an exclamation mark. -/
def Token.IsOptionalMark (t : Token) : Prop := t.kind = .mark '?' ∨ t.kind = .mark '!'

/-- The type that a name with generic arguments stands for: collections and optional types have names
of their own, and the primitive types have theirs. -/
def TypeRef.ofApplication (name : String) (args : List TypeRef) : TypeRef :=
  match name, args with
  | "Optional", [t] => .optional t
  | "Array", [t] => .sequence t
  | "Dictionary", [k, v] => .mapping k v
  | name, [] => if name ∈ primitiveNames then .primitive name else .named name []
  | name, args => .named name args

/-- **The grammar of types**: tokens are a phrase with a given meaning, in which at most `n` cores are
nested. -/
inductive Derives : (n : Nat) → (part : Phrase) → List Token → part.Meaning → Prop
  /-- A core with attributes before it, if it is a function, and marks behind it. -/
  | type {n : Nat} {as ts ms : List Token} {attributes : List String} {t : TypeRef} :
      WordsBehind '@' as attributes → Derives n .core ts t →
      (attributes ≠ [] → t.isFunction = true) → (∀ m ∈ ms, m.IsOptionalMark) →
      Derives n .type (as ++ ts ++ ms) (TypeRef.optional^[ms.length] (t.withAttributes attributes))
  /-- The core `[T]`. -/
  | sequence {n : Nat} {o c : Token} {ts : List Token} {t : TypeRef} :
      o.kind = .mark '[' → Derives n .type ts t → c.kind = .mark ']' →
      Derives (n + 1) .core (o :: ts ++ [c]) (TypeRef.sequence t)
  /-- The core `[K: V]`. -/
  | mapping {n : Nat} {o m c : Token} {ks vs : List Token} {k v : TypeRef} :
      o.kind = .mark '[' → Derives n .type ks k → m.kind = .mark ':' → Derives n .type vs v →
      c.kind = .mark ']' →
      Derives (n + 1) .core (o :: ks ++ m :: vs ++ [c]) (TypeRef.mapping k v)
  /-- A function without parameters. -/
  | action {n : Nat} {o c a : Token} {es rs : List Token} {e : Effects} {r : TypeRef} :
      o.kind = .mark '(' → c.kind = .mark ')' → EffectWords es e → a.kind = .arrow →
      Derives n .type rs r →
      Derives (n + 1) .core (o :: c :: es ++ a :: rs) (TypeRef.function [] [] e r)
  /-- A function with parameters. -/
  | function {n : Nat} {o c a : Token} {ps es rs : List Token} {params : List TypeRef}
      {e : Effects} {r : TypeRef} :
      o.kind = .mark '(' → Derives n (.list .element) ps params → c.kind = .mark ')' →
      EffectWords es e → a.kind = .arrow → Derives n .type rs r →
      Derives (n + 1) .core (o :: ps ++ c :: es ++ a :: rs) (TypeRef.function [] params e r)
  /-- The core `()`. -/
  | unit {n : Nat} {o c : Token} :
      o.kind = .mark '(' → c.kind = .mark ')' → Derives (n + 1) .core [o, c] (TypeRef.primitive "Void")
  /-- A type in parentheses. -/
  | group {n : Nat} {o c : Token} {ts : List Token} {t : TypeRef} :
      o.kind = .mark '(' → Derives n .element ts t → c.kind = .mark ')' →
      Derives (n + 1) .core (o :: ts ++ [c]) t
  /-- The word `any` before a core. -/
  | existential {n : Nat} {a : Token} {ts : List Token} {t : TypeRef} :
      a.kind = .word "any" → Derives n .core ts t →
      Derives (n + 1) .core (a :: ts) (TypeRef.existential t)
  /-- A dotted name. -/
  | name {n : Nat} {f : Token} {ps : List Token} {first : String} {parts : List String} :
      f.kind = .word first → first ≠ "any" → first ≠ "some" → WordsBehind '.' ps parts →
      Derives (n + 1) .core (f :: ps) (TypeRef.ofApplication (dotted first parts) [])
  /-- A dotted name with generic arguments. -/
  | application {n : Nat} {f o c : Token} {ps ts : List Token} {first : String}
      {parts : List String} {args : List TypeRef} :
      f.kind = .word first → first ≠ "any" → first ≠ "some" → WordsBehind '.' ps parts →
      o.kind = .mark '<' → Derives n (.list .type) ts args → c.kind = .mark '>' →
      Derives (n + 1) .core (f :: ps ++ o :: ts ++ [c])
        (TypeRef.ofApplication (dotted first parts) args)
  /-- A type in parentheses that does not start with the word `inout`, as that is never its name. -/
  | element {n : Nat} {ls ts : List Token} {t : TypeRef} :
      IsLabel ls → Derives n .type ts t → (∀ u ∈ ts.head?, u.kind ≠ .word "inout") →
      Derives n .element (ls ++ ts) t
  /-- A type in parentheses with the word `inout` before it. -/
  | inout {n : Nat} {m : Token} {ls ts : List Token} {t : TypeRef} :
      IsLabel ls → m.kind = .word "inout" → Derives n .type ts t →
      Derives n .element (ls ++ m :: ts) t
  /-- One phrase of a list. -/
  | last {n : Nat} {item : Phrase} {ts : List Token} {x : item.Meaning} :
      Derives n item ts x → Derives n (.list item) ts [x]
  /-- A phrase before others of a list. -/
  | more {n : Nat} {item : Phrase} {m : Token} {ts us : List Token} {x : item.Meaning}
      {xs : List item.Meaning} :
      Derives n item ts x → m.kind = .mark ',' → Derives n (.list item) us xs →
      Derives n (.list item) (ts ++ m :: us) (x :: xs)

/-- The rules for names with arguments, told by the name, are those told by the arguments. -/
theorem applied_eq_ofApplication (name : String) (args : List TypeRef) :
    Cursor.applied name args = TypeRef.ofApplication name args := by
  match args with
  | [] =>
      simp only [Cursor.applied, TypeRef.ofApplication, TypeRef.ofName, List.contains_iff_mem]
  | [t] =>
      simp only [Cursor.applied]
      split_ifs with hoptional harray
      · subst hoptional
        rfl
      · subst harray
        rfl
      · simp [TypeRef.ofApplication, hoptional, harray]
  | [k, v] =>
      simp only [Cursor.applied]
      split_ifs with hdictionary
      · subst hdictionary
        rfl
      · simp [TypeRef.ofApplication, hdictionary]
  | a :: b :: c :: ts => simp [Cursor.applied, TypeRef.ofApplication]

/-! ### Tokens that are taken -/

namespace Cursor

variable {c c' : Cursor}

/-- A token is taken from the front. -/
def Passes (c : Cursor) (t : Token) (c' : Cursor) : Prop :=
  c.rest = t :: c'.rest ∧ c'.prev = some t

theorem passes_advance {t : Token} (h : c.next? = some t) : c.Passes t c.advance := by
  obtain ⟨prev, rest⟩ := c
  obtain ⟨ts, rfl⟩ := List.head?_eq_some_iff.1 h
  exact ⟨rfl, rfl⟩

theorem exists_passes_of_found {k : TokenKind} (h : c.found = some k) :
    ∃ t, t.kind = k ∧ c.Passes t c.advance := by
  obtain ⟨t, ht, hkind⟩ := Option.map_eq_some_iff.1 h
  exact ⟨t, hkind, passes_advance ht⟩

theorem exists_passes_of_mark? {m : Char} (h : c.mark? m = some c') :
    ∃ t, t.kind = .mark m ∧ c.Passes t c' := by
  simp only [mark?, Option.ite_none_right_eq_some, Option.some.injEq] at h
  obtain ⟨t, ht, hmark⟩ := (Option.any_eq_true _ _).1 h.1
  exact ⟨t, Token.isMark_iff.1 hmark, h.2 ▸ passes_advance ht⟩

theorem exists_passes_of_keyword? {w : String} (h : c.keyword? w = some c') :
    ∃ t, t.kind = .word w ∧ c.Passes t c' := by
  simp only [keyword?, Option.ite_none_right_eq_some, Option.some.injEq] at h
  obtain ⟨t, ht, hword⟩ := (Option.any_eq_true _ _).1 h.1
  exact ⟨t, Token.isWord_iff.1 hword, h.2 ▸ passes_advance ht⟩

theorem exists_passes_of_atArrow (h : c.atArrow = true) :
    ∃ t, t.kind = .arrow ∧ c.Passes t c.advance := by
  obtain ⟨t, ht, harrow⟩ := (Option.any_eq_true _ _).1 h
  exact ⟨t, Token.isArrow_iff.1 harrow, passes_advance ht⟩

theorem exists_passes_of_expectMark {m : Char} (h : c.expectMark m = .ok c') :
    ∃ t, t.kind = .mark m ∧ c.Passes t c' := by
  simp only [expectMark] at h
  split at h
  · next hm =>
      cases h
      exact exists_passes_of_mark? hm
  · cases h

theorem exists_passes_of_expectName {role w : String} (h : c.expectName role = .ok (w, c')) :
    ∃ t, t.kind = .word w ∧ c.Passes t c' := by
  simp only [expectName] at h
  split at h
  · next hw =>
      cases h
      obtain ⟨t, ht, hword⟩ := Option.bind_eq_some_iff.1 hw
      exact ⟨t, Token.word?_eq_some_iff.1 hword, passes_advance ht⟩
  · cases h

/-! ### Attributes, marks, names and labels -/

theorem exists_wordsBehind_of_attributesFrom {prev : Option Token} {ts : List Token}
    {attributes : List String} (h : attributesFrom prev ts = .ok (attributes, c')) :
    ∃ as, WordsBehind '@' as attributes ∧ ts = as ++ c'.rest := by
  fun_induction attributesFrom prev ts generalizing attributes c' with
  | case1 prev t u ts ht w hw ws c hread ih =>
      cases h
      obtain ⟨as, has, rfl⟩ := ih hread
      exact ⟨t :: u :: as, .cons (Token.isMark_iff.1 ht) (Token.word?_eq_some_iff.1 hw) has, rfl⟩
  | case2 => cases h
  | case3 => cases h
  | case4 =>
      cases h
      exact ⟨[], .nil, rfl⟩
  | case5 => cases h
  | case6 =>
      cases h
      exact ⟨[], .nil, rfl⟩
  | case7 =>
      cases h
      exact ⟨[], .nil, rfl⟩

theorem exists_optionalMarks_of_optionalsFrom (type : TypeRef) (prev : Option Token)
    (ts : List Token) :
    ∃ ms, (∀ m ∈ ms, m.IsOptionalMark) ∧ ts = ms ++ (optionalsFrom type prev ts).2.rest ∧
      (optionalsFrom type prev ts).1 = TypeRef.optional^[ms.length] type := by
  fun_induction optionalsFrom type prev ts with
  | case1 type prev t ts ht ih =>
      obtain ⟨ms, hms, hts, htype⟩ := ih
      rw [Bool.or_eq_true, Token.isMark_iff, Token.isMark_iff] at ht
      refine ⟨t :: ms, ?_, by rw [List.cons_append, ← hts], htype⟩
      intro m hm
      rcases List.mem_cons.1 hm with rfl | hm
      · exact ht
      · exact hms m hm
  | case2 => exact ⟨[], by simp, rfl, rfl⟩
  | case3 => exact ⟨[], by simp, rfl, rfl⟩

theorem exists_wordsBehind_of_pathFrom (name : String) (prev : Option Token) (ts : List Token) :
    ∃ ps parts, WordsBehind '.' ps parts ∧ ts = ps ++ (pathFrom name prev ts).2.rest ∧
      (pathFrom name prev ts).1 = dotted name parts := by
  fun_induction pathFrom name prev ts with
  | case1 name prev t u ts w hw hdot ih =>
      obtain ⟨ps, parts, hps, hts, hname⟩ := ih
      refine ⟨t :: u :: ps, w :: parts, ?_, ?_, hname⟩
      · exact .cons (Token.isMark_iff.1 hdot) (Token.word?_eq_some_iff.1 hw) hps
      · rw [List.cons_append, List.cons_append, ← hts]
  | case2 => exact ⟨[], [], .nil, rfl, rfl⟩
  | case3 => exact ⟨[], [], .nil, rfl, rfl⟩

theorem exists_isLabel_of_skipLabel (c : Cursor) :
    ∃ ls, IsLabel ls ∧ c.rest = ls ++ c.skipLabel.rest := by
  simp only [skipLabel]
  split
  · next a b rest hrest =>
      split
      · next w hw hmark =>
          exact ⟨[a, b], .one (Token.word?_eq_some_iff.1 hw) (Token.isMark_iff.1 hmark), hrest⟩
      · next w v d rest hw _ hv =>
          split
          · next hmark =>
              exact ⟨[a, b, d], .two (Token.word?_eq_some_iff.1 hw) (Token.word?_eq_some_iff.1 hv)
                (Token.isMark_iff.1 hmark), hrest⟩
          · exact ⟨[], .none, rfl⟩
      · exact ⟨[], .none, rfl⟩
  · exact ⟨[], .none, rfl⟩

/-! ### Effects -/

/-- Parentheses are passed over if they touch the token before them. -/
theorem skipGluedParens_eq_or {t : Token} (hprev : c.prev = some t) :
    c.skipGluedParens = c ∨ c.skipGluedParens.rest = [] ∨
      ∃ opening inside closing, opening.kind = .mark '(' ∧ opening.start = t.stop ∧
        IsBalanced (inside.map Token.kind) ∧ closing.kind = .mark ')' ∧
        c.rest = opening :: inside ++ closing :: c.skipGluedParens.rest := by
  simp only [skipGluedParens]
  split
  · next prev u hprev' hnext =>
      cases hprev.symm.trans hprev'
      split
      · next hglued =>
          simp only [Bool.and_eq_true, beq_iff_eq] at hglued
          obtain ⟨ts, hrest⟩ := List.head?_eq_some_iff.1 hnext
          have hkind := Token.isMark_iff.1 hglued.1
          have hopened : Group.opened? [.curly, .round, .square, .angle] u =
              some { bracket := .round } := by
            simp [Group.opened?, Bracket.opener, Token.isMark, hkind]
          simp only [skipGroup, hrest, hopened]
          split
          · next inside closing after hsplit =>
              refine .inr (.inr ⟨u, inside, closing, hkind, hglued.2, isBalanced_of_split hsplit,
                (Group.count_of_split hsplit).1, ?_⟩)
              rw [List.cons_append, Group.split_append hsplit]
          · exact .inr (.inl rfl)
      · exact .inl rfl
  · exact .inl rfl

/-- Effects that are read are effect words, unless parentheses that are never closed reach to the end
of the region. -/
theorem exists_effectWords_of_effectsFrom {fuel : Nat} {e e' : Effects}
    (h : effectsFrom fuel e c = .ok (e', c')) (hrest : c'.rest ≠ []) :
    ∃ es more, EffectWords es more ∧ c.rest = es ++ c'.rest ∧
      e' = ⟨e.isAsync || more.isAsync, e.isThrowing || more.isThrowing⟩ := by
  induction fuel generalizing c e with
  | zero =>
      cases h
      exact ⟨[], _, .nil, rfl, by simp⟩
  | succ fuel ih =>
      simp only [effectsFrom] at h
      split at h
      · next c₁ hasync =>
          obtain ⟨t, ht, hpass⟩ := exists_passes_of_keyword? hasync
          obtain ⟨es, more, hes, hsplit, rfl⟩ := ih h
          refine ⟨t :: es, _, .async ht hes, ?_, by simp⟩
          rw [hpass.1, hsplit, List.cons_append]
      split at h
      · next c₁ hthrows =>
          obtain ⟨t, ht, hpass⟩ := exists_passes_of_keyword? hthrows
          obtain ⟨es, more, hes, hsplit, rfl⟩ := ih h
          rcases skipGluedParens_eq_or hpass.2 with hsame | hend |
            ⟨opening, inside, closing, hopening, hglued, hinside, hclosing, hparens⟩
          · refine ⟨t :: es, _, .throws ht hes, ?_, by simp⟩
            rw [hpass.1, List.cons_append, ← hsplit, hsame]
          · exact absurd (rest_of_effectsFrom_nil hend h) hrest
          · refine ⟨t :: opening :: inside ++ closing :: es, _,
              .throwsGroup ht hopening hglued hinside hclosing hes, ?_, by simp⟩
            rw [hpass.1, hparens, hsplit]
            simp
      split at h
      · cases h
      · cases h
        exact ⟨[], _, .nil, rfl, by simp⟩

/-! ### Reading -/

/-- What a reader yields is derived from the tokens that it has taken. -/
def IsSound (n : Nat) (part : Phrase) (read : Cursor → Except Failure (part.Meaning × Cursor)) :
    Prop :=
  ∀ ⦃c : Cursor⦄ ⦃x : part.Meaning⦄ ⦃c' : Cursor⦄, read c = .ok (x, c') →
    ∃ ts, Derives n part ts x ∧ c.rest = ts ++ c'.rest

theorem exists_derives_of_separated {n : Nat} (part : Phrase)
    {item : Cursor → Except Failure (part.Meaning × Cursor)} {close : Char} {fuel index : Nat}
    {xs : List part.Meaning} (hitem : IsSound n part item)
    (h : separated id (fun _ => item) close fuel index c = .ok (xs, c')) :
    ∃ ts k, Derives n (.list part) ts xs ∧ k.kind = .mark close ∧ c.rest = ts ++ k :: c'.rest := by
  induction fuel generalizing index c xs with
  | zero => cases h
  | succ fuel ih =>
      simp only [separated] at h
      split at h
      · cases h
      · next x c₁ hfirst =>
          obtain ⟨ts, hts, hrest⟩ := hitem hfirst
          split at h
          · next c₂ hcomma =>
              obtain ⟨m, hm, hpass⟩ := exists_passes_of_mark? hcomma
              split at h
              · cases h
              · next ys c₃ hothers =>
                  cases h
                  obtain ⟨us, k, hus, hk, hsplit⟩ := ih hothers
                  refine ⟨ts ++ m :: us, k, .more hts hm hus, hk, ?_⟩
                  rw [hrest, hpass.1, hsplit]
                  simp
          · split at h
            · cases h
            · next c₂ hclose =>
                cases h
                obtain ⟨k, hk, hpass⟩ := exists_passes_of_expectMark hclose
                exact ⟨ts, k, .last hts, hk, by rw [hrest, hpass.1]⟩

variable {n : Nat} {read : Cursor → Except Failure (TypeRef × Cursor)}

theorem isSound_typeWith (hcore : IsSound n .core read) : IsSound n .type (typeWith read) := by
  intro c t c' h
  obtain ⟨⟨attributes, c₁⟩, hattributes, h⟩ := exists_of_bind_eq_ok h
  obtain ⟨⟨core, c₂⟩, hread, h⟩ := exists_of_bind_eq_ok h
  obtain ⟨type, htype, h⟩ := exists_of_bind_eq_ok h
  obtain ⟨as, has, hfront⟩ := exists_wordsBehind_of_attributesFrom hattributes
  obtain ⟨ts, hts, hrest⟩ := hcore hread
  obtain ⟨rfl, hfunction⟩ := attributed_eq_ok htype
  obtain ⟨ms, hms, hbehind, hmarked⟩ :=
    exists_optionalMarks_of_optionalsFrom (core.withAttributes attributes) c₂.prev c₂.rest
  have hresult : optionalsFrom (core.withAttributes attributes) c₂.prev c₂.rest = (t, c') :=
    Except.ok.inj h
  rw [hresult] at hbehind hmarked
  obtain rfl : t = _ := hmarked
  refine ⟨as ++ ts ++ ms, .type has hts hfunction hms, ?_⟩
  rw [hfront, hrest, hbehind]
  simp

theorem exists_derives_of_collectionWith (htype : IsSound n .type read) {c c' : Cursor} {t : TypeRef}
    (hopen : c.found = some (.mark '[')) (h : collectionWith read c = .ok (t, c')) :
    ∃ ts, Derives (n + 1) .core ts t ∧ c.rest = ts ++ c'.rest := by
  obtain ⟨o, ho, hfront⟩ := exists_passes_of_found hopen
  obtain ⟨⟨first, c₁⟩, hfirst, h⟩ := exists_of_bind_eq_ok h
  obtain ⟨ks, hks, hrest⟩ := htype hfirst
  simp only at h
  split at h
  · next c₂ hcolon =>
      obtain ⟨m, hm, hbetween⟩ := exists_passes_of_mark? hcolon
      obtain ⟨⟨value, c₃⟩, hvalue, h⟩ := exists_of_bind_eq_ok h
      obtain ⟨c₄, hclose, h⟩ := exists_of_bind_eq_ok h
      cases h
      obtain ⟨vs, hvs, hrest'⟩ := htype hvalue
      obtain ⟨k, hk, hend⟩ := exists_passes_of_expectMark hclose
      refine ⟨_, .mapping ho hks hm hvs hk, ?_⟩
      rw [hfront.1, hrest, hbetween.1, hrest', hend.1]
      simp
  · obtain ⟨c₂, hclose, h⟩ := exists_of_bind_eq_ok h
    cases h
    obtain ⟨k, hk, hend⟩ := exists_passes_of_expectMark hclose
    refine ⟨_, .sequence ho hks hk, ?_⟩
    rw [hfront.1, hrest, hend.1]
    simp

theorem exists_derives_of_namedWith (htype : IsSound n .type read) {c c' : Cursor} {t : TypeRef}
    (hany : c.found ≠ some (.word "any")) (hsome : c.found ≠ some (.word "some"))
    (h : namedWith read c = .ok (t, c')) :
    ∃ ts, Derives (n + 1) .core ts t ∧ c.rest = ts ++ c'.rest := by
  obtain ⟨⟨first, c₁⟩, hfirst, h⟩ := exists_of_bind_eq_ok h
  obtain ⟨f, hf, hfront⟩ := exists_passes_of_expectName hfirst
  have hfound : c.found = some (.word first) := by
    simp [found, next?, hfront.1, hf]
  have hne : first ≠ "any" ∧ first ≠ "some" := by
    rw [hfound] at hany hsome
    exact ⟨fun heq => hany (by rw [heq]), fun heq => hsome (by rw [heq])⟩
  obtain ⟨ps, parts, hps, hpath, hname⟩ := exists_wordsBehind_of_pathFrom first c₁.prev c₁.rest
  simp only [hname] at h
  split at h
  · next c₂ hangle =>
      obtain ⟨o, ho, hopen⟩ := exists_passes_of_mark? hangle
      obtain ⟨⟨args, c₃⟩, hargs, h⟩ := exists_of_bind_eq_ok h
      cases h
      obtain ⟨ts, k, hts, hk, hrest⟩ := exists_derives_of_separated .type htype hargs
      rw [applied_eq_ofApplication]
      refine ⟨_, .application hf hne.1 hne.2 hps ho hts hk, ?_⟩
      rw [hfront.1, hpath, hopen.1, hrest]
      simp
  · cases h
    rw [applied_eq_ofApplication]
    refine ⟨_, .name hf hne.1 hne.2 hps, ?_⟩
    rw [hfront.1, List.cons_append, ← hpath]

theorem isSound_elementWith (htype : IsSound n .type read) :
    IsSound n .element (elementWith read) := by
  intro c t c' h
  obtain ⟨ls, hls, hlabel⟩ := exists_isLabel_of_skipLabel c
  simp only [elementWith] at h
  cases hinout : c.skipLabel.keyword? "inout" with
  | some c₁ =>
      obtain ⟨m, hm, hmarker⟩ := exists_passes_of_keyword? hinout
      rw [hinout] at h
      obtain ⟨ts, hts, hrest⟩ := htype h
      rw [Option.getD_some] at hrest
      refine ⟨_, .inout hls hm hts, ?_⟩
      rw [hlabel, hmarker.1, hrest]
      simp
  | none =>
      rw [hinout] at h
      obtain ⟨ts, hts, hrest⟩ := htype h
      rw [Option.getD_none] at hrest
      refine ⟨_, .element hls hts ?_, ?_⟩
      · intro u hu hword
        have hnone := head?_kinds_of_keyword?_eq_none hinout
        obtain ⟨us, rfl⟩ := List.head?_eq_some_iff.1 hu
        simp [kinds, hrest, hword] at hnone
      · rw [hlabel, hrest, List.append_assoc]

/-- What is read in parentheses is empty, or one or more elements. -/
theorem exists_derives_of_elementsWith (htype : IsSound n .type read) {c c' : Cursor}
    {xs : List TypeRef} (h : elementsWith read c = .ok (xs, c')) :
    ∃ ts k, ((ts = [] ∧ xs = []) ∨ Derives n (.list .element) ts xs) ∧ k.kind = .mark ')' ∧
      c.rest = ts ++ k :: c'.rest := by
  simp only [elementsWith] at h
  split at h
  · next hclose =>
      cases h
      obtain ⟨k, hk, hend⟩ := exists_passes_of_mark? hclose
      exact ⟨[], k, .inl ⟨rfl, rfl⟩, hk, hend.1⟩
  · obtain ⟨ts, k, hts, hk, hrest⟩ :=
      exists_derives_of_separated .element (isSound_elementWith htype) h
    exact ⟨ts, k, .inr hts, hk, hrest⟩

theorem exists_derives_of_parenthesizedWith (htype : IsSound n .type read) {c c' : Cursor} {t : TypeRef}
    (hopen : c.found = some (.mark '(')) (h : parenthesizedWith read c = .ok (t, c')) :
    ∃ ts, Derives (n + 1) .core ts t ∧ c.rest = ts ++ c'.rest := by
  obtain ⟨o, ho, hfront⟩ := exists_passes_of_found hopen
  obtain ⟨⟨elements, c₁⟩, helements, hbehind⟩ := exists_of_bind_eq_ok h
  obtain ⟨⟨effects, c₂⟩, heffects, hresult⟩ := exists_of_bind_eq_ok hbehind
  obtain ⟨ps, k, hps, hk, hrest⟩ := exists_derives_of_elementsWith htype helements
  clear h hbehind
  simp only at hresult
  split at hresult
  · next harrow =>
      obtain ⟨a, ha, hpass⟩ := exists_passes_of_atArrow harrow
      obtain ⟨⟨result, c₃⟩, hread, heq⟩ := exists_of_bind_eq_ok hresult
      cases heq
      obtain ⟨rs, hrs, hrest'⟩ := htype hread
      obtain ⟨es, more, hes, hwords, rfl⟩ :=
        exists_effectWords_of_effectsFrom heffects (by rw [hpass.1]; simp)
      rcases hps with ⟨rfl, rfl⟩ | hps
      · refine ⟨_, .action ho hk (by simpa using hes) ha hrs, ?_⟩
        rw [hfront.1, hrest, hwords, hpass.1, hrest']
        simp
      · refine ⟨_, .function ho hps hk (by simpa using hes) ha hrs, ?_⟩
        rw [hfront.1, hrest, hwords, hpass.1, hrest']
        simp
  split at hresult
  · cases hresult
  next hnone =>
    simp only [Bool.or_eq_true, not_or, Bool.not_eq_true] at hnone
    obtain rfl := eq_of_effects_eq_ok heffects hnone.1 hnone.2
    rcases hps with ⟨rfl, rfl⟩ | hps
    · cases hresult
      exact ⟨[o, k], .unit ho hk, by rw [hfront.1, hrest]; rfl⟩
    · cases hps with
      | last hts =>
          cases hresult
          refine ⟨_, .group ho hts hk, ?_⟩
          rw [hfront.1, hrest]
          simp
      | more hts hm hus =>
          -- two elements or more are a tuple
          cases hus <;> cases hresult

/-- A core that is read is derived, if the cores inside it are. -/
theorem isSound_coreWith (hcore : IsSound n .core read) :
    IsSound (n + 1) .core (coreWith read) := by
  have htype := isSound_typeWith hcore
  intro c t c' h
  simp only [coreWith] at h
  split at h
  · next hfound => exact exists_derives_of_collectionWith htype hfound h
  · next hfound => exact exists_derives_of_parenthesizedWith htype hfound h
  · next w hfound =>
      split at h
      · next hany =>
          subst hany
          obtain ⟨a, ha, hfront⟩ := exists_passes_of_found hfound
          obtain ⟨⟨constraint, c₁⟩, hconstraint, h⟩ := exists_of_bind_eq_ok h
          cases h
          obtain ⟨ts, hts, hrest⟩ := hcore hconstraint
          exact ⟨a :: ts, .existential ha hts, by rw [hfront.1, hrest, List.cons_append]⟩
      split at h
      · cases h
      next hany hsome =>
        exact exists_derives_of_namedWith htype (by simpa [hfound] using hany)
          (by simpa [hfound] using hsome) h
  · cases h

/-- **A core that is read is derived.** -/
theorem isSound_typeCore (room : Nat) : IsSound room .core (typeCore room) := by
  induction room with
  | zero =>
      intro c t c' h
      cases h
  | succ room ih => exact isSound_coreWith ih

/-- **A type that is read is derived.** -/
theorem isSound_type (room : Nat) : IsSound room .type (Cursor.type room) :=
  isSound_typeWith (isSound_typeCore room)

end Cursor

end Scaffold
