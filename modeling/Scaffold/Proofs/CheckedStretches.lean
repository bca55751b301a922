/-
**Stretches of tokens by positions.**

Tokens can be read by moving a position between the start and the end of a region.  Every token is
then an access to the list of all tokens, and so is every part of the list in which the end of a
group or the text of a stretch is looked for.  Here the ends of groups and of stretches are found in
this way, with every access that can fail written out, and so is the source text between two
positions.

Main definitions:

* `Scaffold.Checked.Input` — the tokens of a text, with its characters;
* `Scaffold.Checked.Input.closing?`, `Scaffold.Checked.Input.stretchEnd` — where a group or a
  stretch ends;
* `Scaffold.Checked.Input.sourceText` — the source text between two positions.

Main results:

* `Scaffold.scan_group`, `Scaffold.scan_open` — a stretch passes over whole groups;
* `Scaffold.Checked.Input.closing?_eq`, `Scaffold.Checked.Input.stretchEnd_eq` — groups and
  stretches end at the same places;
* `Scaffold.Checked.Input.sourceText_eq` — stretches have the same source text.
-/

import Scaffold.Proofs.CheckedAccess
import Scaffold.Proofs.Displacement
import Scaffold.Proofs.TypeExpressions

set_option relaxedAutoImplicit false
set_option autoImplicit false

namespace Scaffold

/-! ### Stretches and their groups -/

/-- A stretch passes over a whole group. -/
theorem scan_group {S : Type} {stop : S → Token → List Token → Bool} {note : S → Token → S}
    {kinds : List Bracket} (s : S) {g : Group} {ts inside after : List Token} {close : Token}
    (h : g.split ts = some (inside, close, after)) :
    scan stop note kinds s (some g) ts =
      (inside ++ close :: (scan stop note kinds (note s close) none after).1,
        (scan stop note kinds (note s close) none after).2) := by
  induction ts generalizing g inside with
  | nil => cases h
  | cons t ts ih =>
      simp only [Group.split] at h
      simp only [scan]
      cases hstep : g.step t with
      | none =>
          simp only [hstep] at h
          cases h
          rfl
      | some g' =>
          simp only [hstep] at h
          obtain ⟨⟨i, k, a⟩, hs, hp⟩ := Option.map_eq_some_iff.1 h
          cases hp
          simp only [ih hs, List.cons_append]

/-- A group that is not closed reaches to the end of the region. -/
theorem scan_open {S : Type} {stop : S → Token → List Token → Bool} {note : S → Token → S}
    {kinds : List Bracket} (s : S) {g : Group} {ts : List Token} (h : g.split ts = none) :
    scan stop note kinds s (some g) ts = (ts, []) := by
  induction ts generalizing g with
  | nil => rfl
  | cons t ts ih =>
      simp only [Group.split] at h
      simp only [scan]
      cases hstep : g.step t with
      | none =>
          simp only [hstep] at h
          cases h
      | some g' =>
          simp only [hstep, Option.map_eq_none_iff] at h
          simp only [ih h]

namespace Checked

/-! ### Groups and stretches by positions -/

/-- The tokens of a text, with its characters. -/
structure Input where
  /-- The characters. -/
  source : List Char
  /-- The tokens. -/
  tokens : List Token

/-- The index of the bracket that closes a group, of which `depth` levels are open, if there is one
among the tokens from `index` on. -/
def closingFrom (b : Bracket) : (depth index : Nat) → List Token → Option (Option Nat)
  | _, _, [] => some none
  | depth, index, t :: ts =>
    if t.isMark b.opener then closingFrom b (depth + 1) (index + 1) ts
    else if t.isMark b.closer then do
      let depth ← minus? depth 1
      if depth = 0 then some (some index) else closingFrom b depth (index + 1) ts
    else closingFrom b depth (index + 1) ts

theorem closingFrom_eq (b : Bracket) (inner index : Nat) (ts : List Token) :
    closingFrom b (inner + 1) index ts =
      some ((Group.split ⟨b, inner⟩ ts).map fun parts => index + parts.1.length) := by
  induction ts generalizing inner index with
  | nil => rfl
  | cons t ts ih =>
      rw [closingFrom, Group.split, Group.step]
      by_cases hopen : t.isMark b.opener = true
      · rw [if_pos hopen, if_pos hopen, ih]
        simp [Function.comp_def, Nat.add_assoc, Nat.add_comm 1]
      · rw [if_neg hopen, if_neg hopen]
        by_cases hclose : t.isMark b.closer = true
        · rw [if_pos hclose, if_pos hclose, minus?_add]
          cases inner with
          | zero => rfl
          | succ inner =>
              simp only [Option.bind_eq_bind, Option.bind_some, Nat.succ_ne_zero, if_false, ih]
              simp [Function.comp_def, Nat.add_assoc, Nat.add_comm 1]
        · rw [if_neg hclose, if_neg hclose, ih]
          simp [Function.comp_def, Nat.add_assoc, Nat.add_comm 1]

section Regions

variable {tokens before ts : List Token} {t : Token} {stop : Nat}

theorem getElem?_of_take (h : tokens.take stop = before ++ t :: ts) :
    tokens[before.length]? = some t ∧ before.length < stop := by
  have hget : (tokens.take stop)[before.length]? = some t := by simp [h]
  rw [List.getElem?_take] at hget
  split at hget
  · next hlt => exact ⟨hget, hlt⟩
  · cases hget

theorem range?_of_take (h : tokens.take stop = before ++ ts) (hstop : stop ≤ tokens.length) :
    range? tokens before.length stop = some ts := by
  have hlength := congrArg List.length h
  rw [List.length_take, Nat.min_eq_left hstop, List.length_append] at hlength
  rw [range?, if_pos ⟨by omega, hstop⟩, h, List.drop_left]

end Regions

namespace Input

variable (i : Input)

/-- The index of the bracket that closes the group opened at an index, if a group is opened there
and closed before the end of the region. -/
def closing? (stop index : Nat) : Option (Option Nat) :=
  match i.tokens[index]?.bind (Group.opened? [.curly, .round, .square, .angle]) with
  | some g => do
    let region ← range? i.tokens 0 stop
    closingFrom g.bracket 0 index (region.drop index)
  | none => some none

/-- The index at which a stretch ends that goes on from an index.  The test that ends it may fail;
what it knows is told every token outside of groups and every closing bracket. -/
def stretchEnd {S : Type} (stop : Nat) (kinds : List Bracket) (ends : S → Nat → Token → Option Bool)
    (note : S → Token → S) : (fuel : Nat) → S → (index : Nat) → Option Nat
  | 0, _, _ => none
  | fuel + 1, x, index =>
    if index < stop then do
      let t ← i.tokens[index]?
      if ← ends x index t then some index
      else if (Group.opened? kinds t).isSome then
        match ← i.closing? stop index with
        | some close => do
          let c ← i.tokens[close]?
          stretchEnd stop kinds ends note fuel (note x c) (close + 1)
        | none => some stop
      else stretchEnd stop kinds ends note fuel (note x t) (index + 1)
    else some index

variable {i} {before ts : List Token} {t : Token} {stop : Nat}

/-- A group is closed where it ends in the region. -/
theorem closing?_eq (h : i.tokens.take stop = before ++ t :: ts) (hstop : stop ≤ i.tokens.length)
    {g : Group} (hopen : Group.opened? [.curly, .round, .square, .angle] t = some g) :
    i.closing? stop before.length =
      some ((g.split ts).map fun parts => before.length + 1 + parts.1.length) := by
  have hregion : range? i.tokens 0 stop = some (i.tokens.take stop) := by
    simp [range?, hstop]
  obtain ⟨b, hb, rfl⟩ := Option.map_eq_some_iff.1 hopen
  have hmark : t.isMark b.opener = true := by simpa using List.find?_some hb
  simp only [closing?, (getElem?_of_take h).1, Option.bind_some, hopen, hregion,
    Option.bind_eq_bind, h, List.drop_left]
  rw [closingFrom, if_pos hmark, closingFrom_eq]

/-- Every kind of bracket is told apart from the others. -/
theorem opened?_of_opened? {kinds : List Bracket} {g : Group}
    (h : Group.opened? kinds t = some g) :
    Group.opened? [.curly, .round, .square, .angle] t = some g := by
  obtain ⟨b, hb, rfl⟩ := Option.map_eq_some_iff.1 h
  have hmark : t.isMark b.opener = true := by simpa using List.find?_some hb
  have hkind := Token.isMark_iff.1 hmark
  cases b <;> simp [Group.opened?, List.find?, Token.isMark, hkind, Bracket.opener]

/-- A stretch ends at the same place, if its test says the same. -/
theorem stretchEnd_eq {S T : Type} {kinds : List Bracket} {ends : S → Nat → Token → Option Bool}
    {note : S → Token → S} {halts : T → Token → List Token → Bool} {note' : T → Token → T}
    (R : T → S → List Token → Prop) (hstop : stop ≤ i.tokens.length)
    (hends : ∀ y x before t ts, R y x before → i.tokens.take stop = before ++ t :: ts →
      ends x before.length t = some (halts y t ts))
    (hnote : ∀ y x before mid t ts, R y x before → i.tokens.take stop = before ++ mid ++ t :: ts →
      R (note' y t) (note x t) (before ++ mid ++ [t]))
    {fuel : Nat} {y : T} {x : S} (hR : R y x before) (h : i.tokens.take stop = before ++ ts)
    (hfuel : ts.length < fuel) :
    i.stretchEnd stop kinds ends note fuel x before.length =
      some (before.length + (scan halts note' kinds y none ts).1.length) := by
  have hlength : ∀ {us : List Token}, i.tokens.take stop = us → us.length = stop := by
    rintro us rfl
    rw [List.length_take, Nat.min_eq_left hstop]
  induction fuel generalizing before ts y x with
  | zero => cases hfuel
  | succ fuel ih =>
      cases ts with
      | nil =>
          have := hlength h
          rw [List.append_nil] at this
          rw [stretchEnd, if_neg (by omega)]
          rfl
      | cons t ts =>
          obtain ⟨hget, hlt⟩ := getElem?_of_take h
          have hshorter := Nat.lt_of_succ_lt_succ hfuel
          simp only [stretchEnd, if_pos hlt, hget, hends y x before t ts hR h,
            Option.bind_eq_bind, Option.bind_some, scan]
          cases hhalt : halts y t ts with
          | true => rfl
          | false =>
              simp only [Bool.false_eq_true, if_false]
              cases hopen : Group.opened? kinds t with
              | none =>
                  have hR' := hnote y x before [] t ts hR (by rw [List.append_nil, h])
                  rw [List.append_nil] at hR'
                  have hrest := ih hR' (by rw [h, List.append_assoc]; rfl) hshorter
                  rw [List.length_append, List.length_singleton] at hrest
                  simp only [Option.isSome_none, Bool.false_eq_true, if_false, hrest,
                    List.length_cons]
                  congr 1
                  omega
              | some g =>
                  simp only [Option.isSome_some, if_true,
                    closing?_eq h hstop (opened?_of_opened? hopen), Option.bind_some]
                  cases hsplit : g.split ts with
                  | none =>
                      have := hlength h
                      rw [List.length_append, List.length_cons] at this
                      simp only [Option.map_none, scan_open y hsplit, List.length_cons]
                      congr 1
                      omega
                  | some parts =>
                      obtain ⟨inside, close, after⟩ := parts
                      have hparts := Group.split_append hsplit
                      have hclose : i.tokens.take stop =
                          before ++ (t :: inside) ++ close :: after := by
                        rw [h, ← hparts]
                        simp
                      have hclose' : i.tokens.take stop =
                          (before ++ (t :: inside) ++ [close]) ++ after := by
                        rw [hclose, List.append_assoc _ [close]]
                        rfl
                      have hindex : before.length + 1 + inside.length =
                          (before ++ (t :: inside)).length := by
                        rw [List.length_append, List.length_cons]
                        omega
                      have hfewer : after.length < fuel := by
                        rw [← hparts, List.length_append, List.length_cons] at hshorter
                        omega
                      have hrest := ih (hnote y x before (t :: inside) close after hR hclose)
                        hclose' hfewer
                      rw [List.length_append, List.length_singleton] at hrest
                      simp only [Option.map_some, hindex, (getElem?_of_take hclose).1,
                        Option.bind_some, hrest, scan_group y hsplit]
                      simp only [List.length_append, List.length_cons]
                      congr 1
                      omega

end Input

/-! ### The text of a stretch by positions -/

/-- The index of the last item of a list that satisfies a test. -/
def lastIndex? {α : Type} (p : α → Bool) : List α → Option Nat
  | [] => none
  | x :: xs =>
    match lastIndex? p xs with
    | some n => some (n + 1)
    | none => if p x then some 0 else none

theorem lastIndex?_eq {α : Type} (p : α → Bool) (xs : List α) :
    (lastIndex? p xs = none ∧ xs.reverse.find? p = none) ∨
      ∃ n x, lastIndex? p xs = some n ∧ xs[n]? = some x ∧ xs.reverse.find? p = some x := by
  induction xs with
  | nil => exact .inl ⟨rfl, rfl⟩
  | cons x xs ih =>
      rw [List.reverse_cons, List.find?_append]
      rcases ih with ⟨hnone, hfind⟩ | ⟨n, y, hsome, hget, hfind⟩
      · rw [lastIndex?, hnone, hfind, Option.none_or]
        cases hx : p x with
        | true => exact .inr ⟨0, x, rfl, rfl, by simp [hx]⟩
        | false => exact .inl ⟨rfl, by simp [hx]⟩
      · rw [lastIndex?, hsome, hfind]
        exact .inr ⟨n + 1, y, rfl, hget, rfl⟩

namespace Input

/-- The source text of the tokens between two indices, without comments at the end and blanks at
either end. -/
def sourceText (i : Input) (start stop : Nat) : Option String := do
  let ts ← range? i.tokens start stop
  match lastIndex? (fun t => !t.isComment) ts with
  | some offset => do
    let first ← i.tokens[start]?
    let last ← i.tokens[start + offset]?
    let cs ← Text.slice? i.source first.start last.stop
    some (String.ofList (Text.trimChars cs))
  | none => some ""

/-- A stretch has the same source text, and there always is one. -/
theorem sourceText_eq {i : Input} {before ts behind : List Token}
    (hanchored : Anchored i.source i.tokens) (h : i.tokens = before ++ ts ++ behind) :
    ∃ text, i.sourceText before.length (before.length + ts.length) = some text ∧
      sourceText? i.source ts = some text := by
  have hsub : ts.Sublist i.tokens := by
    rw [h, List.append_assoc]
    exact (List.sublist_append_left ts behind).trans (List.sublist_append_right before _)
  obtain ⟨text, htext, -⟩ :=
    (⟨[], [], 0⟩ : Displacement).exists_sourceText?_eq (hanchored.sublist hsub)
  have hrange : range? i.tokens before.length (before.length + ts.length) = some ts := by
    refine range?_of_take ?_ ?_
    · rw [h, ← List.length_append, List.take_left]
    · rw [h]
      simp
  refine ⟨text, ?_, htext⟩
  rw [← htext, sourceText, hrange, sourceText?]
  simp only [Option.bind_eq_bind, Option.bind_some]
  rcases lastIndex?_eq (fun t : Token => !t.isComment) ts with
    ⟨hnone, hfind⟩ | ⟨n, last, hsome, hget, hfind⟩
  · simp only [hnone, hfind]
    cases ts.head? <;> rfl
  · have hnth : ∀ {k : Nat} {t : Token}, ts[k]? = some t →
        i.tokens[before.length + k]? = some t := by
      intro k t hk
      have hlt := (List.getElem?_eq_some_iff.1 hk).1
      rw [h, List.append_assoc, List.getElem?_append_right (by omega), Nat.add_sub_cancel_left,
        List.getElem?_append_left hlt, hk]
    cases ts with
    | nil => cases hget
    | cons first ts =>
        have hfirst : i.tokens[before.length]? = some first := hnth (k := 0) rfl
        simp only [hsome, hfind, hfirst, hnth hget, Option.bind_some, List.head?_cons]
        cases Text.slice? i.source first.start last.stop <;> rfl

end Input

end Checked

end Scaffold
