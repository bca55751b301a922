/-
**Tokens behind a place.**

Reading looks at what follows only as far as it has to.  Where a stretch, a header or a declaration
leaves tokens over, it ends at the same place with any more tokens behind these.  The one thing that
looks past comments is a header that waits for its opening brace, so that a declaration without a
body has to leave something else than comments.  A declaration whose braces are closed ends there
whatever follows.

Main definitions:

* `Scaffold.Cursor.extend` — a place with more tokens behind those that are left;
* `Scaffold.Cursor.braces?` — the braces of the declaration at a place;
* `Scaffold.Cursor.Ends` — how a declaration ends.

Main results:

* `Scaffold.scan_extend` — stretches;
* `Scaffold.Cursor.header_extend` — headers;
* `Scaffold.Cursor.ends_declaration` — **declarations do not depend on what follows them**.
-/

import Scaffold.Proofs.DisplacedUnits

set_option relaxedAutoImplicit false
set_option autoImplicit false

namespace Scaffold

/-! ### Groups and stretches -/

theorem Group.split_extend {g : Group} {ts inside after : List Token} {close : Token}
    (h : g.split ts = some (inside, close, after)) (more : List Token) :
    g.split (ts ++ more) = some (inside, close, after ++ more) := by
  induction ts generalizing g inside with
  | nil => cases h
  | cons t ts ih =>
      simp only [Group.split, List.cons_append] at h ⊢
      cases hstep : g.step t with
      | none =>
          simp only [hstep, Option.some.injEq, Prod.mk.injEq] at h ⊢
          obtain ⟨rfl, rfl, rfl⟩ := h
          exact ⟨rfl, rfl, rfl⟩
      | some g' =>
          simp only [hstep] at h ⊢
          obtain ⟨⟨i, k, a⟩, hs, hp⟩ := Option.map_eq_some_iff.1 h
          cases hp
          rw [ih hs]
          rfl

/-- A stretch that ends before the last token ends there with more tokens, if its test does not look
ahead. -/
theorem scan_extend {S : Type} {stop : S → Token → List Token → Bool} {note : S → Token → S}
    {kinds : List Bracket} {more : List Token}
    (hstop : ∀ s t ts, stop s t (ts ++ more) = stop s t ts) {s : S} {g : Option Group}
    {ts : List Token} (h : (scan stop note kinds s g ts).2 ≠ []) :
    scan stop note kinds s g (ts ++ more) =
      ((scan stop note kinds s g ts).1, (scan stop note kinds s g ts).2 ++ more) := by
  induction ts generalizing s g with
  | nil => cases g <;> exact absurd rfl h
  | cons t ts ih =>
      cases g with
      | some g =>
          simp only [scan, List.cons_append] at h ⊢
          cases hstep : g.step t <;> simp only [hstep] at h ⊢ <;> rw [ih h]
      | none =>
          simp only [scan, List.cons_append, hstop] at h ⊢
          cases hs : stop s t ts with
          | true => rfl
          | false =>
              simp only [hs, Bool.false_eq_true, if_false] at h ⊢
              cases hopen : Group.opened? kinds t <;> simp only [hopen] at h ⊢ <;> rw [ih h]

namespace Cursor

/-! ### Places -/

/-- The place with more tokens behind those that are left. -/
def extend (c : Cursor) (more : List Token) : Cursor := ⟨c.prev, c.rest ++ more⟩

theorem Leads.rest_ne_nil {c c' : Cursor} (h : c.Leads c') (hrest : c'.rest ≠ []) :
    c.rest ≠ [] := by
  intro hnil
  exact hrest (List.suffix_nil.1 (hnil ▸ h.rest))

theorem past_extend (c : Cursor) (taken left more : List Token) :
    (c.extend more).past taken (left ++ more) = (c.past taken left).extend more := rfl

section Extend

variable {c : Cursor} (h : c.rest ≠ []) (more : List Token)

include h

theorem next?_extend : (c.extend more).next? = c.next? := by
  obtain ⟨prev, rest⟩ := c
  cases rest with
  | nil => exact absurd rfl h
  | cons t ts => rfl

theorem advance_extend : (c.extend more).advance = c.advance.extend more := by
  obtain ⟨prev, rest⟩ := c
  cases rest with
  | nil => exact absurd rfl h
  | cons t ts => rfl

theorem line_extend : (c.extend more).line = c.line := by
  obtain ⟨prev, rest⟩ := c
  cases rest with
  | nil => exact absurd rfl h
  | cons t ts => rfl

theorem fail_extend (reason : Reason) : (c.extend more).fail reason = c.fail reason := by
  rw [fail, line_extend h, fail]

theorem atMark_extend (m : Char) : (c.extend more).atMark m = c.atMark m := by
  rw [atMark, next?_extend h, atMark]

theorem atWord_extend (w : String) : (c.extend more).atWord w = c.atWord w := by
  rw [atWord, next?_extend h, atWord]

theorem word?_extend : (c.extend more).word? = c.word? := by
  rw [word?, next?_extend h, word?]

theorem found_extend : (c.extend more).found = c.found := by
  rw [found, next?_extend h, found]

theorem mark?_extend (m : Char) :
    (c.extend more).mark? m = (c.mark? m).map (extend · more) := by
  simp only [mark?, atMark_extend h, advance_extend h]
  split <;> rfl

theorem skipMark_extend (m : Char) : (c.extend more).skipMark m = (c.skipMark m).extend more := by
  simp only [skipMark, mark?_extend h]
  cases c.mark? m <;> rfl

end Extend

theorem skipGroup_extend {c : Cursor} (h : c.skipGroup.rest ≠ []) (more : List Token) :
    (c.extend more).skipGroup = c.skipGroup.extend more := by
  obtain ⟨prev, rest⟩ := c
  cases rest with
  | nil => exact absurd rfl h
  | cons t ts =>
      simp only [skipGroup, extend, List.cons_append] at h ⊢
      cases hopen : Group.opened? [.curly, .round, .square, .angle] t with
      | none => exact absurd (by simp only [hopen]; rfl) h
      | some g =>
          simp only [hopen] at h ⊢
          cases hsplit : g.split ts with
          | none => exact absurd (by simp only [hsplit]; rfl) h
          | some parts => simp only [Group.split_extend hsplit more]

theorem skipGluedParens_extend {c : Cursor} (h : c.skipGluedParens.rest ≠ [])
    (more : List Token) : (c.extend more).skipGluedParens = c.skipGluedParens.extend more := by
  have hrest : c.rest ≠ [] := (leads_skipGluedParens c).rest_ne_nil h
  simp only [skipGluedParens, next?_extend hrest] at h ⊢
  simp only [show (c.extend more).prev = c.prev from rfl]
  split
  · next hprev hnext =>
      simp only [hprev, hnext] at h
      split
      · next hglued =>
          rw [if_pos hglued] at h
          exact skipGroup_extend h more
      · rfl
  · rfl

theorem skipAttribute_extend {c : Cursor} (h : c.skipAttribute.rest ≠ []) (more : List Token) :
    (c.extend more).skipAttribute = c.skipAttribute.extend more := by
  have hrest : c.rest ≠ [] := (leads_skipAttribute c).rest_ne_nil h
  simp only [skipAttribute] at h ⊢
  cases hword : c.advance.word? with
  | none =>
      simp only [hword] at h
      simp only [advance_extend hrest, word?_extend h, hword]
  | some w =>
      simp only [hword] at h
      have hadvance : c.advance.rest ≠ [] :=
        ((leads_advance _).trans (leads_skipGluedParens _)).rest_ne_nil h
      simp only [advance_extend hrest, word?_extend hadvance, hword, advance_extend hadvance,
        skipGluedParens_extend h]

theorem skipModifier_extend {c : Cursor} (h : c.skipModifier.rest ≠ []) (more : List Token) :
    (c.extend more).skipModifier = c.skipModifier.extend more := by
  rw [skipModifier, advance_extend ((leads_skipModifier c).rest_ne_nil h),
    skipGluedParens_extend h, skipModifier]

theorem skipStatement_extend {c : Cursor} (h : c.skipStatement.rest ≠ []) (more : List Token) :
    (c.extend more).skipStatement = c.skipStatement.extend more := by
  have hrest : c.rest ≠ [] := (leads_skipStatement c).rest_ne_nil h
  have hparts : (c.statement false).1 ++ (c.statement false).2 = c.rest := scan_append _ _ _ _ _ _
  simp only [skipStatement] at h ⊢
  have hbehind := (leads_skipMark _ ';').rest_ne_nil h
  have hstatement : (c.extend more).statement false =
      ((c.statement false).1, (c.statement false).2 ++ more) := by
    rw [statement, line_extend hrest]
    refine scan_extend (fun last t ts => by simp [endsStatement]) (?_ : (c.statement false).2 ≠ [])
    -- an empty statement leaves all tokens, and any other those behind it
    split at hbehind
    · next hempty =>
        rw [List.isEmpty_iff.1 hempty, List.nil_append] at hparts
        rwa [hparts]
    · exact hbehind
  rw [hstatement, ← skipMark_extend hbehind]
  split
  · rw [advance_extend hrest]
  · rw [past_extend]

theorem skipComments_extend {c : Cursor} (h : c.skipComments.rest ≠ []) (more : List Token) :
    (c.extend more).skipComments = c.skipComments.extend more := by
  have hlength : (c.rest.takeWhile Token.isComment).length ≠ c.rest.length := by
    intro heq
    have hparts := congrArg List.length
      (List.takeWhile_append_dropWhile (p := Token.isComment) (l := c.rest))
    rw [List.length_append, heq] at hparts
    exact h (List.eq_nil_of_length_eq_zero (Nat.add_left_cancel hparts))
  have htake : (c.rest ++ more).takeWhile Token.isComment = c.rest.takeWhile Token.isComment := by
    rw [List.takeWhile_append, if_neg hlength]
  have hdrop : (c.rest ++ more).dropWhile Token.isComment =
      c.rest.dropWhile Token.isComment ++ more := by
    rw [List.dropWhile_append]
    exact if_neg (mt List.isEmpty_iff.1 h)
  simp only [skipComments, extend, htake, hdrop]
  rfl

/-! ### Headers -/

theorem conformance_extend {c : Cursor} (h : c.conformance.2 ≠ []) (more : List Token) :
    (c.extend more).conformance = (c.conformance.1, c.conformance.2 ++ more) :=
  scan_extend (fun _ _ _ => rfl) h

theorem skipHeaderRest_extend {c : Cursor} (h : c.skipHeaderRest.rest ≠ []) (more : List Token) :
    (c.extend more).skipHeaderRest = c.skipHeaderRest.extend more := by
  simp only [skipHeaderRest, extend]
  rw [scan_extend (fun _ _ _ => rfl) h]
  rfl

theorem leads_conformance (c : Cursor) : c.Leads (c.past c.conformance.1 c.conformance.2) :=
  leads_scan c

theorem leads_conformancesFrom {source : List Char} {fuel : Nat} {texts : List String}
    {c c' : Cursor} {x : Except Failure (List String)}
    (h : conformancesFrom source fuel texts c = some (x, c')) : c.Leads c' := by
  induction fuel generalizing texts c with
  | zero =>
      cases h
      exact Leads.refl _
  | succ fuel ih =>
      simp only [conformancesFrom] at h
      split at h
      · cases h
      split at h
      · cases h
        exact leads_conformance _
      split at h
      · next hcomma => exact (leads_conformance _).trans ((leads_of_mark? hcomma).trans (ih h))
      · cases h
        exact leads_conformance _

theorem length_lt_of_mark? {c c' : Cursor} {m : Char} (h : c.mark? m = some c') :
    c'.rest.length < c.rest.length := by
  obtain ⟨prev, rest⟩ := c
  simp only [mark?, Option.ite_none_right_eq_some, Option.some.injEq] at h
  obtain ⟨hat, rfl⟩ := h
  cases rest with
  | nil => cases hat
  | cons t ts => exact Nat.lt_succ_self _

/-- Conformances do not depend on what follows, if something is left behind them.  Each takes a
token, so that more fuel changes nothing. -/
theorem conformancesFrom_extend {source : List Char} {fuel fuel' : Nat} {texts : List String}
    {c c' : Cursor} {x : Except Failure (List String)}
    (h : conformancesFrom source fuel texts c = some (x, c')) (hc' : c'.rest ≠ [])
    (more : List Token) (hfuel : c.rest.length < fuel) (hle : fuel ≤ fuel') :
    conformancesFrom source fuel' texts (c.extend more) = some (x, c'.extend more) := by
  induction fuel generalizing fuel' texts c with
  | zero => exact absurd hfuel (Nat.not_lt_zero _)
  | succ fuel ih =>
      cases fuel' with
      | zero => exact absurd hle (Nat.not_succ_le_zero _)
      | succ fuel' =>
          have hbehind := (leads_conformance c).rest
          simp only [conformancesFrom] at h ⊢
          split at h
          · cases h
          next text htext =>
          split at h
          · next hempty =>
              cases h
              simp only [conformance_extend hc', past_extend, htext, if_pos hempty, fail_extend hc']
          next hempty =>
          cases hcomma : (c.past c.conformance.1 c.conformance.2).mark? ',' with
          | some c₁ =>
              simp only [hcomma] at h
              have hleft : c.conformance.2 ≠ [] :=
                ((leads_of_mark? hcomma).trans (leads_conformancesFrom h)).rest_ne_nil hc'
              have hlt := length_lt_of_mark? hcomma
              simp only [conformance_extend hleft, past_extend, htext, if_neg hempty,
                mark?_extend (c := c.past c.conformance.1 c.conformance.2) hleft, hcomma,
                Option.map_some]
              exact ih h (by have := hbehind.length_le; omega) (Nat.le_of_succ_le_succ hle)
          | none =>
              simp only [hcomma] at h
              cases h
              simp only [conformance_extend hc', past_extend, htext, if_neg hempty,
                mark?_extend hc', hcomma, Option.map_none]

theorem leads_header {source : List Char} {c c' : Cursor} {x : Except Failure (List String)}
    (h : header source c = some (x, c')) : c.Leads c' := by
  simp only [header] at h
  split at h
  · cases h
    exact Leads.refl _
  cases hcolon : c.mark? ':' with
  | none =>
      simp only [hcolon] at h
      split at h <;> cases h <;> exact Leads.refl _
  | some c₁ =>
      simp only [hcolon] at h
      split at h
      · next texts c₂ hnames =>
          have hleads := (leads_of_mark? hcolon).trans (leads_conformancesFrom hnames)
          split at h <;> cases h <;> exact hleads
      · exact (leads_of_mark? hcolon).trans (leads_conformancesFrom h)

/-- A header does not depend on what follows, if something is left behind it. -/
theorem header_extend {source : List Char} {c c' : Cursor} {x : Except Failure (List String)}
    (h : header source c = some (x, c')) (hc' : c'.rest ≠ []) (more : List Token) :
    header source (c.extend more) = some (x, c'.extend more) := by
  have hrest : c.rest ≠ [] := (leads_header h).rest_ne_nil hc'
  have hwhere : ∀ texts {c₁ : Cursor},
      (if c₁.atWord "where" then some (.error (c₁.fail .whereClause), c₁)
        else some (.ok texts, c₁)) = some (x, c') →
      (if (c₁.extend more).atWord "where" then
        some (.error ((c₁.extend more).fail .whereClause), c₁.extend more)
        else some (.ok texts, c₁.extend more)) = some (x, c'.extend more) := by
    intro texts c₁ h
    have hc₁ : c₁ = c' := by split at h <;> cases h <;> rfl
    subst hc₁
    rw [atWord_extend hc', fail_extend hc']
    split at h <;> cases h
    · next hat => rw [if_pos hat]
    · next hat => rw [if_neg hat]
  simp only [header, atMark_extend hrest, mark?_extend hrest] at h ⊢
  split at h
  · next hangle =>
      cases h
      rw [if_pos hangle, fail_extend hrest]
  next hangle =>
  rw [if_neg hangle]
  cases hcolon : c.mark? ':' with
  | none =>
      simp only [hcolon, Option.map_none] at h ⊢
      exact hwhere [] h
  | some c₁ =>
      have hfuel : c₁.rest.length + 1 ≤ (c₁.extend more).rest.length + 1 := by
        simp [extend]
      simp only [hcolon, Option.map_some] at h ⊢
      split at h
      · next texts c₂ hnames =>
          have hc₂ : c₂.rest ≠ [] := by
            split at h <;> cases h <;> exact hc'
          rw [conformancesFrom_extend hnames hc₂ more (Nat.lt_succ_self _) hfuel]
          exact hwhere texts h
      · next hother =>
          rw [conformancesFrom_extend h hc' more (Nat.lt_succ_self _) hfuel]
          cases x with
          | ok texts => exact absurd h (hother texts c')
          | error f => rfl

/-! ### Declarations -/

/-- Where reading goes on behind a header. -/
def resume : HeaderResult → Cursor
  | (.ok _, c) => c
  | (.error _, c) => c.skipHeaderRest

theorem leads_resume (x : Except Failure (List String)) (c : Cursor) :
    c.Leads (resume (x, c)) := by
  cases x with
  | ok texts => exact Leads.refl c
  | error f => exact leads_skipHeaderRest c

theorem resume_extend {x : Except Failure (List String)} {c : Cursor}
    (h : (resume (x, c)).rest ≠ []) (more : List Token) :
    resume (x, c.extend more) = (resume (x, c)).extend more := by
  cases x with
  | ok texts => rfl
  | error f => exact skipHeaderRest_extend h more

/-- The inside of the braces that open at the place, the closing brace, and what follows. -/
def block? (c : Cursor) : Option (List Token × Token × List Token) :=
  match c.rest with
  | [] => none
  | t :: ts => if t.isMark '{' then Group.split { bracket := .curly } ts else none

/-- The braces of the declaration at the place.  There are none if the declaration has no name or no
body, or if its body is not closed. -/
def braces? (source : List Char) (c : Cursor) : Option (List Token × Token × List Token) :=
  c.advance.word?.bind fun _ =>
    (c.advance.advance.header source).bind fun result => (resume result).skipComments.block?

theorem block?_eq_some_iff {c : Cursor} {parts : List Token × Token × List Token} :
    c.block? = some parts ↔ ∃ opener ts, c.rest = opener :: ts ∧ opener.isMark '{' = true ∧
      Group.split { bracket := .curly } ts = some parts := by
  simp only [block?]
  split
  · next hrest => simp [hrest]
  · next t ts hrest =>
      rw [Option.ite_none_right_eq_some, hrest]
      constructor
      · rintro ⟨hmark, hsplit⟩
        exact ⟨t, ts, rfl, hmark, hsplit⟩
      · rintro ⟨_, _, heq, hmark, hsplit⟩
        cases heq
        exact ⟨hmark, hsplit⟩

theorem word?_of_expectName {role name : String} {c behind : Cursor}
    (h : c.expectName role = .ok (name, behind)) : c.word? = some name ∧ behind = c.advance := by
  simp only [expectName] at h
  split at h
  · next w hword =>
      cases h
      exact ⟨hword, rfl⟩
  · cases h

theorem word?_eq_none_of_expectName {role : String} {c : Cursor} {f : Failure}
    (h : c.expectName role = .error f) : c.word? = none := by
  simp only [expectName] at h
  split at h
  · cases h
  · assumption

theorem expectName_extend {c : Cursor} (h : c.rest ≠ []) (more : List Token) (role : String) :
    (c.extend more).expectName role =
      (c.expectName role).map fun (name, behind) => (name, behind.extend more) := by
  simp only [expectName, word?_extend h, advance_extend h, fail_extend h, found_extend h]
  cases c.word? <;> rfl

/-- The head of the declaration at a place: its name, what its header yields, and the place where
its body has to follow. -/
def Heads (source : List Char) (form : Form) (c : Cursor) (name : String)
    (x : Except Failure (List String)) (c₁ : Cursor) : Prop :=
  ∃ behind after, c.advance.expectName form.keyword = .ok (name, behind) ∧
    behind.header source = some (x, after) ∧ c₁ = resume (x, after)

section Heads

variable {source : List Char} {form : Form} {c c₁ : Cursor} {name : String}
  {x : Except Failure (List String)} (h : Heads source form c name x c₁)

include h

theorem Heads.leads : c.advance.Leads c₁ := by
  obtain ⟨behind, after, hname, hheader, rfl⟩ := h
  obtain ⟨-, rfl⟩ := word?_of_expectName hname
  exact (leads_advance _).trans ((leads_header hheader).trans (leads_resume x after))

theorem Heads.braces?_eq : c.braces? source = c₁.skipComments.block? := by
  obtain ⟨behind, after, hname, hheader, rfl⟩ := h
  obtain ⟨hword, rfl⟩ := word?_of_expectName hname
  simp only [braces?, hword, hheader, Option.bind_some]

/-- The head does not depend on what follows, if something is left where the body has to open. -/
theorem Heads.extend (hopen : c₁.skipComments.rest ≠ []) (more : List Token) :
    Heads source form (c.extend more) name x (c₁.extend more) := by
  have hadvance : c.advance.rest ≠ [] :=
    (h.leads.trans (leads_skipComments c₁)).rest_ne_nil hopen
  obtain ⟨behind, after, hname, hheader, rfl⟩ := h
  have hresume := (leads_skipComments _).rest_ne_nil hopen
  have hafter : after.rest ≠ [] := (leads_resume x after).rest_ne_nil hresume
  refine ⟨behind.extend more, after.extend more, ?_, header_extend hheader hafter more,
    (resume_extend hresume more).symm⟩
  rw [advance_extend ((leads_advance c).rest_ne_nil hadvance), expectName_extend hadvance, hname]
  rfl

end Heads

section Declaration

variable (unit markerPrefix : String) (source : List Char) (room : Nat) (parent : Option String)
  (form : Form) (markers : List String) (name : String) (x : Except Failure (List String))

/-- A declaration whose body does not open is given up behind its head. -/
theorem exists_declaration_of_missing (found : Option TokenKind) (line : Nat) :
    ∃ o, ∀ {c c₁ : Cursor}, Heads source form c name x c₁ → c₁.skipComments.found = found →
      c₁.skipComments.atMark '{' = false → c.line = line →
      declaration unit source markerPrefix room parent form markers c = some (o, c₁) := by
  cases x with
  | ok conformances =>
      refine ⟨Outcome.reject (qualified parent name) parent markers
        { reason := .expectedMark '{' found, line := line }, ?_⟩
      rintro c c₁ ⟨behind, after, hname, hheader, rfl⟩ rfl hmark rfl
      rw [declaration.eq_def]
      simp only [hname, hheader]
      simp only [atMark, next?, found] at hmark ⊢
      split <;> simp_all
  | error f =>
      refine ⟨Outcome.reject (qualified parent name) parent markers f, ?_⟩
      rintro c c₁ ⟨behind, after, hname, hheader, rfl⟩ rfl hmark rfl
      rw [declaration.eq_def]
      simp only [hname, hheader]
      simp only [resume, atMark, next?] at hmark ⊢
      split <;> simp_all

/-- A declaration whose body is not closed takes all tokens. -/
theorem exists_declaration_of_unclosed (line : Nat) :
    ∃ o, ∀ {c c₁ : Cursor}, Heads source form c name x c₁ → c₁.skipComments.atMark '{' = true →
      c₁.skipComments.block? = none → c.line = line →
      declaration unit source markerPrefix room parent form markers c =
        some (o, c₁.skipComments.toEnd) := by
  cases x with
  | ok conformances =>
      refine ⟨Outcome.reject (qualified parent name) parent markers
        { reason := .unbalancedBraces, line := line }, ?_⟩
      rintro c c₁ ⟨behind, after, hname, hheader, rfl⟩ hmark hblock rfl
      rw [declaration.eq_def]
      simp only [hname, hheader]
      simp only [atMark, next?, block?] at hmark hblock ⊢
      split <;> simp_all
  | error f =>
      refine ⟨Outcome.reject (qualified parent name) parent markers f, ?_⟩
      rintro c c₁ ⟨behind, after, hname, hheader, rfl⟩ hmark hblock rfl
      rw [declaration.eq_def]
      simp only [hname, hheader]
      simp only [resume, atMark, next?, block?] at hmark hblock ⊢
      split <;> simp_all

/-- A declaration with braces ends at the closing one.  What it yields is told by its head and by
what stands inside. -/
theorem exists_declaration_of_braces (opener : Token) (inside : List Token) (close : Token)
    (line : Nat) :
    ∃ r : Option Outcome, ∀ {c c₁ : Cursor} {ts after : List Token}, Heads source form c name x c₁ →
      c₁.skipComments.rest = opener :: ts → opener.isMark '{' = true →
      Group.split { bracket := .curly } ts = some (inside, close, after) → c.line = line →
      declaration unit source markerPrefix room parent form markers c =
        r.map fun o => (o, ⟨some close, after⟩) := by
  let reject := Outcome.reject (qualified parent name) parent markers
  cases x with
  | error f =>
      refine ⟨some (reject f), ?_⟩
      rintro c c₁ ts after ⟨behind, c₂, hname, hheader, rfl⟩ hrest hmark hsplit rfl
      rw [declaration.eq_def]
      simp only [resume] at hrest
      simp only [hname, hheader, hrest, hmark, hsplit]
      rfl
  | ok conformances =>
      cases room with
      | zero =>
          refine ⟨some (reject { reason := .declarationNesting, line := line }), ?_⟩
          rintro c c₁ ts after ⟨behind, c₂, hname, hheader, rfl⟩ hrest hmark hsplit rfl
          rw [declaration.eq_def]
          simp only [hname, hheader, hrest, hmark, hsplit]
          rfl
      | succ room =>
          let nested := declaration unit source markerPrefix room (some (qualified parent name))
          let entry := fun (shape : Shape) =>
            Entry.mk { name := qualified parent name, parent, unit, line := line, shape } markers
          refine ⟨(body source markerPrefix room nested form conformances ⟨some opener, inside⟩).map
            fun r => declared entry reject r.1 r.2, ?_⟩
          rintro c c₁ ts after ⟨behind, c₂, hname, hheader, rfl⟩ hrest hmark hsplit rfl
          rw [declaration.eq_def]
          simp only [hname, hheader, hrest, hmark, hsplit]
          cases body source markerPrefix room nested form conformances ⟨some opener, inside⟩ <;> rfl

end Declaration

section Declaration

variable {unit markerPrefix : String} {source : List Char} {room : Nat} {parent : Option String}
  {form : Form} {markers : List String} {c c' : Cursor} {o : Outcome}

theorem declaration_of_nameless {f : Failure}
    (hname : c.advance.expectName form.keyword = .error f) :
    declaration unit source markerPrefix room parent form markers c =
      some (Outcome.nameless (parent.getD unit) f, c.advance.skipStatement) := by
  rw [declaration.eq_def]
  simp only [hname]

theorem heads_of_declaration {name : String} {behind : Cursor}
    (h : declaration unit source markerPrefix room parent form markers c = some (o, c'))
    (hname : c.advance.expectName form.keyword = .ok (name, behind)) :
    ∃ x c₁, Heads source form c name x c₁ := by
  cases hheader : behind.header source with
  | none =>
      rw [declaration.eq_def] at h
      simp [hname, hheader] at h
  | some result => exact ⟨result.1, _, behind, result.2, hname, hheader, rfl⟩

/-- How the declaration at a place ends. -/
structure Ends (source : List Char) (nested : NestedReader) (form : Form) (markers : List String)
    (c : Cursor) (o : Outcome) (c' : Cursor) : Prop where
  /-- It takes its keyword. -/
  leads : c.advance.Leads c'
  /-- If it has braces, it ends at the closing one. -/
  close : ∀ inside close after, c.braces? source = some (inside, close, after) →
    c' = ⟨some close, after⟩
  /-- More tokens change nothing if it has braces, or if it leaves something else than comments. -/
  extend : c'.skipComments.rest ≠ [] ∨ (c.braces? source).isSome = true → ∀ more,
    nested form markers (c.extend more) = some (o, c'.extend more)

/-- **Declarations do not depend on what follows them.** -/
theorem ends_declaration
    (h : declaration unit source markerPrefix room parent form markers c = some (o, c'))
    (hc : c.rest ≠ []) :
    Ends source (declaration unit source markerPrefix room parent) form markers c o c' := by
  cases hname : c.advance.expectName form.keyword with
  | error f =>
      have hbraces : c.braces? source = none := by
        simp only [braces?, word?_eq_none_of_expectName hname, Option.bind_none]
      rw [declaration_of_nameless hname] at h
      cases h
      refine ⟨leads_skipStatement _, by simp [hbraces], fun hleft more => ?_⟩
      have hleft : c.advance.skipStatement.rest ≠ [] := by
        simpa [hbraces] using hleft.imp_left (leads_skipComments _).rest_ne_nil
      have hadvance : c.advance.rest ≠ [] := (leads_skipStatement _).rest_ne_nil hleft
      rw [← skipStatement_extend hleft, ← advance_extend hc]
      apply declaration_of_nameless
      rw [advance_extend hc, expectName_extend hadvance, hname]
      rfl
  | ok named =>
      obtain ⟨x, c₁, hheads⟩ := heads_of_declaration h hname
      have hbraces := hheads.braces?_eq
      have hleads := hheads.leads.trans (leads_skipComments c₁)
      cases hblock : c₁.skipComments.block? with
      | some parts =>
          obtain ⟨inside, close, after⟩ := parts
          obtain ⟨opener, ts, hrest, hmark, hsplit⟩ := block?_eq_some_iff.1 hblock
          have hopen : c₁.skipComments.rest ≠ [] := by simp [hrest]
          obtain ⟨r, hr⟩ := exists_declaration_of_braces unit markerPrefix source room parent form
            markers named.1 x opener inside close c.line
          rw [hr hheads hrest hmark hsplit rfl] at h
          obtain ⟨_, rfl, heq⟩ := Option.map_eq_some_iff.1 h
          cases heq
          refine ⟨hleads.trans (leads_close hrest hsplit), by simp [hbraces, hblock], ?_⟩
          intro _ more
          have hrest' : (c₁.extend more).skipComments.rest = opener :: (ts ++ more) := by
            rw [skipComments_extend hopen, extend, hrest, List.cons_append]
          exact hr (hheads.extend hopen more) hrest' hmark (Group.split_extend hsplit more)
            (line_extend hc more)
      | none =>
          cases hmark : c₁.skipComments.atMark '{' with
          | false =>
              obtain ⟨r, hr⟩ := exists_declaration_of_missing unit markerPrefix source room parent
                form markers named.1 x c₁.skipComments.found c.line
              rw [hr hheads rfl hmark rfl, Option.some.injEq, Prod.mk.injEq] at h
              obtain ⟨rfl, rfl⟩ := h
              refine ⟨hheads.leads, by simp [hbraces, hblock], fun hleft more => ?_⟩
              have hopen : c₁.skipComments.rest ≠ [] := by simpa [hbraces, hblock] using hleft
              refine hr (hheads.extend hopen more) ?_ ?_ (line_extend hc more)
              · rw [skipComments_extend hopen, found_extend hopen]
              · rw [skipComments_extend hopen, atMark_extend hopen, hmark]
          | true =>
              obtain ⟨r, hr⟩ := exists_declaration_of_unclosed unit markerPrefix source room parent
                form markers named.1 x c.line
              rw [hr hheads hmark hblock rfl] at h
              cases h
              refine ⟨hleads.trans (leads_toEnd _), by simp [hbraces, hblock], fun hleft => ?_⟩
              exact absurd rfl (hleft.resolve_right (by simp [hbraces, hblock]))

end Declaration

end Cursor

end Scaffold
