/-
**Units by positions.**

A unit is read by moving a position over its tokens.  Where a declaration has braces, its body is
read in the region between them, one level further inside, and afterwards the region around it is
taken up again behind the closing brace, wherever the body has left the position.  The declaration is
inserted at the index at which those nested inside it start, or takes these with it.  Every access
that can fail is written out: tokens and their neighbours, slices of the text, depths that are counted
down, and the index of the insertion.  None of them fails.

Main definitions:

* `Scaffold.Checked.header`, `Scaffold.Checked.skipHeaderRest` — headers;
* `Scaffold.Checked.within`, `Scaffold.Checked.keep` — bodies, and what becomes of declarations;
* `Scaffold.Checked.declaration` — a declaration with those nested inside it;
* `Scaffold.Checked.read` — the outcome of a unit.

Main results:

* `Scaffold.Checked.declares_declaration` — **declarations are the same**;
* `Scaffold.Checked.read_eq` — no access fails where a unit is read;
* `Scaffold.Checked.reading_never_fails` — **no access fails** where a text is lexed, read as a type,
  or read as a unit, and what is read is the same.
-/

import Scaffold.Proofs.CheckedBodies

set_option relaxedAutoImplicit false
set_option autoImplicit false

namespace Scaffold.Checked

open Cursor (HeaderResult)

/-! ### Headers -/

section Readers

variable (i : Input)

/-- Whether the token at an index is the first on its line, for a token that is not the first of
all. -/
def opensLine (index : Nat) (t : Token) : Option Bool :=
  if 0 < index then do
    let before ← minus? index 1
    let prev ← i.tokens[before]?
    some (decide (prev.line < t.line))
  else some false

/-- Whether the token at an index begins the next item rather than going on with a header. -/
def startsNextItemAt (index : Nat) : Option Bool := do
  let t ← i.tokens[index]?
  if t.isComment then some true
  else
    let opens ← opensLine i index t
    some (opens &&
      (t.isMark '@' || t.isWordIn (Form.all.map Form.keyword) || t.isWordIn modifiers ||
        t.isWordIn statementKeywords))

/-- The index at which a stretch of a header ends: where the next item begins, or where a test
holds. -/
def headerEnd (kinds : List Bracket) (ends : Token → Bool) (s : State) : Option Nat :=
  i.stretchEnd s.stop kinds
    (fun _ index t => if ends t then some true else startsNextItemAt i index)
    (fun (x : Unit) _ => x) (i.tokens.length + 1) () s.pos

/-- Whether a token ends a conformance. -/
def endsConformance (t : Token) : Bool := t.isMark ',' || t.isMark '{' || t.isWord "where"

/-- Moves behind what is left of a header, before the body or the next item. -/
def skipHeaderRest : Reader Unit := do
  let s ← get
  let stop ← access (headerEnd i [.angle, .round, .square] (·.isMark '{') s)
  moveTo stop

/-- Reads conformances behind a colon or comma. -/
def conformancesFrom : (fuel : Nat) → List String → Reader (List String)
  | 0, _ => access none
  | fuel + 1, texts => do
    let s ← get
    let stop ← access (headerEnd i [.angle] endsConformance s)
    moveTo stop
    let text ← access (i.sourceText s.pos stop)
    if text.isEmpty then
      let behind ← get
      throw (i.fail behind .expectedConformance)
    else if ← takeMark i ',' then conformancesFrom fuel (texts ++ [text])
    else return texts ++ [text]

/-- Reads the conformances behind a colon, if there is one. -/
def conformances : Reader (List String) := do
  if ← takeMark i ':' then conformancesFrom i (i.tokens.length + 1) [] else return []

/-- Reads the conformances behind a declaration's name. -/
def header : Reader (List String) := do
  let s ← get
  if i.atMark s '<' then throw (i.fail s .genericDeclaration)
  else
    let texts ← conformances i
    let behind ← get
    if i.atWord behind "where" then throw (i.fail behind .whereClause) else return texts

end Readers

section Headers

variable {i : Input} {room least : Nat} {s : State} {c : Cursor}

theorem startsNextItemAt_eq {stop : Nat} {before ts : List Token} {t : Token}
    (h : i.tokens.take stop = before ++ t :: ts) :
    startsNextItemAt i before.length = some (startsNextItem before.getLast? t) := by
  have hopens : opensLine i before.length t =
      some (before.getLast?.any fun p => decide (p.line < t.line)) := by
    rcases List.eq_nil_or_concat' before with rfl | ⟨us, u, rfl⟩
    · rfl
    · have htake : i.tokens.take stop = us ++ u :: t :: ts := by simpa using h
      have hprev := (getElem?_of_take htake).1
      have hlength : (us ++ [u]).length = us.length + 1 := by simp
      rw [opensLine, hlength, if_pos (Nat.succ_pos _), minus?_add]
      simp only [Option.bind_eq_bind, Option.bind_some, hprev, List.getLast?_concat,
        Option.any_some]
  rw [startsNextItemAt, (getElem?_of_take h).1, startsNextItem]
  simp only [Option.bind_eq_bind, Option.bind_some, hopens]
  cases t.isComment <;> rfl

variable (h : Stands i room least s c)

include h

/-- A stretch of a header ends at the same place. -/
theorem headerEnd_eq (kinds : List Bracket) (ends : Token → Bool) :
    headerEnd i kinds ends s = some (s.pos +
      (scan (fun prev t _ => ends t || startsNextItem prev t) Cursor.notePrev kinds c.prev none
        c.rest).1.length) := by
  obtain ⟨before, htake, hpos, hprev⟩ := h.exists_take
  rw [headerEnd, hpos]
  refine Input.stretchEnd_eq (fun y _ us => y = us.getLast?) h.stop_le ?_ ?_ hprev htake h.length_lt
  · rintro _ x us t ts rfl htake'
    rw [startsNextItemAt_eq htake']
    cases ends t <;> rfl
  · intro y x us mid t ts _ _
    rw [Cursor.notePrev, List.getLast?_concat]

theorem movesTo_skipHeaderRest : MovesTo i room least s (skipHeaderRest i) c.skipHeaderRest :=
  .get (.access (headerEnd_eq h _ _) (movesTo_moveTo (h.past (scan_append _ _ _ _ _ _))))

omit h

/-- A reader follows one of headers: what is read or fails is the same, and the state stands at the
place reached. -/
def HeadsTo (i : Input) (room least : Nat) (s : State) (x : Reader (List String))
    (r : Option HeaderResult) : Prop :=
  ∃ y n c, x.run.run s = some (y, s.to n) ∧ r = some (y, c) ∧ Stands i room least (s.to n) c

theorem HeadsTo.of_run {α : Type} {x : Reader α} {a : α} {n : Nat} {k : α → Reader (List String)}
    {r : Option HeaderResult} (hrun : x.run.run s = some (.ok a, s.to n))
    (h : HeadsTo i room least (s.to n) (k a) r) : HeadsTo i room least s (x >>= k) r := by
  obtain ⟨y, m, c, hrun', hr, hc⟩ := h
  exact ⟨y, m, c, (run_bind_of_ok hrun).trans hrun', hr, hc⟩

theorem HeadsTo.get {k : State → Reader (List String)} {r : Option HeaderResult}
    (h : HeadsTo i room least s (k s) r) : HeadsTo i room least s (MonadState.get >>= k) r := h

theorem HeadsTo.moveTo {n : Nat} {k : Unit → Reader (List String)} {r : Option HeaderResult}
    (h : HeadsTo i room least (s.to n) (k ()) r) :
    HeadsTo i room least s (Checked.moveTo n >>= k) r := h

theorem HeadsTo.access {α : Type} {y : Option α} {a : α} {k : α → Reader (List String)}
    {r : Option HeaderResult} (hy : y = some a) (h : HeadsTo i room least s (k a) r) :
    HeadsTo i room least s (Checked.access y >>= k) r := by
  subst hy
  exact h

theorem HeadsTo.ok (h : Stands i room least s c) (texts : List String) :
    HeadsTo i room least s (pure texts) (some (.ok texts, c)) :=
  ⟨.ok texts, s.pos, c, rfl, rfl, h⟩

theorem HeadsTo.error (h : Stands i room least s c) (f : Failure) :
    HeadsTo i room least s (throw f) (some (.error f, c)) :=
  ⟨.error f, s.pos, c, rfl, rfl, h⟩

/-- What a header yields, unless a where clause follows. -/
def withoutClause : HeaderResult → HeaderResult
  | (.ok texts, c) =>
    if c.atWord "where" then (.error (c.fail .whereClause), c) else (.ok texts, c)
  | (.error f, c) => (.error f, c)

variable (hanchored : Anchored i.source i.tokens)

include hanchored

theorem headsTo_conformancesFrom {fuel fuel' : Nat} (texts : List String)
    (h : Stands i room least s c) (hfuel : c.rest.length < fuel) (hfuel' : c.rest.length < fuel') :
    HeadsTo i room least s (conformancesFrom i fuel texts)
      (c.conformancesFrom i.source fuel' texts) := by
  induction fuel generalizing fuel' texts s c with
  | zero => cases hfuel
  | succ fuel ih =>
      obtain ⟨fuel', rfl⟩ : ∃ n, fuel' = n + 1 := ⟨fuel' - 1, by omega⟩
      have hparts : c.conformance.1 ++ c.conformance.2 = c.rest := scan_append _ _ _ _ _ _
      have hlength := congrArg List.length hparts
      rw [List.length_append] at hlength
      have hbehind := h.past hparts
      obtain ⟨text, hsource, hsource'⟩ := h.exists_sourceText hparts hanchored
      have hend : headerEnd i [.angle] endsConformance s = some (s.pos + c.conformance.1.length) :=
        headerEnd_eq h _ _
      refine .get (.access hend (.moveTo (.access hsource ?_)))
      simp only [Cursor.conformancesFrom, hsource']
      split
      · refine .get ?_
        rw [hbehind.fail]
        exact .error hbehind _
      · rcases hbehind.run_takeMark ',' with ⟨c', hcomma, hrun, hc'⟩ | ⟨hcomma, hrun⟩
        · obtain ⟨t, hrest, -⟩ := Cursor.mark?_eq_some_iff.1 hcomma
          have hshorter : c.conformance.2.length = c'.rest.length + 1 := congrArg List.length hrest
          refine .of_run hrun ?_
          simp only [hcomma, if_true]
          exact ih _ hc' (by omega) (by omega)
        · refine .of_run hrun ?_
          simp only [hcomma, Bool.false_eq_true, if_false]
          exact .ok hbehind _

/-- The conformances behind the name, with a where clause still to be looked for. -/
theorem exists_run_conformances (h : Stands i room least s c) (hangle : c.atMark '<' = false) :
    ∃ y n c', (conformances i).run.run s = some (y, s.to n) ∧ Stands i room least (s.to n) c' ∧
      c.header i.source = some (withoutClause (y, c')) := by
  rcases h.run_takeMark ':' with ⟨c₁, hcolon, hrun, hc₁⟩ | ⟨hcolon, hrun⟩
  · obtain ⟨y, n, c', hrun', hr, hc'⟩ :=
      headsTo_conformancesFrom hanchored [] hc₁ hc₁.length_lt (Nat.lt_succ_self _)
    refine ⟨y, n, c', (run_bind_of_ok hrun).trans hrun', hc', ?_⟩
    simp only [Cursor.header, hangle, Bool.false_eq_true, if_false, hcolon, hr]
    cases y with
    | error f => rfl
    | ok texts =>
        simp only [withoutClause]
        split <;> rfl
  · refine ⟨.ok [], s.pos, c, run_bind_of_ok hrun, h, ?_⟩
    simp only [Cursor.header, hangle, Bool.false_eq_true, if_false, hcolon, withoutClause]
    split <;> rfl

theorem headsTo_header (h : Stands i room least s c) :
    HeadsTo i room least s (header i) (c.header i.source) := by
  refine .get ?_
  rw [h.atMark, h.fail]
  cases hangle : c.atMark '<' with
  | true =>
      rw [Cursor.header, hangle, if_pos rfl]
      exact .error h _
  | false =>
      obtain ⟨y, n, c', hrun, hc', hr⟩ := exists_run_conformances hanchored h hangle
      rw [hr, if_neg Bool.false_ne_true]
      cases y with
      | error f => exact ⟨.error f, n, c', run_bind_of_error hrun, rfl, hc'⟩
      | ok texts =>
          refine .of_run hrun (.get ?_)
          simp only [hc'.atWord, hc'.fail, withoutClause]
          split
          · exact .error hc' _
          · exact .ok hc' _

end Headers

/-! ### Declarations -/

/-- Why a declaration cannot be read whose body does not open or does not close. -/
def missing (line : Nat) (opens : Bool) (found : Option TokenKind) :
    Except Failure (List String) → Failure
  | .ok _ =>
    if opens then { reason := .unbalancedBraces, line := line }
    else { reason := .expectedMark '{' found, line := line }
  | .error f => f

/-- Adds to what was read so far. -/
def report (o : Outcome) : Reader Unit := modify (·.add o)

/-- A list with an item inserted at an index, which has to be at most its length. -/
def insertAt? {α : Type} (xs : List α) (index : Nat) (x : α) : Option (List α) :=
  if index ≤ xs.length then some (xs.take index ++ x :: xs.drop index) else none

/-- Reads inside the braces that open at the position and close at an index, one level further
inside, and goes on behind them. -/
def within {α : Type} (close : Nat) (x : Reader α) : Reader (Except Failure α) := do
  let s ← get
  set { s with pos := s.pos + 1, stop := close, depth := s.depth + 1 }
  let r ← attempt x
  let inside ← get
  let depth ← access (minus? inside.depth 1)
  set { inside with pos := close + 1, stop := s.stop, depth := depth }
  return r

/-- Keeps a declaration before those nested inside it, which start at an index, or drops them with
it. -/
def keep (slot : Nat) (entry : Shape → Entry) (reject : Failure → Outcome) :
    Except Failure Shape → Reader Unit
  | .ok shape => do
    let s ← get
    let entries ← access (insertAt? s.outcome.entries slot (entry shape))
    set { s with outcome := { s.outcome with entries := entries } }
  | .error f => do
    let s ← get
    set { s with outcome := { s.outcome with entries := s.outcome.entries.take slot } }
    report (reject f)

section Readers

variable (i : Input)

/-- Moves behind comments. -/
def skipComments : (fuel : Nat) → Reader Unit
  | 0 => access none
  | fuel + 1 => do
    let s ← get
    if (i.next? s).any Token.isComment then
      moveTo (s.pos + 1)
      skipComments fuel
    else return ()

/-- Moves behind what is left of a header that cannot be read. -/
def resume : Except Failure (List String) → Reader Unit
  | .ok _ => return ()
  | .error _ => skipHeaderRest i

/-- The index of the brace that closes a body, if one opens at the position of a state. -/
def bodyEnd (s : State) : Option (Option Nat) :=
  if i.atMark s '{' then i.closing? s.stop s.pos else some none

/-- Reads a body into the shape of a declaration. -/
def body (markerPrefix : String) (nested : Form → List String → Reader Unit) (form : Form)
    (conformances : List String) : Reader Shape :=
  match form with
  | .contract => do
    let contract ← contractBody i
    return .contract { contract with inherits := conformances }
  | .value form => do
    let value ← valueBody i markerPrefix nested form
    return .value { value with conformances := conformances }
  | .enumeration => do
    let e ← enumerationBody i markerPrefix nested
    return .enumeration { e with conformances := conformances }

/-- Reads the body of a declaration whose head was read up to a state, given a reader of its body,
and keeps the declaration or rejects it. -/
def settle (line : Nat) (entry : Shape → Entry) (reject : Failure → Outcome) (behind : State)
    (read : List String → Reader Shape) (headed : Except Failure (List String)) : Reader Unit := do
  let opening ← get
  match ← access (bodyEnd i opening), headed with
  | none, headed => do
    moveTo (if i.atMark opening '{' then opening.stop else behind.pos)
    report (reject (missing line (i.atMark opening '{') (i.found opening) headed))
  | some close, .error f => do
    moveTo (close + 1)
    report (reject f)
  | some close, .ok conformances =>
    if maxNesting ≤ opening.depth then do
      moveTo (close + 1)
      report (reject { reason := .declarationNesting, line := line })
    else do
      let shape ← within close (read conformances)
      keep opening.outcome.entries.length entry reject shape

/-- Reads the declaration that the keyword at the position opens. -/
def declaration (unit markerPrefix : String) :
    (fuel : Nat) → Option String → Form → List String → Reader Unit
  | 0, _, _, _ => access none
  | fuel + 1, parent, form, markers => do
    let s ← get
    moveTo (s.pos + 1)
    match ← attempt (expectName i form.keyword) with
    | .error f => do
      report (Outcome.nameless (parent.getD unit) f)
      skipStatement i
    | .ok name => do
      let name := Cursor.qualified parent name
      let line := i.line s
      let headed ← attempt (header i)
      resume i headed
      let behind ← get
      skipComments i (i.tokens.length + 1)
      settle i line (fun shape => Entry.mk { name, parent, unit, line, shape } markers)
        (Outcome.reject name parent markers) behind
        (body i markerPrefix (declaration unit markerPrefix fuel (some name)) form) headed

end Readers

section Bodies

variable {i : Input} {room least : Nat} {s : State} {c : Cursor}

theorem Yields.map {α β : Type} {o : Outcome} {x : Reader α} {r : BodyResult α}
    (h : Yields id o s x r) (view : α → β) :
    Yields id o s (do let y ← x; return view y) (r.map fun p => (p.1, p.2.map view)) := by
  obtain ⟨y, o', n, hrun, rfl⟩ := h
  cases y with
  | ok y => exact ⟨.ok (view y), o', n, run_bind_of_ok hrun, rfl⟩
  | error f => exact ⟨.error f, o', n, run_bind_of_error hrun, rfl⟩

theorem yields_body (hanchored : Anchored i.source i.tokens)
    {nested : Form → List String → Reader Unit} {nested' : NestedReader}
    (hnested : Declares i room nested nested') (markerPrefix : String) (form : Form)
    (conformances : List String) (h : Stands i room least s c) :
    Yields id {} s (body i markerPrefix nested form conformances)
      (c.body i.source markerPrefix room nested' form conformances) := by
  cases form with
  | contract => exact (yields_contractBody hanchored h).map _
  | value form => exact (yields_valueBody hanchored hnested markerPrefix form h).map _
  | enumeration => exact (yields_enumerationBody hnested markerPrefix h).map _

/-- A name is read where a word is next. -/
theorem Stands.run_expectName (h : Stands i room least s c) (role : String) :
    (∃ f, c.expectName role = .error f ∧ (expectName i role).run.run s = some (.error f, s)) ∨
    ∃ w, c.expectName role = .ok (w, c.advance) ∧
      (expectName i role).run.run s = some (.ok w, s.to (s.pos + 1)) ∧
      Stands i room least (s.to (s.pos + 1)) c.advance := by
  rw [expectName, run_bind_of_ok (run_get s), h.word?, h.found, h.fail, Cursor.expectName]
  cases hword : c.word? with
  | none => exact .inl ⟨_, rfl, rfl⟩
  | some w => exact .inr ⟨w, rfl, rfl, h.advance (next?_isSome_of_word? hword)⟩

theorem movesTo_resume (h : Stands i room least s c) (headed : Except Failure (List String)) :
    MovesTo i room least s (resume i headed) (Cursor.resume (headed, c)) := by
  cases headed with
  | ok texts => exact .stay h
  | error f => exact movesTo_skipHeaderRest h

theorem movesTo_skipComments {fuel : Nat} (h : Stands i room least s c)
    (hfuel : c.rest.length < fuel) : MovesTo i room least s (skipComments i fuel) c.skipComments := by
  induction fuel generalizing s c with
  | zero => cases hfuel
  | succ fuel ih =>
      obtain ⟨prev, rest⟩ := c
      refine .get ?_
      rw [h.next?]
      cases rest with
      | nil => exact .stay h
      | cons t ts =>
          cases hcomment : t.isComment with
          | true =>
              have hskip : Cursor.skipComments ⟨prev, t :: ts⟩ = Cursor.skipComments ⟨some t, ts⟩ := by
                simp [Cursor.skipComments, Cursor.past, hcomment, List.getLast?_cons]
              have hadvance : Stands i room least (s.to (s.pos + 1)) ⟨some t, ts⟩ := h.advance rfl
              simp only [Cursor.next?, List.head?_cons, Option.any_some, hcomment, if_true, hskip]
              exact .moveTo (ih hadvance (Nat.lt_of_succ_lt_succ hfuel))
          | false =>
              have hskip : Cursor.skipComments ⟨prev, t :: ts⟩ = ⟨prev, t :: ts⟩ := by
                simp [Cursor.skipComments, Cursor.past, hcomment]
              simp only [Cursor.next?, List.head?_cons, Option.any_some, hcomment, hskip,
                Bool.false_eq_true, if_false]
              exact .stay h

/-- The braces at the position close at the same place. -/
theorem bodyEnd_eq (h : Stands i room least s c) :
    bodyEnd i s = some (c.block?.map fun parts => s.pos + 1 + parts.1.length) := by
  rw [bodyEnd, h.atMark, Cursor.block?]
  cases hrest : c.rest with
  | nil => simp [Cursor.atMark, Cursor.next?, hrest]
  | cons t ts =>
      simp only [Cursor.atMark, Cursor.next?, hrest, List.head?_cons, Option.any_some]
      split
      · next hmark =>
          have hopen : Group.opened? [.curly, .round, .square, .angle] t =
              some { bracket := .curly } := by
            simp [Group.opened?, Bracket.opener, hmark]
          exact h.closing? hrest hopen
      · rfl

/-- The inside of the braces at the position is a region of its own, one level further inside. -/
theorem Stands.within {t close : Token} {ts inside after : List Token} {g : Group}
    (h : Stands i (room + 1) least s c) (hrest : c.rest = t :: ts)
    (hsplit : g.split ts = some (inside, close, after)) :
    Stands i room 0 { s with
      pos := s.pos + 1, stop := s.pos + 1 + inside.length, depth := s.depth + 1 }
      ⟨some t, inside⟩ := by
  obtain ⟨before, behind, htokens, hpos, -⟩ := h.parts
  have hdepth := h.depth
  refine ⟨⟨before ++ [t], close :: after ++ behind, ?_, ?_, ?_, ?_, ?_⟩, ?_, Nat.zero_le _⟩
  · rw [htokens, hrest, ← Group.split_append hsplit]
    simp
  · simp [hpos]
  · simp [hpos]
  · simp
  · simp
  · simp only
    omega

end Bodies

section Run

variable {α : Type} {s : State}

theorem run_report (o : Outcome) (s : State) : (report o).run.run s = some (.ok (), s.add o) := rfl

theorem run_moveTo_report (n : Nat) (o : Outcome) (s : State) :
    (do moveTo n; report o : Reader Unit).run.run s = some (.ok (), (s.to n).add o) := rfl

/-- Behind a body, the region around it is taken up again. -/
theorem run_within {x : Reader α} {close n : Nat} {r : Except Failure α} {o : Outcome}
    (h : x.run.run { s with pos := s.pos + 1, stop := close, depth := s.depth + 1 } =
      some (r, { pos := n, stop := close, depth := s.depth + 1, outcome := s.outcome ++ o })) :
    (within close x).run.run s = some (.ok r, (s.to (close + 1)).add o) := by
  change (attempt x >>= _ : Reader _).run.run
    { s with pos := s.pos + 1, stop := close, depth := s.depth + 1 } = _
  rw [run_bind_of_ok (run_attempt h), run_bind_of_ok (run_get _),
    run_bind_of_ok (run_access (minus?_add s.depth 1) _)]
  rfl

/-- A declaration is kept or dropped together with those nested inside it. -/
theorem run_keep (entry : Shape → Entry) (reject : Failure → Outcome) (s : State) (o : Outcome)
    (result : Except Failure Shape) :
    (keep s.outcome.entries.length entry reject result).run.run (s.add o) =
      some (.ok (), s.add (Cursor.declared entry reject o result)) := by
  cases result with
  | ok shape =>
      have hinsert : insertAt? (s.add o).outcome.entries s.outcome.entries.length (entry shape) =
          some (s.outcome.entries ++ entry shape :: o.entries) := by
        simp [insertAt?]
      rw [keep, run_bind_of_ok (run_get _), run_bind_of_ok (run_access hinsert _)]
      rfl
  | error f =>
      have hdropped : Outcome.mk ((s.add o).outcome.entries.take s.outcome.entries.length)
          (s.add o).outcome.problems (s.add o).outcome.rejected =
            s.outcome ++ { o with entries := [] } := by
        change _ = Outcome.mk _ _ _
        simp
      rw [keep, run_bind_of_ok (run_get _), hdropped, Cursor.declared, ← State.add_add]
      rfl

end Run

section Settled

variable {unit markerPrefix : String} {source : List Char} {room : Nat} {parent : Option String}
  {form : Form} {markers : List String} {name : String} {c c₁ : Cursor}

/-- A declaration whose body does not open or does not close is rejected. -/
theorem declaration_of_missing {headed : Except Failure (List String)}
    (hheads : Cursor.Heads source form c name headed c₁) (hblock : c₁.skipComments.block? = none) :
    Cursor.declaration unit source markerPrefix room parent form markers c =
      some (Outcome.reject (Cursor.qualified parent name) parent markers
          (missing c.line (c₁.skipComments.atMark '{') c₁.skipComments.found headed),
        if c₁.skipComments.atMark '{' then c₁.skipComments.toEnd else c₁) := by
  obtain ⟨behind, after, hname, hheader, rfl⟩ := hheads
  rw [Cursor.declaration.eq_def]
  simp only [hname, hheader]
  cases headed with
  | ok conformances =>
      simp only [Cursor.resume, Cursor.block?, missing] at hblock ⊢
      cases hrest : after.skipComments.rest with
      | nil => simp [Cursor.atMark, Cursor.found, Cursor.next?, hrest]
      | cons t ts =>
          rw [hrest] at hblock
          cases hmark : t.isMark '{' with
          | false => simp [Cursor.atMark, Cursor.found, Cursor.next?, hrest, hmark]
          | true =>
              have hsplit : Group.split ⟨.curly, 0⟩ ts = none := by simpa [hmark] using hblock
              simp [Cursor.atMark, Cursor.next?, hrest, hmark, hsplit]
  | error f =>
      simp only [Cursor.resume, Cursor.block?, missing] at hblock ⊢
      cases hrest : after.skipHeaderRest.skipComments.rest with
      | nil => simp [Cursor.atMark, Cursor.next?, hrest]
      | cons t ts =>
          rw [hrest] at hblock
          cases hmark : t.isMark '{' with
          | false => simp [Cursor.atMark, Cursor.next?, hrest, hmark]
          | true =>
              have hsplit : Group.split ⟨.curly, 0⟩ ts = none := by simpa [hmark] using hblock
              simp [Cursor.atMark, Cursor.next?, hrest, hmark, hsplit]

/-- A declaration with a body behind a header that cannot be read is rejected. -/
theorem declaration_of_unread {f : Failure} {inside after : List Token} {close : Token}
    (hheads : Cursor.Heads source form c name (.error f) c₁)
    (hblock : c₁.skipComments.block? = some (inside, close, after)) :
    Cursor.declaration unit source markerPrefix room parent form markers c =
      some (Outcome.reject (Cursor.qualified parent name) parent markers f,
        ⟨some close, after⟩) := by
  obtain ⟨behind, after', hname, hheader, rfl⟩ := hheads
  obtain ⟨t, ts, hrest, hmark, hsplit⟩ := Cursor.block?_eq_some_iff.1 hblock
  simp only [Cursor.resume] at hrest
  rw [Cursor.declaration.eq_def]
  simp only [hname, hheader, hrest, hmark, hsplit]
  rfl

/-- A declaration is rejected where no room is left. -/
theorem declaration_of_deep {conformances : List String} {inside after : List Token}
    {close : Token} (hheads : Cursor.Heads source form c name (.ok conformances) c₁)
    (hblock : c₁.skipComments.block? = some (inside, close, after)) :
    Cursor.declaration unit source markerPrefix 0 parent form markers c =
      some (Outcome.reject (Cursor.qualified parent name) parent markers
        { reason := .declarationNesting, line := c.line }, ⟨some close, after⟩) := by
  obtain ⟨behind, after', hname, hheader, rfl⟩ := hheads
  obtain ⟨t, ts, hrest, hmark, hsplit⟩ := Cursor.block?_eq_some_iff.1 hblock
  rw [Cursor.declaration.eq_def]
  simp only [hname, hheader, hrest, hmark, hsplit]
  rfl

/-- A declaration is kept or rejected as its body says. -/
theorem declaration_of_body {conformances : List String} {inside after ts : List Token}
    {t close : Token} (hheads : Cursor.Heads source form c name (.ok conformances) c₁)
    (hrest : c₁.skipComments.rest = t :: ts) (hmark : t.isMark '{' = true)
    (hsplit : Group.split { bracket := .curly } ts = some (inside, close, after)) {o : Outcome}
    {result : Except Failure Shape}
    (hbody : Cursor.body source markerPrefix room (Cursor.declaration unit source markerPrefix room
      (some (Cursor.qualified parent name))) form conformances ⟨some t, inside⟩ =
        some (o, result)) :
    Cursor.declaration unit source markerPrefix (room + 1) parent form markers c =
      some (Cursor.declared
          (fun shape => Entry.mk
            { name := Cursor.qualified parent name, parent, unit, line := c.line, shape } markers)
          (Outcome.reject (Cursor.qualified parent name) parent markers) o result,
        ⟨some close, after⟩) := by
  obtain ⟨behind, after', hname, hheader, rfl⟩ := hheads
  rw [Cursor.declaration.eq_def]
  simp only [hname, hheader, hrest, hmark, hsplit, hbody]
  rfl

end Settled

section Declarations

variable {i : Input} {unit markerPrefix : String} {room : Nat} {parent : Option String}
  {form : Form} {markers : List String} {name : String} {c c₁ : Cursor} {s : State}
  {least line : Nat} {headed : Except Failure (List String)}

/-- Behind the head of a declaration, its body is read and the declaration kept or rejected alike. -/
theorem exists_run_settle (hheads : Cursor.Heads i.source form c name headed c₁)
    (hline : line = c.line) {behind : State} (hbehind : Stands i room least (s.to behind.pos) c₁)
    (h : Stands i room least s c₁.skipComments) {read : List String → Reader Shape}
    (hread : ∀ (conformances : List String) ⦃least room' s' c'⦄, room = room' + 1 →
      Stands i room' least s' c' → Yields id {} s' (read conformances)
        (c'.body i.source markerPrefix room' (Cursor.declaration unit i.source markerPrefix room'
          (some (Cursor.qualified parent name))) form conformances)) :
    ∃ o n c', (settle i line (fun shape => Entry.mk
        { name := Cursor.qualified parent name, parent, unit, line, shape } markers)
        (Outcome.reject (Cursor.qualified parent name) parent markers) behind read
        headed).run.run s = some (.ok (), (s.to n).add o) ∧
      Cursor.declaration unit i.source markerPrefix room parent form markers c = some (o, c') ∧
      Stands i room least (s.to n) c' := by
  subst hline
  have hend := bodyEnd_eq h
  rw [settle, run_bind_of_ok (run_get s), run_bind_of_ok (run_access hend s)]
  cases hblock : c₁.skipComments.block? with
  | none =>
      refine ⟨_, _, if c₁.skipComments.atMark '{' then c₁.skipComments.toEnd else c₁,
        run_moveTo_report _ _ s, ?_⟩
      rw [h.atMark, h.found]
      refine ⟨declaration_of_missing hheads hblock, ?_⟩
      split
      · exact h.toEnd
      · exact hbehind
  | some parts =>
      obtain ⟨inside, close, after⟩ := parts
      obtain ⟨t, ts, hrest, hmark, hsplit⟩ := Cursor.block?_eq_some_iff.1 hblock
      have hclose := h.close hrest hsplit
      have hdepth := h.depth
      cases headed with
      | error f =>
          exact ⟨_, _, _, run_moveTo_report _ _ s, declaration_of_unread hheads hblock, hclose⟩
      | ok conformances =>
          cases room with
          | zero =>
              simp only [Option.map_some]
              rw [if_pos (by omega)]
              exact ⟨_, _, _, run_moveTo_report _ _ s, declaration_of_deep hheads hblock, hclose⟩
          | succ room =>
              simp only [Option.map_some]
              rw [if_neg (by omega)]
              obtain ⟨result, o, n, hrun, hr⟩ :=
                hread conformances rfl (h.within hrest hsplit)
              have hbody : Cursor.body i.source markerPrefix room (Cursor.declaration unit i.source
                  markerPrefix room (some (Cursor.qualified parent name))) form conformances
                    ⟨some t, inside⟩ = some (o, result) := by
                rw [hr]
                cases result <;> rfl
              refine ⟨_, _, _, ?_, declaration_of_body hheads hrest hmark hsplit hbody, hclose⟩
              rw [run_bind_of_ok (run_within hrun)]
              exact run_keep _ _ (s.to (s.pos + 1 + inside.length + 1)) o result

variable (hanchored : Anchored i.source i.tokens) (unit markerPrefix)

include hanchored

/-- **Declarations are the same**, with those nested inside them. -/
theorem declares_declaration {fuel : Nat} (hfuel : room < fuel) (parent : Option String) :
    Declares i room (declaration i unit markerPrefix fuel parent)
      (Cursor.declaration unit i.source markerPrefix room parent) := by
  induction fuel generalizing room parent with
  | zero => cases hfuel
  | succ fuel ih =>
      intro form markers least s c h hnext
      have hkeyword := (h.advance hnext).raise (Nat.le_refl _)
      have hmove : (moveTo (s.pos + 1) : Reader Unit).run.run s =
          some (.ok (), s.to (s.pos + 1)) := rfl
      rw [declaration, run_bind_of_ok (run_get s), run_bind_of_ok hmove]
      rcases hkeyword.run_expectName form.keyword with
        ⟨f, hname, hrun⟩ | ⟨name, hname, hrun, hc₁⟩
      · let o := Outcome.nameless (parent.getD unit) f
        obtain ⟨k, hskip, hc'⟩ := movesTo_skipStatement (hkeyword.add o)
        refine ⟨o, k, c.advance.skipStatement, ?_, Cursor.declaration_of_nameless hname,
          hc'.parts, hc'.depth, hc'.least⟩
        rw [run_bind_of_ok (run_attempt hrun)]
        simp only
        rw [run_bind_of_ok (run_report o _), hskip]
        rfl
      · obtain ⟨headed, n, c₂, hhead, hheader, hc₂⟩ := headsTo_header hanchored hc₁
        obtain ⟨m, hresume, hc₃⟩ := movesTo_resume hc₂ headed
        obtain ⟨k, hskip, hc₄⟩ := movesTo_skipComments hc₃ hc₃.length_lt
        rw [run_bind_of_ok (run_attempt hrun)]
        simp only
        rw [run_bind_of_ok (run_attempt hhead), run_bind_of_ok hresume, run_bind_of_ok (run_get _),
          run_bind_of_ok hskip]
        refine exists_run_settle ⟨_, _, hname, hheader, rfl⟩ h.line hc₃ hc₄ ?_
        rintro conformances least' room' s' c' rfl hs'
        exact yields_body hanchored (ih (Nat.lt_of_succ_lt_succ hfuel) _) markerPrefix form
          conformances hs'

end Declarations

/-! ### Units -/

section Readers

variable (i : Input)

/-- Reads one item of a unit, and yields the markers for the next one. -/
def item (markerPrefix : String) (nested : Form → List String → Reader Unit)
    (markers : List String) (t : Token) : Reader (List String) := do
  let s ← get
  match t.kind with
  | .comment text => do
    moveTo (s.pos + 1)
    return markers ++ markersIn markerPrefix text
  | .mark '@' => do
    skipAttribute i
    return markers
  | .word w =>
    if modifiers.contains w then do
      skipModifier i
      return markers
    else
      match Form.ofKeyword? w with
      | some form => do
        nested form markers
        return []
      | none => do
        skipStatement i
        return []
  | _ => do
    skipStatement i
    return []

/-- Reads the items of a unit. -/
def items (unit markerPrefix : String) : Reader (List String) :=
  itemsFrom i (item i markerPrefix (declaration i unit markerPrefix (maxNesting + 1) none))
    (i.tokens.length + 1) []

end Readers

/-- The outcome of a unit. -/
def read (markerPrefix : String) (u : Source) : Option Outcome := do
  match ← tokenize u.text with
  | .error e => some (Outcome.nameless u.name { reason := .unclosed e, line := e.line })
  | .ok tokens => do
    let r ← (items ⟨u.text.toList, tokens⟩ u.name markerPrefix).run.run
      { pos := 0, stop := tokens.length }
    some r.2.outcome

section Units

variable {i : Input} {room least : Nat} {s : State} {c : Cursor} {t : Token}
  {nested : Form → List String → Reader Unit} {nested' : NestedReader}
  (hnested : Declares i room nested nested') (markerPrefix : String)

include hnested

theorem exists_run_item (markers : List String) (h : Stands i room least s c)
    (hnext : c.next? = some t) :
    ∃ markers' o n c', (item i markerPrefix nested markers t).run.run s =
        some (.ok markers', (s.to n).add o) ∧
      c.item nested' markerPrefix markers t = some (markers', o, c') ∧
      Stands i room (s.pos + 1) (s.to n) c' := by
  have hsome : c.next?.isSome = true := by rw [hnext]; rfl
  have hmoves : ∀ {x : Reader Unit} {c' : Cursor} (markers' : List String),
      MovesTo i room (s.pos + 1) s x c' →
        ∃ ms o n c₁, (do x; return markers' : Reader (List String)).run.run s =
            some (.ok ms, (s.to n).add o) ∧
          some (markers', ({} : Outcome), c') = some (ms, o, c₁) ∧
          Stands i room (s.pos + 1) (s.to n) c₁ := by
    rintro x c' markers' ⟨n, hrun, hc'⟩
    refine ⟨markers', {}, n, c', ?_, rfl, hc'⟩
    rw [run_bind_of_ok hrun, State.add_empty]
    rfl
  rw [item, run_bind_of_ok (run_get s)]
  split
  · next text hkind =>
      simp only [Cursor.item, hkind]
      exact hmoves _ (movesTo_moveTo ((h.advance hsome).raise (Nat.le_refl _)))
  · next hkind =>
      simp only [Cursor.item, hkind]
      exact hmoves _ (movesTo_skipAttribute h hsome)
  · next w hkind =>
      simp only [Cursor.item, hkind]
      split
      · exact hmoves _ (movesTo_skipModifier h hsome)
      cases hform : Form.ofKeyword? w with
      | some form =>
          obtain ⟨o, n, c', hrun, hr, hc'⟩ := hnested h hsome
          refine ⟨[], o, n, c', run_bind_of_ok hrun, ?_, hc'⟩
          simp only [hr]
          rfl
      | none => exact hmoves _ (movesTo_skipStatement_of_next? h hsome)
  · next hcomment hattribute hword =>
      rw [Cursor.item]
      split
      · next text hkind => exact absurd hkind (hcomment text)
      · next hkind => exact absurd hkind hattribute
      · next w hkind => exact absurd hkind (hword w)
      · exact hmoves _ (movesTo_skipStatement_of_next? h hsome)

theorem exists_run_itemsFrom {fuel fuel' : Nat} (markers : List String)
    (h : Stands i room least s c) (hfuel : c.rest.length < fuel) (hfuel' : c.rest.length < fuel') :
    ∃ markers' o n, (itemsFrom i (item i markerPrefix nested) fuel markers).run.run s =
        some (.ok markers', (s.to n).add o) ∧
      Cursor.itemsFrom nested' markerPrefix fuel' markers c = some o := by
  induction fuel generalizing fuel' markers least s c with
  | zero => cases hfuel
  | succ fuel ih =>
      obtain ⟨fuel', rfl⟩ : ∃ n, fuel' = n + 1 := ⟨fuel' - 1, by omega⟩
      have hget := h.next?
      cases hnext : c.next? with
      | none =>
          rw [hnext] at hget
          refine ⟨markers, {}, s.pos, ?_, ?_⟩
          · rw [run_itemsFrom_of_none hget, State.add_empty, State.to_pos]
          · simp only [Cursor.itemsFrom, hnext]
      | some t =>
          rw [hnext] at hget
          obtain ⟨markers', o, n, c', hrun, hr, hc'⟩ :=
            exists_run_item hnested markerPrefix markers h hnext
          have hlength := Nears.length_lt (.inl hc') h (by rw [hnext]; rfl)
          have hfewer : c'.rest.length < fuel' := by omega
          obtain ⟨markers'', o', m, hrun', hr'⟩ := ih markers' (hc'.add o) (by omega) hfewer
          refine ⟨markers'', o ++ o', m, ?_, ?_⟩
          · rw [run_itemsFrom_of_ok hget hrun, hrun', State.add_to, State.to_to, State.add_add]
          · simp only [Cursor.itemsFrom, hnext, hr, hr']

end Units

/-- No access fails where a unit is read, and the outcome is that of the unit. -/
theorem read_eq (markerPrefix : String) (u : Source) :
    read markerPrefix u = some (u.read markerPrefix) := by
  rw [read, tokenize_eq, Source.read, Source.read?]
  simp only [Option.bind_eq_bind, Option.bind_some]
  cases htokens : Scaffold.tokenize u.text with
  | error e => rfl
  | ok tokens =>
      have hstart := stands_start u.text.toList tokens
      have hnested := declares_declaration (i := ⟨u.text.toList, tokens⟩) u.name markerPrefix
        (anchored_tokenize htokens) (Nat.lt_succ_self maxNesting) none
      obtain ⟨markers, o, n, hrun, hr⟩ := exists_run_itemsFrom hnested markerPrefix [] hstart
        hstart.length_lt (Nat.lt_succ_self _)
      have hitems : (items ⟨u.text.toList, tokens⟩ u.name markerPrefix).run.run
          { pos := 0, stop := tokens.length } = _ := hrun
      simp only [hitems, Option.bind_some, Cursor.items, hr, Option.getD_some]
      rfl

/-- **No access fails**: where a text is lexed, read as a type, or read as a unit by positions, every
slice lies within the text and ends between characters, every index and every part of the list of
tokens is in range, and no depth goes below zero; and what is read is the same. -/
theorem reading_never_fails (markerPrefix : String) (u : Source) :
    tokenize u.text = some (Scaffold.tokenize u.text) ∧
      parseType u.text = some (TypeRef.parse u.text) ∧
      read markerPrefix u = some (u.read markerPrefix) :=
  ⟨tokenize_eq u.text, parseType_eq u.text, read_eq markerPrefix u⟩

end Scaffold.Checked
