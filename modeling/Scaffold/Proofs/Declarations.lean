/-
**Reading back declarations.**

A declaration is read from its keyword to the brace that closes its body.  The words of its header
are copied from the source, so that its tokens have to stand where the row places them in the text;
its body ends where the braces balance.

Main definitions:

* `Scaffold.Placed` — the tokens of a row that is part of a text;
* `Scaffold.Covers` — tokens that reach from one place in a text to another;
* `Scaffold.isConformance` — a dotted name that a declaration can conform to;
* `Scaffold.Balanced` — a row that leaves an open group of brackets as it is;
* `Scaffold.declarationPieces` — the row of a declaration with conformances.

Main results:

* `Scaffold.split_of_leavesOpen` — a group ends behind tokens whose brackets balance;
* `Scaffold.header_of_placed` — conformances are read back;
* `Scaffold.declaration_of_header` — **a declaration is read back** if its header and its body are.
-/

import Scaffold.Proofs.Signatures
import Scaffold.Source.Unit

set_option relaxedAutoImplicit false
set_option autoImplicit false

namespace Scaffold

open Text

/-! ### Places in a text -/

/-- The tokens of a row that is part of a text and starts on a line. -/
def Placed (source : List Char) (line : Nat) (ts : List Token) (ps : List Piece) : Prop :=
  ∃ before after, source = before ++ rowText ps ++ after ∧ ts = lay (byteSize before) line ps

namespace Placed

variable {source : List Char} {line : Nat} {ts : List Token} {ps qs : List Piece}

theorem spells (h : Placed source line ts ps) : Spells ts ps := by
  obtain ⟨before, after, -, rfl⟩ := h
  exact spells_lay _ _ _

/-- Two rows one behind the other. -/
theorem append (h : Placed source line ts (ps ++ qs)) :
    ∃ us vs, ts = us ++ vs ∧ Placed source line us ps ∧
      Placed source (line + rowLines ps) vs qs := by
  obtain ⟨before, after, hsource, rfl⟩ := h
  refine ⟨_, _, lay_append _ _ _ _, ⟨before, rowText qs ++ after, ?_, rfl⟩,
    ⟨before ++ rowText ps, after, ?_, by rw [byteSize_append]⟩⟩
  · simp [hsource]
  · simp [hsource]

/-- The first token of a row whose first piece is a token. -/
theorem cons {p : Piece} {k : TokenKind} (hp : p.kind? = some k)
    (h : Placed source line ts (p :: ps)) :
    ∃ u us, ts = u :: us ∧ u.kind = k ∧ u.line = line ∧ Placed source line [u] [p] ∧
      Placed source (line + p.newlines) us ps := by
  obtain ⟨before, after, hsource, rfl⟩ := h
  refine ⟨⟨k, byteSize before, byteSize before + byteSize p.text, line⟩,
    lay (byteSize before + byteSize p.text) (line + p.newlines) ps, by simp [lay, hp], rfl, rfl,
    ⟨before, rowText ps ++ after, ?_, by simp [lay, hp]⟩,
    ⟨before ++ p.text, after, ?_, by rw [byteSize_append]⟩⟩
  · simp [hsource]
  · simp [hsource]

/-- Blanks are no token. -/
theorem blanks {cs : List Char} (h : Placed source line ts (.blanks cs :: ps)) :
    Placed source (line + cs.count '\n') ts ps := by
  obtain ⟨before, after, hsource, rfl⟩ := h
  refine ⟨before ++ cs, after, ?_, ?_⟩
  · simp [hsource, Piece.text]
  · simp only [byteSize_append]
    rfl

theorem space (h : Placed source line ts (.space :: ps)) : Placed source line ts ps :=
  h.blanks

theorem word {w : String} (h : Placed source line ts (.word w :: ps)) :
    ∃ u us, ts = u :: us ∧ u.kind = .word w ∧ u.line = line ∧ Placed source line [u] [.word w] ∧
      Placed source line us ps := h.cons rfl

theorem mark {c : Char} (h : Placed source line ts (.mark c :: ps)) :
    ∃ u us, ts = u :: us ∧ u.kind = .mark c ∧ u.line = line ∧ Placed source line us ps := by
  obtain ⟨u, us, hts, hu, hline, -, hus⟩ := h.cons (k := .mark c) rfl
  exact ⟨u, us, hts, hu, hline, hus⟩

end Placed

/-- The characters of a name. -/
theorem continuesName_of_mem_plainName {w : String} (h : isPlainName w = true) {c : Char}
    (hc : c ∈ w.toList) : continuesName c = true := by
  simp only [isPlainName] at h
  cases hw : w.toList with
  | nil => simp [hw] at hc
  | cons d ds =>
      simp only [hw, Bool.and_eq_true, List.all_eq_true] at h
      rw [hw] at hc
      rcases List.mem_cons.1 hc with rfl | hc
      · exact continuesName_of_startsName h.1
      · exact h.2 c hc

theorem isBlank_of_mem_plainName {w : String} (h : isPlainName w = true) {c : Char}
    (hc : c ∈ w.toList) : isBlank c = false :=
  isBlank_of_continuesName (continuesName_of_mem_plainName h hc)

theorem plainName_ne_empty {w : String} (h : isPlainName w = true) : w.isEmpty = false := by
  cases hw : w.isEmpty with
  | false => rfl
  | true =>
      rw [String.isEmpty_iff] at hw
      subst hw
      exact absurd h (by decide)

/-! ### Rows on one line -/

/-- The tokens of a row without line ends are on one line. -/
theorem line_of_mem_lay {offset line : Nat} {ps : List Piece} (hps : ∀ p ∈ ps, p.newlines = 0) :
    ∀ t ∈ lay offset line ps, t.line = line := by
  induction ps generalizing offset with
  | nil => simp
  | cons p ps ih =>
      have hrest := @ih (offset + byteSize p.text) fun q hq => hps q (List.mem_cons_of_mem _ hq)
      rw [lay, hps p (by simp), Nat.add_zero]
      cases p.kind? with
      | none => exact hrest
      | some k => exact List.forall_mem_cons.2 ⟨rfl, hrest⟩

theorem rowLines_eq_zero {ps : List Piece} (hps : ∀ p ∈ ps, p.newlines = 0) : rowLines ps = 0 := by
  induction ps with
  | nil => rfl
  | cons p ps ih =>
      rw [rowLines, hps p (by simp), ih fun q hq => hps q (List.mem_cons_of_mem _ hq)]

/-- Every token that spells a row is that of a piece. -/
theorem Spells.exists_piece {ts : List Token} {ps : List Piece} (h : Spells ts ps) :
    ∀ t ∈ ts, ∃ p ∈ ps, p.kind? = some t.kind := by
  intro t ht
  have hmem : t.kind ∈ ps.filterMap Piece.kind? := h ▸ List.mem_map_of_mem ht
  exact List.mem_filterMap.1 hmem

/-- Tokens reach from one byte offset to another, and no comment is at the end. -/
def Covers (start stop : Nat) (ts : List Token) : Prop :=
  ts.head?.map Token.start = some start ∧
    ∃ t, ts.getLast? = some t ∧ t.isComment = false ∧ t.stop = stop

/-- The source text of tokens that cover a part of the text is this part. -/
theorem sourceText?_of_covers {before cs after : List Char} {ts : List Token}
    (h : Covers (byteSize before) (byteSize before + byteSize cs) ts)
    (htrim : trimChars cs = cs) :
    sourceText? (before ++ cs ++ after) ts = some (String.ofList cs) := by
  obtain ⟨hhead, last, hlast, hcomment, hstop⟩ := h
  obtain ⟨first, hfirst, hstart⟩ := Option.map_eq_some_iff.1 hhead
  have hfind : (ts.reverse.find? fun t => !t.isComment) = some last := by
    rw [List.getLast?_eq_head?_reverse] at hlast
    obtain ⟨us, hus⟩ := List.head?_eq_some_iff.1 hlast
    simp [hus, hcomment]
  simp only [sourceText?, hfirst, hfind, hstart, hstop, slice?_append, Option.map_some, htrim]

/-- A row that starts and ends with a word covers its text. -/
theorem covers_lay (offset line : Nat) {v w : String} {ps qs : List Piece}
    (h : Piece.word v :: ps = qs ++ [.word w]) :
    Covers offset (offset + byteSize (rowText (.word v :: ps)))
      (lay offset line (.word v :: ps)) := by
  refine ⟨rfl, ?_⟩
  rw [h, lay_append]
  refine ⟨⟨.word w, offset + byteSize (rowText qs),
    offset + byteSize (rowText qs) + byteSize w.toList, line + rowLines qs⟩, ?_, rfl, ?_⟩
  · simp [lay, Piece.kind?, Piece.text]
  · simp [Piece.text, Nat.add_assoc]

/-! ### Dotted names -/

/-- A name without dots is its only part. -/
theorem pieces_of_plainName {w : String} (h : isPlainName w = true) : Text.pieces '.' w = [w] := by
  have hdot : '.' ∉ w.toList := by
    intro hmem
    exact absurd (continuesName_of_mem_plainName h hmem) (by decide)
  rw [Text.pieces, List.splitOn_eq_singleton hdot, List.map_singleton, String.ofList_toList]

/-- Whether a text is a dotted name that a declaration can conform to. -/
def isConformance (name : String) : Bool :=
  (Text.pieces '.' name).all fun part => isPlainName part && part != "where"

theorem isConformance_of_plainName {w : String} (h : isPlainName w = true) (hwhere : w ≠ "where") :
    isConformance w = true := by
  simp [isConformance, pieces_of_plainName h, h, hwhere]

theorem isPlainName_of_isConformance {name : String} (h : isConformance name = true) :
    ∀ part ∈ Text.pieces '.' name, isPlainName part = true := by
  intro part hpart
  exact (Bool.and_eq_true_iff.1 (List.all_eq_true.1 h part hpart)).1

/-- The parts of a conformance. -/
theorem exists_parts_of_isConformance {name : String} (h : isConformance name = true) :
    ∃ first parts, namePieces name =
        .word first :: parts.flatMap (fun part => [.mark '.', .word part]) ∧
      ∀ part ∈ first :: parts, isPlainName part = true ∧ part ≠ "where" := by
  simp only [isConformance] at h
  simp only [namePieces]
  cases hp : Text.pieces '.' name with
  | nil => exact absurd hp (pieces_ne_nil '.' name)
  | cons first parts =>
      rw [hp] at h
      exact ⟨first, parts, rfl, by simpa using h⟩

/-- The row of a conformance ends with a word. -/
theorem exists_namePieces_eq_append (first : String) (parts : List String) :
    ∃ qs w, Piece.word first :: parts.flatMap (fun part => [.mark '.', .word part]) =
      qs ++ [Piece.word w] := by
  rcases List.eq_nil_or_concat parts with rfl | ⟨init, last, rfl⟩
  · exact ⟨[], first, rfl⟩
  · exact ⟨.word first :: (init.flatMap (fun part => [.mark '.', .word part]) ++ [.mark '.']), last,
      by simp⟩

theorem conformance_ne_empty {name : String} (h : isConformance name = true) :
    name.isEmpty = false := by
  cases hempty : name.isEmpty with
  | false => rfl
  | true =>
      rw [String.isEmpty_iff] at hempty
      subst hempty
      exact absurd h (by decide)

/-- The source text of a conformance is its name. -/
theorem sourceText?_of_conformance {source : List Char} {line : Nat} {us : List Token}
    {name : String} (hname : isConformance name = true)
    (h : Placed source line us (namePieces name)) : sourceText? source us = some name := by
  obtain ⟨before, after, hsource, rfl⟩ := h
  have htext := rowText_namePieces name
  obtain ⟨first, parts, hrow, hparts⟩ := exists_parts_of_isConformance hname
  obtain ⟨qs, w, hqs⟩ := exists_namePieces_eq_append first parts
  have hcovers := covers_lay (byteSize before) line hqs
  rw [← hrow, htext] at hcovers
  -- no character of a part is a blank, and a dot is none
  have hplain : ∀ c ∈ name.toList, isBlank c = false := by
    intro c hc
    rw [← htext, hrow] at hc
    obtain ⟨p, hp, hc⟩ := List.mem_flatMap.1 hc
    have hword : ∀ part ∈ first :: parts, c ∈ part.toList → isBlank c = false :=
      fun part hpart hc => isBlank_of_mem_plainName (hparts part hpart).1 hc
    rcases List.mem_cons.1 hp with rfl | hp
    · exact hword first (by simp) hc
    · obtain ⟨part, hpart, hp⟩ := List.mem_flatMap.1 hp
      simp only [List.mem_cons, List.not_mem_nil, or_false] at hp
      rcases hp with rfl | rfl
      · rw [List.mem_singleton.1 hc]
        decide
      · exact hword part (List.mem_cons_of_mem _ hpart) hc
  have htrim : trimChars name.toList = name.toList :=
    trimChars_of_ends (fun c hc => hplain c (List.mem_of_mem_head? hc))
      (fun c hc => hplain c (List.mem_of_mem_getLast? hc))
  rw [hsource, htext, sourceText?_of_covers hcovers htrim, String.ofList_toList]

/-! ### Groups in brackets -/

/-- Tokens that leave an open group of a kind as it is. -/
def LeavesOpen (b : Bracket) (ts : List Token) : Prop :=
  ∀ inner rest, Group.split ⟨b, inner⟩ (ts ++ rest) =
    (Group.split ⟨b, inner⟩ rest).map fun parts => (ts ++ parts.1, parts.2)

theorem leavesOpen_nil (b : Bracket) : LeavesOpen b [] := by
  intro inner rest
  simp

theorem LeavesOpen.append {b : Bracket} {ts us : List Token} (ht : LeavesOpen b ts)
    (hu : LeavesOpen b us) : LeavesOpen b (ts ++ us) := by
  intro inner rest
  rw [List.append_assoc, ht, hu, Option.map_map]
  simp [Function.comp_def]

/-- A token that is no bracket of the kind. -/
theorem leavesOpen_singleton {b : Bracket} {t : Token} (hopen : t.kind ≠ .mark b.opener)
    (hclose : t.kind ≠ .mark b.closer) : LeavesOpen b [t] := by
  intro inner rest
  simp [Group.split, Group.step, Token.isMark_eq_false hopen, Token.isMark_eq_false hclose]

/-- A whole group. -/
theorem LeavesOpen.group {b : Bracket} {o c : Token} {ts : List Token} (h : LeavesOpen b ts)
    (ho : o.kind = .mark b.opener) (hc : c.kind = .mark b.closer) :
    LeavesOpen b (o :: (ts ++ [c])) := by
  intro inner rest
  have hne : b.closer ≠ b.opener := by cases b <;> decide
  have hstep : Group.split ⟨b, inner⟩ (o :: (ts ++ c :: rest)) =
      (Group.split ⟨b, inner + 1⟩ (ts ++ c :: rest)).map fun parts => (o :: parts.1, parts.2) := by
    simp [Group.split, Group.step, Token.isMark_of_mark ho]
  have hclose : Group.split ⟨b, inner + 1⟩ (c :: rest) =
      (Group.split ⟨b, inner⟩ rest).map fun parts => (c :: parts.1, parts.2) := by
    simp [Group.split, Group.step, Token.isMark_of_mark hc, hne]
  rw [List.cons_append, List.append_assoc, List.singleton_append, hstep, h, hclose]
  simp [Option.map_map, Function.comp_def]

/-- A row that leaves an open group of a kind as it is. -/
def Balanced (b : Bracket) (ps : List Piece) : Prop := ∀ ts, Spells ts ps → LeavesOpen b ts

theorem Balanced.append {b : Bracket} {ps qs : List Piece} (hp : Balanced b ps)
    (hq : Balanced b qs) : Balanced b (ps ++ qs) := by
  intro ts hts
  obtain ⟨us, vs, rfl, hus, hvs⟩ := spells_append.1 hts
  exact (hp us hus).append (hq vs hvs)

/-- A row without brackets of the kind. -/
theorem balanced_of_forall {b : Bracket} {ps : List Piece}
    (h : ∀ p ∈ ps, p.kind? ≠ some (.mark b.opener) ∧ p.kind? ≠ some (.mark b.closer)) :
    Balanced b ps := by
  induction ps with
  | nil =>
      intro ts hts
      obtain rfl := spells_nil.1 hts
      exact leavesOpen_nil b
  | cons p ps ih =>
      intro ts hts
      have hrest := ih fun q hq => h q (List.mem_cons_of_mem _ hq)
      obtain ⟨hopen, hclose⟩ := h p (by simp)
      cases hk : p.kind? with
      | none =>
          apply hrest
          rw [Spells, List.filterMap_cons_none hk] at hts
          exact hts
      | some k =>
          obtain ⟨u, us, rfl, hu, hus⟩ := (spells_cons hk).1 hts
          rw [hk] at hopen hclose
          have hu' : LeavesOpen b [u] :=
            leavesOpen_singleton (by simpa [hu] using hopen) (by simpa [hu] using hclose)
          exact hu'.append (hrest us hus)

/-- A group whose inside is balanced. -/
theorem Balanced.group {b : Bracket} {ps : List Piece} (h : Balanced b ps) :
    Balanced b (.mark b.opener :: (ps ++ [.mark b.closer])) := by
  intro ts hts
  obtain ⟨o, us, rfl, ho, hus⟩ := spells_mark.1 hts
  obtain ⟨is, vs, rfl, his, hvs⟩ := spells_append.1 hus
  obtain ⟨c, vs, rfl, hc, hvs⟩ := spells_mark.1 hvs
  obtain rfl := spells_nil.1 hvs
  exact (h is his).group ho hc

/-- A group ends behind tokens that leave it open. -/
theorem split_of_leavesOpen {b : Bracket} {ts : List Token} (h : LeavesOpen b ts) {c : Token}
    (hc : c.kind = .mark b.closer) (rest : List Token) :
    Group.split { bracket := b } (ts ++ c :: rest) = some (ts, c, rest) := by
  have hne : b.closer ≠ b.opener := by cases b <;> decide
  have hclose : Group.split { bracket := b } (c :: rest) = some ([], c, rest) := by
    simp [Group.split, Group.step, Token.isMark_of_mark hc, hne]
  rw [h, hclose]
  simp

/-- The place behind a group that a bracket opens. -/
theorem skipGroup_of_balanced {b : Bracket} {ps : List Piece} (h : Balanced b ps)
    {ts rest : List Token} (hts : Spells ts ps) {o c : Token} (ho : o.kind = .mark b.opener)
    (hc : c.kind = .mark b.closer) (prev : Option Token) :
    (⟨prev, o :: (ts ++ c :: rest)⟩ : Cursor).skipGroup = ⟨some c, rest⟩ := by
  have hopened : Group.opened? [.curly, .round, .square, .angle] o = some { bracket := b } := by
    cases b <;> simp [Group.opened?, Token.isMark_of_mark ho, Bracket.opener]
  simp only [Cursor.skipGroup, hopened, split_of_leavesOpen (h ts hts) hc]

/-! ### Rows without braces -/

/-- A row that holds no braces. -/
def BraceFree (ps : List Piece) : Prop :=
  ∀ p ∈ ps, p.kind? ≠ some (.mark '{') ∧ p.kind? ≠ some (.mark '}')

theorem BraceFree.balanced {ps : List Piece} (h : BraceFree ps) : Balanced .curly ps :=
  balanced_of_forall h

@[simp] theorem braceFree_nil : BraceFree [] := by simp [BraceFree]

@[simp] theorem braceFree_append {ps qs : List Piece} :
    BraceFree (ps ++ qs) ↔ BraceFree ps ∧ BraceFree qs := List.forall_mem_append

@[simp] theorem braceFree_cons {p : Piece} {ps : List Piece} :
    BraceFree (p :: ps) ↔
      (p.kind? ≠ some (.mark '{') ∧ p.kind? ≠ some (.mark '}')) ∧ BraceFree ps := by
  simp only [BraceFree, List.forall_mem_cons]

theorem braceFree_commaRow {rows : List (List Piece)} (h : ∀ row ∈ rows, BraceFree row) :
    BraceFree (commaRow rows) :=
  forall_mem_commaRow (by simp [Piece.kind?]) (by simp [Piece.kind?, Piece.space]) h

theorem Effects.braceFree_pieces (e : Effects) : BraceFree e.pieces :=
  e.forall_mem_pieces (by simp [Piece.kind?]) (by simp [Piece.kind?, Piece.space])

/-- A type holds no braces. -/
theorem TypeRef.braceFree_pieces (t : TypeRef) : BraceFree t.pieces :=
  t.forall_mem_pieces (by simp [Piece.kind?]) (by simp [Piece.kind?, Piece.space])
    (by simp [Piece.kind?]) (by simp [Piece.kind?, typeMarks])

theorem Parameter.braceFree_pieces (p : Parameter) : BraceFree p.pieces := by
  have hbinding : BraceFree p.bindingPieces := by
    simp only [Parameter.bindingPieces]
    cases p.label with
    | none => simp [Piece.kind?, Piece.space]
    | some label => by_cases heq : label = p.name <;> simp [heq, Piece.kind?, Piece.space]
  simp only [Parameter.pieces, braceFree_append, braceFree_cons]
  cases p.isInout <;> simp [hbinding, Piece.kind?, Piece.space, TypeRef.braceFree_pieces]

theorem braceFree_parameterPieces (ps : List Parameter) : BraceFree (parameterPieces ps) := by
  have hrows : BraceFree (commaRow (ps.map Parameter.pieces)) :=
    braceFree_commaRow (by simpa using fun p _ => Parameter.braceFree_pieces p)
  simp [parameterPieces, hrows, Piece.kind?]

/-- The signature of a method holds no braces. -/
theorem Method.braceFree_pieces (m : Method) : BraceFree m.pieces := by
  simp only [Method.pieces, Method.resultPieces]
  cases m.returnsValue <;>
    simp [braceFree_parameterPieces, Effects.braceFree_pieces, TypeRef.braceFree_pieces, Piece.kind?,
      Piece.space]

/-- The signature of an initializer holds no braces. -/
theorem Initializer.braceFree_pieces (i : Initializer) : BraceFree i.pieces := by
  simp [Initializer.pieces, braceFree_parameterPieces, Effects.braceFree_pieces, Piece.kind?]

/-! ### Headers -/

/-- The row of the conformances of a declaration. -/
def conformancePieces (names : List String) : List Piece := commaRow (names.map namePieces)

/-- The row of the conformances is a phrase. -/
theorem isPhrase_conformancePieces {names : List String} (hne : names ≠ [])
    (hnames : ∀ name ∈ names, ∀ part ∈ Text.pieces '.' name, isPlainName part = true) :
    IsPhrase (conformancePieces names) := by
  have hrows : ∀ row ∈ names.map namePieces, IsPhrase row := by
    intro row hrow
    obtain ⟨name, hname, rfl⟩ := List.mem_map.1 hrow
    exact isPhrase_namePieces (hnames name hname)
  exact isPhrase_commaRow (by simpa using hne) hrows

/-- A word on the line of the token before it does not begin the next item. -/
theorem startsNextItem_of_line {prev u : Token} (hu : u.isComment = false)
    (hline : u.line = prev.line) : startsNextItem (some prev) u = false := by
  simp [startsNextItem, hu, hline]

/-- A conformance ends before a comma or the body. -/
theorem conformance_of_tokens {prev v : Token} {us vs : List Token}
    (hus : ∀ u ∈ us, u.line = prev.line ∧
      ((∃ w, u.kind = .word w ∧ w ≠ "where") ∨ u.kind = .mark '.'))
    (hv : v.kind = .mark ',' ∨ v.kind = .mark '{') :
    (⟨some prev, us ++ v :: vs⟩ : Cursor).conformance = (us, v :: vs) := by
  have hstop : (v.isMark ',' || v.isMark '{') = true := by
    rcases hv with hv | hv <;> simp [Token.isMark_of_mark hv]
  induction us generalizing prev with
  | nil => simp [Cursor.conformance, scan, hstop]
  | cons u us ih =>
      obtain ⟨hline, hkind⟩ := hus u (by simp)
      have hmark : ∀ c, c ≠ '.' → u.isMark c = false := by
        intro c hc
        apply Token.isMark_eq_false
        rcases hkind with ⟨w, hw, -⟩ | hdot
        · simp [hw]
        · simp [hdot, Ne.symm hc]
      have hwhere : u.isWord "where" = false := by
        rcases hkind with ⟨w, hw, hne⟩ | hdot
        · simp [Token.isWord_of_word hw, hne]
        · exact Token.isWord_eq_false (by simp [hdot])
      have hcomment : u.isComment = false := by
        rcases hkind with ⟨w, hw, -⟩ | hdot <;> simp [Token.isComment, *]
      have hopened : Group.opened? [.angle] u = none := by
        simp [Group.opened?, Bracket.opener, hmark]
      have hrest := @ih u fun u' hu' =>
        ⟨(hus u' (List.mem_cons_of_mem _ hu')).1.trans hline.symm,
          (hus u' (List.mem_cons_of_mem _ hu')).2⟩
      simp only [Cursor.conformance] at hrest ⊢
      simp only [List.cons_append, scan, hmark ',' (by decide), hmark '{' (by decide), hwhere,
        startsNextItem_of_line hcomment hline, Bool.or_self, Bool.false_eq_true, if_false, hopened,
        Cursor.notePrev, hrest]

theorem newlines_namePieces (name : String) : ∀ p ∈ namePieces name, p.newlines = 0 :=
  forall_mem_namePieces (Q := fun p => p.newlines = 0) (fun _ => rfl) rfl name

theorem conformance_of_placed {source : List Char} {prev v : Token} {us vs : List Token}
    {name : String} (hname : isConformance name = true)
    (hus : Placed source prev.line us (namePieces name))
    (hv : v.kind = .mark ',' ∨ v.kind = .mark '{') :
    (⟨some prev, us ++ v :: vs⟩ : Cursor).conformance = (us, v :: vs) := by
  refine conformance_of_tokens (fun u hu => ?_) hv
  obtain ⟨first, parts, hrow, hparts⟩ := exists_parts_of_isConformance hname
  obtain ⟨p, hp, hk⟩ := hus.spells.exists_piece u hu
  obtain ⟨before, after, -, rfl⟩ := hus
  refine ⟨line_of_mem_lay (newlines_namePieces name) u hu, ?_⟩
  rw [hrow] at hp
  rcases List.mem_cons.1 hp with rfl | hp
  · exact Or.inl ⟨first, (Option.some.inj hk).symm, (hparts first (by simp)).2⟩
  · obtain ⟨part, hpart, hp⟩ := List.mem_flatMap.1 hp
    simp only [List.mem_cons, List.not_mem_nil, or_false] at hp
    rcases hp with rfl | rfl
    · exact Or.inr (Option.some.inj hk).symm
    · exact Or.inl ⟨part, (Option.some.inj hk).symm, (hparts part (List.mem_cons_of_mem _ hpart)).2⟩

/-- **Conformances are read back**, one behind the other. -/
theorem conformancesFrom_of_placed {source : List Char} {names : List String} (hne : names ≠ [])
    (hnames : ∀ name ∈ names, isConformance name = true) :
    ∀ fuel texts prev ts b rest, names.length ≤ fuel →
      Placed source prev.line ts (conformancePieces names) → b.kind = .mark '{' →
      ∃ last, Cursor.conformancesFrom source fuel texts ⟨some prev, ts ++ b :: rest⟩ =
        some (.ok (texts ++ names), ⟨last, b :: rest⟩) := by
  induction names with
  | nil => exact absurd rfl hne
  | cons name names ih =>
      intro fuel texts prev ts b rest hfuel hts hb
      obtain ⟨fuel, rfl⟩ : ∃ n, fuel = n + 1 := ⟨fuel - 1, by simp at hfuel; omega⟩
      have hname := hnames name (by simp)
      -- the last name stands before the body, each other one before a comma
      cases names with
      | nil =>
          simp only [conformancePieces, commaRow, List.map_cons, List.map_nil,
            List.intercalate_singleton] at hts
          have hcomma : (⟨ts.getLast?.or (some prev), b :: rest⟩ : Cursor).mark? ',' = none :=
            Cursor.mark?_eq_none (endsWith_cons.2 (by simp [hb]))
          refine ⟨ts.getLast?.or (some prev), ?_⟩
          rw [Cursor.conformancesFrom, conformance_of_placed hname hts (Or.inr hb)]
          simp only [sourceText?_of_conformance hname hts, conformance_ne_empty hname,
            Bool.false_eq_true, if_false, Cursor.past, hcomma]
      | cons name' names =>
          simp only [conformancePieces, commaRow, List.map_cons, List.intercalate_cons_cons] at hts
          rw [List.append_assoc] at hts
          obtain ⟨us, vs, rfl, hus, hvs⟩ := hts.append
          rw [rowLines_eq_zero (newlines_namePieces name), Nat.add_zero] at hvs
          obtain ⟨v, vs, rfl, hv, hvline, hvs⟩ := hvs.mark
          have hothers := ih (by simp) (fun n hn => hnames n (List.mem_cons_of_mem _ hn)) fuel
            (texts ++ [name]) v vs b rest (by simp at hfuel ⊢; omega) (hvline ▸ hvs.space) hb
          obtain ⟨last, hread⟩ := hothers
          refine ⟨last, ?_⟩
          rw [List.append_assoc, List.cons_append, Cursor.conformancesFrom,
            conformance_of_placed hname hus (Or.inl hv)]
          simp only [sourceText?_of_conformance hname hus, conformance_ne_empty hname,
            Bool.false_eq_true, if_false, Cursor.past, Cursor.mark?_of_mark hv, hread,
            List.append_assoc, List.singleton_append]

/-- The row of the clause of conformances of a declaration, which stands behind a colon. -/
def clausePieces (names : List String) : List Piece :=
  if names.isEmpty then [] else .mark ':' :: .space :: conformancePieces names

theorem clausePieces_of_ne {names : List String} (h : names ≠ []) :
    clausePieces names = .mark ':' :: .space :: conformancePieces names := by
  rw [clausePieces, if_neg (by simpa using h)]

/-- What holds of the words and marks of a clause holds of its row. -/
theorem forall_mem_clausePieces {Q : Piece → Prop} (hword : ∀ w, Q (.word w)) (hspace : Q .space)
    (hmark : ∀ c ∈ [':', ',', '.'], Q (.mark c)) (names : List String) :
    ∀ p ∈ clausePieces names, Q p := by
  have hrow : ∀ p ∈ conformancePieces names, Q p :=
    forall_mem_commaRow (hmark ',' (by simp)) hspace
      (by simpa using fun name _ => forall_mem_namePieces hword (hmark '.' (by simp)) name)
  rw [clausePieces]
  split
  · simp
  · exact List.forall_mem_cons.2 ⟨hmark ':' (by simp), List.forall_mem_cons.2 ⟨hspace, hrow⟩⟩

theorem newlines_clausePieces (names : List String) : ∀ p ∈ clausePieces names, p.newlines = 0 :=
  forall_mem_clausePieces (Q := fun p => p.newlines = 0) (fun _ => rfl) rfl (fun _ _ => rfl) names

theorem braceFree_clausePieces (names : List String) : BraceFree (clausePieces names) :=
  forall_mem_clausePieces (by simp [Piece.kind?]) (by simp [Piece.kind?, Piece.space])
    (by simp [Piece.kind?]) names

/-- The header of a declaration is read back before its body. -/
theorem header_of_placed {source : List Char} {names : List String}
    (hnames : ∀ name ∈ names, isConformance name = true) {line : Nat} {ts : List Token} {b : Token}
    (prev : Option Token) (rest : List Token) (hts : Placed source line ts (clausePieces names))
    (hb : b.kind = .mark '{') :
    ∃ last, Cursor.header source ⟨prev, ts ++ b :: rest⟩ =
      some (.ok names, ⟨last, b :: rest⟩) := by
  have hwhere : ∀ last, (⟨last, b :: rest⟩ : Cursor).atWord "where" = false :=
    fun last => Cursor.atWord_eq_false (endsWith_cons.2 (by simp [hb]))
  by_cases hempty : names = []
  · subst hempty
    obtain rfl := spells_nil.1 hts.spells
    have hangle : (⟨prev, b :: rest⟩ : Cursor).atMark '<' = false :=
      Cursor.atMark_eq_false (endsWith_cons.2 (by simp [hb]))
    have hcolon : (⟨prev, b :: rest⟩ : Cursor).mark? ':' = none :=
      Cursor.mark?_eq_none (endsWith_cons.2 (by simp [hb]))
    refine ⟨prev, ?_⟩
    rw [List.nil_append, Cursor.header, hangle]
    simp only [Bool.false_eq_true, if_false, hcolon, hwhere]
  · rw [clausePieces_of_ne hempty] at hts
    obtain ⟨u, us, rfl, hu, hline, hus⟩ := hts.mark
    have hlength : names.length ≤ (us ++ b :: rest).length + 1 := by
      have hspells : Spells (us ++ [b]) (commaRow (names.map namePieces) ++ [.mark '{']) :=
        spells_append.2 ⟨us, [b], rfl, hus.space.spells, spells_mark.2 ⟨b, [], rfl, hb, rfl⟩⟩
      have := length_le_of_spells_commaRow hspells
      simp at this ⊢
      omega
    obtain ⟨last, hread⟩ := conformancesFrom_of_placed hempty hnames
      ((us ++ b :: rest).length + 1) [] u us b rest hlength (hline ▸ hus.space) hb
    have hangle : (⟨prev, u :: (us ++ b :: rest)⟩ : Cursor).atMark '<' = false :=
      Cursor.atMark_eq_false (endsWith_cons.2 (by simp [hu]))
    refine ⟨last, ?_⟩
    rw [List.cons_append, Cursor.header, hangle]
    simp only [Bool.false_eq_true, if_false, Cursor.mark?_of_mark hu, hread, List.nil_append,
      hwhere]

/-! ### Declarations -/

/-- The row of a declaration before its body. -/
def headerPieces (form : Form) (name : String) (names : List String) : List Piece :=
  .word form.keyword :: .space :: .word name :: clausePieces names

/-- The row of a declaration. -/
def declarationPieces (form : Form) (name : String) (names : List String) (body : List Piece) :
    List Piece :=
  headerPieces form name names ++ .space :: .mark '{' :: (body ++ [.mark '}'])

/-- The row before a body is a phrase. -/
theorem isPhrase_headerPieces {form : Form} {name : String} {names : List String}
    (hname : isPlainName name = true)
    (hnames : ∀ n ∈ names, ∀ part ∈ Text.pieces '.' n, isPlainName part = true) :
    IsPhrase (headerPieces form name names) := by
  have hkeyword : isPlainName form.keyword = true := by
    cases form with
    | contract => decide
    | value form => cases form <;> decide
    | enumeration => decide
  have hnamed : IsPhrase (.word name :: clausePieces names) := by
    by_cases hne : names = []
    · subst hne
      exact IsPhrase.word hname
    · have hcolon : ':' ∈ textMarks := by decide
      rw [clausePieces_of_ne hne]
      exact (IsPhrase.word hname).append_mark hcolon
        ((IsPhrase.mark hcolon).append_space (isPhrase_conformancePieces hne hnames))
  exact (IsPhrase.word hkeyword).append_space hnamed

/-- A declaration opens its body on the line of its keyword. -/
theorem rowLines_headerPieces (form : Form) (name : String) (names : List String) :
    rowLines (headerPieces form name names ++ [.space, .mark '{']) = 0 := by
  apply rowLines_eq_zero
  have hclause := newlines_clausePieces names
  simpa [headerPieces, or_imp, forall_and, Piece.newlines, Piece.space] using hclause

/-- The row of a declaration is a phrase if its body is one, in its braces. -/
theorem isPhrase_declarationPieces {form : Form} {name : String} {names : List String}
    {body : List Piece} (hname : isPlainName name = true)
    (hnames : ∀ n ∈ names, isPlainName n = true)
    (hbody : IsPhrase (.mark '{' :: (body ++ [.mark '}']))) :
    IsPhrase (declarationPieces form name names body) := by
  have hparts : ∀ n ∈ names, ∀ part ∈ Text.pieces '.' n, isPlainName part = true := by
    intro n hn
    rw [pieces_of_plainName (hnames n hn)]
    simpa using hnames n hn
  exact (isPhrase_headerPieces hname hparts).append_space hbody

/-- The braces of a declaration balance if those of its body do. -/
theorem balanced_declarationPieces {form : Form} {name : String} {names : List String}
    {body : List Piece} (h : Balanced .curly body) :
    Balanced .curly (declarationPieces form name names body) := by
  have hheader : BraceFree (headerPieces form name names ++ [.space]) := by
    simp [headerPieces, braceFree_clausePieces, Piece.kind?, Piece.space]
  have := hheader.balanced.append h.group
  simpa [declarationPieces, Bracket.opener, Bracket.closer] using this

/-- No comment is passed over where there is none. -/
theorem skipComments_of_mark {prev : Option Token} {b : Token} {rest : List Token} {c : Char}
    (hb : b.kind = .mark c) : (⟨prev, b :: rest⟩ : Cursor).skipComments = ⟨prev, b :: rest⟩ := by
  simp [Cursor.skipComments, Token.isComment, hb, Cursor.past]

/-- **A declaration is read back** if its body is: with the words of its header, on the line of its
keyword, and up to the brace that closes it. -/
theorem declaration_of_header {unit : String} {source : List Char} {markerPrefix : String}
    {room line : Nat} {parent : Option String} {form : Form} {name : String} {names : List String}
    {outcome : Outcome} {shape : Shape} {ts is : List Token} {c : Token}
    (hnames : ∀ n ∈ names, isConformance n = true)
    (hts : Placed source line ts (headerPieces form name names ++ [.space, .mark '{']))
    (his : LeavesOpen .curly is) (hc : c.kind = .mark '}')
    (hbody : ∀ prev, Cursor.body source markerPrefix room
        (Cursor.declaration unit source markerPrefix room (some (Cursor.qualified parent name)))
        form names ⟨prev, is⟩ = some (outcome, .ok shape))
    (prev : Option Token) (markers : List String) (rest : List Token) :
    Cursor.declaration unit source markerPrefix (room + 1) parent form markers
        ⟨prev, ts ++ (is ++ c :: rest)⟩ =
      some ({ outcome with
          entries := ⟨{ name := Cursor.qualified parent name, parent, unit, line, shape }, markers⟩ ::
            outcome.entries }, ⟨some c, rest⟩) := by
  rw [headerPieces, List.cons_append, List.cons_append, List.cons_append] at hts
  obtain ⟨k, ks, rfl, -, hline, -, hks⟩ := hts.word
  obtain ⟨n, ns, rfl, hn, -, -, hns⟩ := hks.space.word
  obtain ⟨hs, bs, rfl, hhs, hbs⟩ := hns.append
  obtain ⟨b, bs, rfl, hb, -, hbs⟩ := hbs.space.mark
  obtain rfl := spells_nil.1 hbs.spells
  obtain ⟨last, hheader⟩ := header_of_placed hnames (some n) (is ++ c :: rest) hhs hb
  simp only [List.cons_append, List.append_assoc, List.nil_append]
  rw [Cursor.declaration]
  simp only [Cursor.advance, Cursor.expectName_of_word hn, hheader, skipComments_of_mark hb,
    Token.isMark_of_mark hb, split_of_leavesOpen his hc rest, hbody (some b), Cursor.declared]
  simp [Cursor.line, Cursor.next?, hline]

/-- A declaration in a row is read back if its body is. -/
theorem declaration_of_placed {unit : String} {source : List Char} {markerPrefix : String}
    {room line : Nat} {parent : Option String} {form : Form} {name : String} {names : List String}
    {ps : List Piece} {outcome : Outcome} {shape : Shape}
    (hnames : ∀ n ∈ names, isPlainName n = true ∧ n ≠ "where") (hps : Balanced .curly ps)
    (hbody : ∀ prev us, Placed source line us ps →
      Cursor.body source markerPrefix room
        (Cursor.declaration unit source markerPrefix room (some (Cursor.qualified parent name)))
        form names ⟨prev, us⟩ = some (outcome, .ok shape))
    {ts rest : List Token} (prev : Option Token) (markers : List String)
    (hts : Placed source line ts (declarationPieces form name names ps)) :
    ∃ last, Cursor.declaration unit source markerPrefix (room + 1) parent form markers
        ⟨prev, ts ++ rest⟩ =
      some ({ outcome with
          entries := ⟨{ name := Cursor.qualified parent name, parent, unit, line, shape }, markers⟩ ::
            outcome.entries }, ⟨last, rest⟩) := by
  have hrow : declarationPieces form name names ps =
      (headerPieces form name names ++ [.space, .mark '{']) ++ (ps ++ [.mark '}']) := by
    simp [declarationPieces]
  rw [hrow] at hts
  obtain ⟨hs, bs, rfl, hhs, hbs⟩ := hts.append
  rw [rowLines_headerPieces, Nat.add_zero] at hbs
  obtain ⟨is, cs, rfl, his, hcs⟩ := hbs.append
  obtain ⟨c, cs, rfl, hc, -, hcs⟩ := hcs.mark
  obtain rfl := spells_nil.1 hcs.spells
  have hread := declaration_of_header
    (fun n hn => isConformance_of_plainName (hnames n hn).1 (hnames n hn).2) hhs
    (hps is his.spells) hc (fun prev => hbody prev is his) prev markers rest
  exact ⟨some c, by simpa using hread⟩

/-- A declaration at the end of a unit. -/
theorem itemsFrom_of_declaration {nested : NestedReader} {markerPrefix : String} {fuel : Nat}
    {form : Form} {markers : List String} {prev last : Option Token} {t : Token} {ts : List Token}
    {outcome : Outcome} (ht : t.kind = .word form.keyword)
    (h : nested form markers ⟨prev, t :: ts⟩ = some (outcome, ⟨last, []⟩)) :
    Cursor.itemsFrom nested markerPrefix (fuel + 1) markers ⟨prev, t :: ts⟩ = some outcome := by
  have hkeyword : modifiers.contains form.keyword = false ∧
      Form.ofKeyword? form.keyword = some form := by
    cases form with
    | contract => decide
    | value form => cases form <;> decide
    | enumeration => decide
  have hend : Cursor.itemsFrom nested markerPrefix fuel [] ⟨last, []⟩ = some {} := by
    cases fuel <;> rfl
  simp only [Cursor.itemsFrom, Cursor.next?, List.head?_cons, Cursor.item, ht, hkeyword,
    Bool.false_eq_true, if_false, h, Option.map_some, hend, Outcome.append_empty]

end Scaffold
