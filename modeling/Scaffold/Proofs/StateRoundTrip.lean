/-
**Reading back the state of a feature.**

The state of a feature is a struct with a line for each field.  A field has no end of its own, so
that the next line ends it, and a value is copied as it stands.  Hence a struct with exactly the
fields and conformances described is read from the text.

Main definitions:

* `Scaffold.Field.isReadable` — fields that have a spelling of their own;
* `Scaffold.Feature.PropertyLines` — the tokens of fields, a line for each.

Main results:

* `Scaffold.Lexer.tokens_spelled_append` — the tokens of a row before other text;
* `Scaffold.Feature.exists_propertyLines` — the tokens of the lines of fields;
* `Scaffold.Feature.reaches_propertyLines` — each field is read on its line;
* `Scaffold.Feature.read_state` — **the state of a feature is read back**.
-/

import Scaffold.Feature
import Scaffold.Proofs.TokenPlaces
import Scaffold.Proofs.ValueBodies

set_option relaxedAutoImplicit false
set_option autoImplicit false

namespace Scaffold

open Text

/-- The tokens of a row before other text are those of the row, and those of the other text. -/
theorem Lexer.tokens_spelled_append {ps : List Piece} {cs : List Char} (h : Spelled ps cs.head?)
    {offset line : Nat} {us : List Token}
    (hus : tokens (offset + byteSize (rowText ps)) (line + rowLines ps) cs = .ok us) :
    tokens offset line (rowText ps ++ cs) = .ok (lay offset line ps ++ us) := by
  induction ps generalizing offset line with
  | nil => exact hus
  | cons p ps ih =>
      obtain ⟨hp, hends, hps⟩ := h
      have hfront : frontOr ps cs.head? = (rowText ps ++ cs).head? := by
        rw [frontOr, List.head?_append]
      rw [hfront] at hends
      obtain ⟨c, ds, htext, hmunch⟩ := Piece.munch_text hp hends
      have hrest := @ih hps (offset + byteSize p.text) (line + p.newlines)
        (by simpa only [rowText_cons, byteSize_append, rowLines, Nat.add_assoc] using hus)
      rw [rowText_cons, List.append_assoc, htext, tokens_of_munch hmunch]
      simp only [hrest, Except.map, Munch.token, lay]
      cases p.kind? <;> rfl

/-- Whether the name, the type and the value of a field have a spelling of their own; the type has
at most `room` levels of nesting. -/
def Field.isReadable (room : Nat) (f : Field) : Bool :=
  isPlainName f.name && f.type.isWellFormed && decide (f.type.nesting ≤ room) &&
    f.default.all isValueText

theorem Field.isReadable_iff {room : Nat} {f : Field} :
    f.isReadable room = true ↔ isPlainName f.name = true ∧ f.type.isWellFormed = true ∧
      f.type.nesting ≤ room ∧ ∀ value ∈ f.default, isValueText value = true := by
  simp [Field.isReadable, Option.all_eq_true, and_assoc]

namespace Feature

/-! ### The line of a field -/

/-- The row of a field up to its value, behind the blanks at the start of its line. -/
def fieldPieces (f : Field) : List Piece :=
  .blanks [' ', ' ', ' ', ' '] :: propertyPieces f.keyword f.name f.type

/-- The row between a field and its value. -/
def equalsPieces : List Piece := [.space, .mark '=', .space]

/-- The characters of the value of a field, behind an equals sign. -/
def valueChars (f : Field) : List Char :=
  match f.default with
  | some value => rowText equalsPieces ++ value.toList
  | none => []

theorem toList_fieldCode (f : Field) :
    (fieldCode f).toList = rowText (fieldPieces f) ++ (valueChars f ++ ['\n']) := by
  simp only [fieldCode, fieldPieces, propertyPieces, valueChars, equalsPieces, Field.keyword]
  cases f.default <;> cases f.isMutable <;>
    simp [TypeRef.toList_render, Piece.text, Piece.space]

theorem isPhrase_propertyPieces {f : Field} (hname : isPlainName f.name = true)
    (htype : f.type.isWellFormed = true) :
    IsPhrase (propertyPieces f.keyword f.name f.type) := by
  have hkeyword : isPlainName f.keyword = true := by
    simp only [Field.keyword]
    split <;> decide
  have hcolon : ':' ∈ textMarks := by decide
  have htyped := (IsPhrase.mark hcolon).append_space (TypeRef.isPhrase_pieces htype)
  exact (IsPhrase.word hkeyword).append_space ((IsPhrase.word hname).append_mark hcolon htyped)

theorem newlines_propertyPieces (f : Field) :
    ∀ p ∈ propertyPieces f.keyword f.name f.type, p.newlines = 0 := by
  have htype := f.type.forall_mem_pieces (Q := fun p => p.newlines = 0) (fun _ => rfl) rfl rfl
    (fun _ _ => rfl)
  simpa [propertyPieces, Piece.newlines, Piece.space] using htype

/-- A value ends the blanks before it. -/
theorem spelled_equalsPieces {value : String} (h : isValueText value = true) (rest : List Char) :
    Spelled equalsPieces (value.toList ++ rest).head? := by
  obtain ⟨hempty, -, htrimmed, -⟩ := isValueText_iff.1 h
  refine ⟨Piece.proper_space, ?_, ⟨by decide, by decide, by decide⟩, trivial, Piece.proper_space,
    ?_, trivial⟩
  · simp [Piece.space, Piece.EndsBefore, isBlank]
  · cases hchars : value.toList with
    | nil => simp [String.toList_eq_nil_iff.1 hchars] at hempty
    | cons c cs =>
        have hc := (isTrimmed_iff.1 htrimmed).1 c (by simp [hchars])
        simpa [Piece.space, Piece.EndsBefore] using hc

/-- The tokens of the value of a field, at the end of its line. -/
theorem exists_tokens_valueChars {f : Field} (h : ∀ value ∈ f.default, isValueText value = true)
    (before rest : List Char) (line : Nat) {us : List Token}
    (hus : Lexer.tokens (byteSize (before ++ valueChars f) + 1) (line + 2) rest = .ok us) :
    ∃ vs, Lexer.tokens (byteSize before) (line + 1) (valueChars f ++ '\n' :: rest) =
        .ok (vs ++ us) ∧
      IsDefault (before ++ (valueChars f ++ '\n' :: rest)) (line + 1) f.default vs := by
  cases hdefault : f.default with
  | none =>
      have hchars : valueChars f = [] := by rw [valueChars, hdefault]
      rw [hchars, List.append_nil] at hus
      refine ⟨[], ?_, rfl⟩
      rw [hchars, List.nil_append, Lexer.tokens_blank (by decide)]
      exact hus
  | some value =>
      have hvalue := h value hdefault
      have hchars : valueChars f = rowText equalsPieces ++ value.toList := by
        rw [valueChars, hdefault]
      obtain ⟨ts, hts, his⟩ := exists_isValue hvalue (before ++ rowText equalsPieces) ('\n' :: rest)
        line
      obtain ⟨lines, hone, happend⟩ := Lexer.tokens_append value.toList
      obtain rfl := hone (isValueText_iff.1 hvalue).2.1
      rw [hchars, ← List.append_assoc, byteSize_append] at hus
      have hbehind := happend hts (by rwa [← Nat.add_assoc])
      rw [byteSize_append] at hbehind
      refine ⟨lay (byteSize before) (line + 1) equalsPieces ++ ts, ?_, ?_⟩
      · rw [hchars, List.append_assoc, List.append_assoc]
        exact Lexer.tokens_spelled_append (spelled_equalsPieces hvalue _) hbehind
      · refine ⟨_, ts, rfl, rfl, ?_⟩
        simpa [hchars] using his

/-- The tokens of a field on a line of a text. -/
def IsProperty (source : List Char) (line : Nat) (f : Field) (ts : List Token) : Prop :=
  ∃ us vs, ts = us ++ vs ∧ Placed source line us (propertyPieces f.keyword f.name f.type) ∧
    IsDefault source line f.default vs

/-- The tokens of a field, before the next line. -/
theorem exists_tokens_fieldCode {room : Nat} {f : Field} (h : f.isReadable room = true)
    (before rest : List Char) (line : Nat) {us : List Token}
    (hus : Lexer.tokens (byteSize (before ++ (fieldCode f).toList)) (line + 2) rest = .ok us) :
    ∃ ts, Lexer.tokens (byteSize before) (line + 1) ((fieldCode f).toList ++ rest) =
        .ok (ts ++ us) ∧
      IsProperty (before ++ ((fieldCode f).toList ++ rest)) (line + 1) f ts := by
  obtain ⟨hname, htype, -, hdefault⟩ := Field.isReadable_iff.1 h
  have htext : (fieldCode f).toList ++ rest =
      rowText (fieldPieces f) ++ (valueChars f ++ '\n' :: rest) := by
    simp [toList_fieldCode]
  -- the type ends before the equals sign, or at the end of the line
  have hends : EndsName (valueChars f ++ '\n' :: rest).head? := by
    simp only [valueChars]
    cases f.default <;> simp [EndsName, equalsPieces, Piece.text, Piece.space] <;> decide
  have hspelled : Spelled (fieldPieces f) (valueChars f ++ '\n' :: rest).head? :=
    (isPhrase_propertyPieces hname htype).spelled_blanks (by simp [Piece.Proper, isBlank]) hends
  have hlines : rowLines (fieldPieces f) = 0 :=
    rowLines_eq_zero (List.forall_mem_cons.2 ⟨rfl, newlines_propertyPieces f⟩)
  have hsize : byteSize (before ++ (fieldCode f).toList) =
      byteSize ((before ++ rowText (fieldPieces f)) ++ valueChars f) + 1 := by
    rw [toList_fieldCode]
    simp only [← List.append_assoc, byteSize_append]
    rfl
  rw [hsize] at hus
  obtain ⟨vs, hvs, hvalue⟩ := exists_tokens_valueChars hdefault
    (before ++ rowText (fieldPieces f)) rest line hus
  have hplaced : Placed (before ++ ((fieldCode f).toList ++ rest)) (line + 1)
      (lay (byteSize before) (line + 1) (fieldPieces f)) (fieldPieces f) :=
    ⟨before, valueChars f ++ '\n' :: rest, by rw [htext, List.append_assoc], rfl⟩
  refine ⟨lay (byteSize before) (line + 1) (fieldPieces f) ++ vs, ?_, _, vs, rfl, hplaced.blanks,
    ?_⟩
  · rw [htext, List.append_assoc]
    refine Lexer.tokens_spelled_append hspelled ?_
    rw [hlines, ← byteSize_append]
    exact hvs
  · rw [htext, ← List.append_assoc]
    exact hvalue

/-! ### The lines of fields -/

/-- The tokens of fields, a line for each. -/
def PropertyLines (source : List Char) : (line : Nat) → List Field → List Token → Prop
  | _, [], ts => ts = []
  | line, f :: fs, ts =>
    ∃ us vs, ts = us ++ vs ∧ IsProperty source line f us ∧ PropertyLines source (line + 1) fs vs

/-- The characters of the lines of fields. -/
def linesChars (fields : List Field) : List Char := fields.flatMap fun f => (fieldCode f).toList

/-- **The tokens of the lines of fields**, before other text. -/
theorem exists_propertyLines {room : Nat} {fields : List Field}
    (h : ∀ f ∈ fields, f.isReadable room = true) (before rest : List Char) (line : Nat)
    {us : List Token}
    (hus : Lexer.tokens (byteSize (before ++ linesChars fields)) (line + 1 + fields.length) rest =
      .ok us) :
    ∃ ts, Lexer.tokens (byteSize before) (line + 1) (linesChars fields ++ rest) = .ok (ts ++ us) ∧
      PropertyLines (before ++ (linesChars fields ++ rest)) (line + 1) fields ts := by
  induction fields generalizing before line with
  | nil => exact ⟨[], by simpa [linesChars] using hus, rfl⟩
  | cons f fields ih =>
      have hchars : linesChars (f :: fields) = (fieldCode f).toList ++ linesChars fields := rfl
      rw [hchars, ← List.append_assoc, List.length_cons, Nat.add_comm fields.length,
        ← Nat.add_assoc] at hus
      obtain ⟨vs, hvs, hlines⟩ := ih (fun g hg => h g (List.mem_cons_of_mem _ hg))
        (before ++ (fieldCode f).toList) (line + 1) hus
      obtain ⟨ts, hts, hproperty⟩ := exists_tokens_fieldCode (h f (by simp)) before
        (linesChars fields ++ rest) line hvs
      rw [List.append_assoc] at hlines
      refine ⟨ts ++ vs, ?_, ts, vs, rfl, ?_, ?_⟩
      · rw [hchars, List.append_assoc, hts, List.append_assoc]
      · rwa [hchars, List.append_assoc]
      · rwa [hchars, List.append_assoc]

variable {source : List Char} {markerPrefix : String} {room : Nat} {nested : NestedReader}

/-- A field starts with a word on its line. -/
theorem IsProperty.startsWith {line : Nat} {f : Field} {ts : List Token}
    (h : IsProperty source line f ts) :
    ∃ t us, ts = t :: us ∧ t.kind = .word f.keyword ∧ t.line = line := by
  obtain ⟨us, vs, rfl, hus, -⟩ := h
  rw [propertyPieces] at hus
  obtain ⟨t, us, rfl, ht, hline, -⟩ := hus.word
  exact ⟨t, us ++ vs, rfl, ht, hline⟩

theorem PropertyLines.startsBelow {line : Nat} {fields : List Field} {ts : List Token}
    (h : PropertyLines source (line + 1) fields ts) : StartsBelow line ts := by
  cases fields with
  | nil =>
      obtain rfl : ts = [] := h
      simp [StartsBelow]
  | cons f fields =>
      obtain ⟨us, vs, rfl, hus, -⟩ := h
      obtain ⟨t, us, rfl, ht, hline⟩ := hus.startsWith
      intro u hu
      obtain rfl : t = u := by simpa using hu
      exact ⟨by omega, f.keyword, ht⟩

/-- **Each field is read on its line.** -/
theorem reaches_propertyLines {fields : List Field} (h : ∀ f ∈ fields, f.isReadable room = true)
    {line : Nat} {ts : List Token} (hts : PropertyLines source line fields ts)
    {s : Cursor.ValueState} (hs : s.attributed = false) :
    Reaches source markerPrefix room nested s (fields.foldl Cursor.ValueState.addField s) ts
      [] := by
  induction fields generalizing line ts s with
  | nil =>
      obtain rfl : ts = [] := hts
      exact Reaches.refl s []
  | cons f fields ih =>
      obtain ⟨us, vs, rfl, ⟨ps, ds, rfl, hps, hds⟩, hvs⟩ := hts
      obtain ⟨-, htype, hnesting, -⟩ := Field.isReadable_iff.1 (h f (by simp))
      have hbelow := hvs.startsBelow
      have hfollows : EndsWith FollowsProperty (vs ++ []) := by
        rw [List.append_nil]
        exact fun t ht => Or.inl (hbelow t ht).2
      have hfirst : Reaches source markerPrefix room nested s (s.addField f) (ps ++ ds)
          (vs ++ []) :=
        reaches_property hs htype hnesting hps.spells hds hfollows
          (fun _ => by rwa [List.append_nil])
      exact hfirst.trans (ih (fun g hg => h g (List.mem_cons_of_mem _ hg)) hvs rfl)

/-- The lines of fields leave a brace open. -/
theorem leavesOpen_propertyLines {fields : List Field} {line : Nat} {ts : List Token}
    (h : PropertyLines source line fields ts) : LeavesOpen .curly ts := by
  induction fields generalizing line ts with
  | nil =>
      obtain rfl : ts = [] := h
      exact leavesOpen_nil _
  | cons f fields ih =>
      obtain ⟨us, vs, rfl, ⟨ps, ds, rfl, hps, hds⟩, hvs⟩ := h
      have hrow : BraceFree (propertyPieces f.keyword f.name f.type) := by
        simp [propertyPieces, TypeRef.braceFree_pieces, Piece.kind?, Piece.space]
      have hvalue : LeavesOpen .curly ds := by
        cases hdefault : f.default with
        | none =>
            rw [hdefault] at hds
            obtain rfl : ds = [] := hds
            exact leavesOpen_nil _
        | some value =>
            rw [hdefault] at hds
            obtain ⟨e, es, rfl, he, his⟩ := hds
            have hequals : LeavesOpen .curly [e] :=
              leavesOpen_singleton (by simp [he, Bracket.opener]) (by simp [he, Bracket.closer])
            exact hequals.append (leavesAllOpen_of_isValueRow his.row .curly (by decide))
      exact ((hrow.balanced ps hps.spells).append hvalue).append (ih hvs)

/-! ### The state -/

theorem foldl_addField (fields : List Field) (s : Cursor.ValueState) :
    (fields.foldl Cursor.ValueState.addField s).value =
        { s.value with fields := s.value.fields ++ fields } ∧
      (fields.foldl Cursor.ValueState.addField s).outcome = s.outcome := by
  induction fields generalizing s with
  | nil => simp
  | cons f fields ih =>
      obtain ⟨hvalue, houtcome⟩ := ih (s.addField f)
      rw [List.foldl_cons, hvalue, houtcome]
      simp [Cursor.ValueState.addField, Cursor.ValueState.afterMember]

/-- What the body of the state yields: the fields described. -/
theorem valueBody_of_propertyLines {form : ValueForm} {fields : List Field}
    (h : ∀ f ∈ fields, f.isReadable room = true) {line : Nat} {ts : List Token}
    (hts : PropertyLines source line fields ts) (prev : Option Token) :
    Cursor.valueBody source markerPrefix room nested form ⟨prev, ts⟩ =
      some ({}, .ok { form, fields }) := by
  rw [valueBody_of_reaches (reaches_propertyLines h hts rfl) prev, (foldl_addField _ _).1,
    (foldl_addField _ _).2]
  rfl

/-- The characters of the state behind the brace that opens its body. -/
def bodyChars (fields : List Field) : List Char :=
  if fields.isEmpty then ['\x7d'] else '\n' :: (linesChars fields ++ ['\x7d'])

/-- The row of the state up to the brace that opens its body. -/
def statePieces (conformances : List String) : List Piece :=
  headerPieces (.value .struct) "State" conformances ++ [.space, .mark '{']

/-- The clause of conformances has the text of its row. -/
theorem toList_conformanceClause (conformances : List String) :
    (conformanceClause conformances).toList = rowText (clausePieces conformances) := by
  simp only [conformanceClause, clausePieces]
  split
  · rfl
  · have hrows : (conformances.map namePieces).map rowText = conformances.map String.toList := by
      simp [rowText_namePieces]
    simp [conformancePieces, rowText_commaRow, hrows, String.toList_intercalate, Piece.text,
      Piece.space]

theorem toList_state (fields : List Field) (conformances : List String) :
    (state fields conformances).toList =
      rowText (statePieces conformances) ++ bodyChars fields := by
  have hlines : (String.join (fields.map fieldCode)).toList = linesChars fields := by
    rw [String.toList_join, List.flatMap_map]
    rfl
  simp only [state, String.toList_append, toList_conformanceClause, statePieces, headerPieces,
    bodyChars]
  split <;> simp [hlines, Form.keyword, ValueForm.keyword, Piece.text, Piece.space]

/-- The tokens of the body of the state. -/
theorem exists_tokens_bodyChars {fields : List Field} (h : ∀ f ∈ fields, f.isReadable room = true)
    (before : List Char) :
    ∃ ts c, Lexer.tokens (byteSize before) 1 (bodyChars fields) = .ok (ts ++ [c]) ∧
      c.kind = .mark '\x7d' ∧ PropertyLines (before ++ bodyChars fields) 2 fields ts := by
  have hspelled : Spelled [.mark '\x7d'] none := ⟨Piece.proper_mark (by decide), trivial, trivial⟩
  have hclose : ∀ offset line, Lexer.tokens offset line (rowText [.mark '\x7d'] ++ []) =
      .ok (lay offset line [.mark '\x7d'] ++ []) := fun offset line =>
    Lexer.tokens_spelled_append hspelled rfl
  rw [bodyChars]
  split
  · next hempty =>
      obtain rfl := List.isEmpty_iff.1 hempty
      exact ⟨[], _, hclose (byteSize before) 1, rfl, rfl⟩
  · obtain ⟨ts, hts, hlines⟩ := exists_propertyLines h (before ++ ['\n']) ['\x7d'] 1 (hclose _ _)
    rw [byteSize_append] at hts
    exact ⟨ts, _, (Lexer.tokens_blank (by decide) _ _ _).trans hts, rfl, by simpa using hlines⟩

/-- The tokens of the state: those of its header, of its fields, and the brace behind them. -/
theorem exists_tokens_state {fields : List Field} {conformances : List String}
    (hfields : ∀ f ∈ fields, f.isReadable room = true)
    (hconformances : ∀ name ∈ conformances, isConformance name = true) :
    ∃ ts is c, tokenize (state fields conformances) = .ok (ts ++ (is ++ [c])) ∧
      Placed (state fields conformances).toList 1 ts (statePieces conformances) ∧
      PropertyLines (state fields conformances).toList 2 fields is ∧ c.kind = .mark '\x7d' := by
  obtain ⟨is, c, his, hc, hlines⟩ :=
    exists_tokens_bodyChars hfields (rowText (statePieces conformances))
  have hphrase : IsPhrase (statePieces conformances) :=
    (isPhrase_headerPieces (by decide) fun name hname =>
      isPlainName_of_isConformance (hconformances name hname)).append_space
        (IsPhrase.mark (by decide))
  have hspelled : Spelled (statePieces conformances) (bodyChars fields).head? := by
    refine hphrase.spelled _ ?_
    rw [bodyChars]
    split <;> simp [EndsName] <;> decide
  have hrow : rowLines (statePieces conformances) = 0 := rowLines_headerPieces _ _ _
  have htext := toList_state fields conformances
  have htokens : Lexer.tokens 0 1 (state fields conformances).toList =
      .ok (lay 0 1 (statePieces conformances) ++ (is ++ [c])) := by
    rw [htext]
    exact Lexer.tokens_spelled_append hspelled (by rw [hrow, Nat.zero_add]; exact his)
  rw [← htext] at hlines
  exact ⟨_, is, c, htokens, ⟨[], bodyChars fields, htext, rfl⟩, hlines, hc⟩

/-- The text of the state, read as a unit. -/
theorem read?_state {fields : List Field} {conformances : List String}
    (hfields : ∀ f ∈ fields, f.isReadable (maxNesting - 1) = true)
    (hconformances : ∀ name ∈ conformances, isConformance name = true)
    (unit markerPrefix : String) :
    Source.read? markerPrefix ⟨unit, state fields conformances⟩ =
      some { entries :=
        [⟨{ name := "State", unit, line := 1
            shape := .value { form := .struct, fields, conformances } }, []⟩] } := by
  obtain ⟨ts, is, c, htokens, hts, his, hc⟩ := exists_tokens_state hfields hconformances
  have hbody : ∀ prev, Cursor.body (state fields conformances).toList markerPrefix (maxNesting - 1)
      (Cursor.declaration unit (state fields conformances).toList markerPrefix (maxNesting - 1)
        (some (Cursor.qualified none "State"))) (.value .struct) conformances ⟨prev, is⟩ =
      some ({}, .ok (.value { form := .struct, fields, conformances })) := by
    intro prev
    simp only [Cursor.body, valueBody_of_propertyLines hfields his prev]
    rfl
  have hread := declaration_of_header hconformances hts (leavesOpen_propertyLines his) hc hbody none
    [] []
  rw [statePieces, headerPieces, List.cons_append] at hts
  obtain ⟨t, ts, rfl, ht, -⟩ := hts.word
  simp only [Source.read?, htokens, Cursor.items, Cursor.start]
  exact itemsFrom_of_declaration ht hread

/-- **The state of a feature is read back.**  As long as the names, types and values of the fields
and the conformances have a spelling of their own, the text of the state declares a struct with
exactly these fields and conformances, in order, and nothing else is found in it. -/
theorem read_state {fields : List Field} {conformances : List String}
    (hfields : ∀ f ∈ fields, f.isReadable (maxNesting - 1) = true)
    (hconformances : ∀ name ∈ conformances, isConformance name = true)
    (unit markerPrefix : String) :
    Source.read markerPrefix ⟨unit, state fields conformances⟩ =
      { entries :=
          [⟨{ name := "State", unit, line := 1
              shape := .value { form := .struct, fields, conformances } }, []⟩]
        problems := []
        rejected := [] } := by
  rw [Source.read, read?_state hfields hconformances]
  rfl

/-- Fields of several types, with values that hold brackets and a literal, and a dotted
conformance. -/
theorem read_state_cart :
    let fields : List Field :=
      [{ name := "items", type := .sequence (.named "Item" []), default := some "[]"
         isMutable := true },
        { name := "total", type := .primitive "Double", isMutable := false
          default := some "items.reduce(0) \x7b $0 + $1.price \x7d" },
        { name := "title", type := .optional (.primitive "String"), default := some "\"a; b\""
          isMutable := false },
        { name := "onClose", isMutable := true
          type := .optional (.function [] [.mapping (.primitive "Int") (.primitive "Bool")]
            { isAsync := true, isThrowing := true } .void) }]
    (∀ f ∈ fields, f.isReadable (maxNesting - 1) = true) ∧
      Source.read "@gen" ⟨"Cart.swift", state fields ["Equatable", "Swift.Sendable"]⟩ =
        { entries :=
            [⟨{ name := "State", unit := "Cart.swift", line := 1
                shape := .value
                  { form := .struct, fields, conformances := ["Equatable", "Swift.Sendable"] } },
              []⟩] } := by
  intro fields
  have hfields : ∀ f ∈ fields, f.isReadable (maxNesting - 1) = true := by decide +kernel
  exact ⟨hfields, read_state hfields (by decide +kernel) "Cart.swift" "@gen"⟩

/-- Neither an empty value nor a conformance with the part `where` is read back: the text is
refused, although the empty text is one line without blanks around it or comments, and `A.where` is
made of two names. -/
theorem state_not_read :
    let f : Field :=
      { name := "x", type := .primitive "Int", default := some "", isMutable := true }
    let refused := fun (member : Option String) (reason : Reason) (line : Nat) =>
      ({ problems := [.malformed "State" member reason line]
         rejected := [⟨"State", none, []⟩] } : Outcome)
    (isPlainName f.name = true ∧ f.type.isWellFormed = true ∧ f.type.nesting ≤ maxNesting - 1 ∧
        isTrimmed [] = true ∧ Lexer.commentFree [] = true ∧ tokenize "" = .ok [] ∧
        isValueRow [] [] = true ∧
        Source.read "@gen" ⟨"A.swift", state [f] []⟩ = refused (some "var x") .expectedDefault 2) ∧
      ("A.where" ≠ "where" ∧ (Text.pieces '.' "A.where").all isPlainName = true ∧
        Source.read "@gen" ⟨"B.swift", state [] ["A.where"]⟩ = refused none .whereClause 1) := by
  decide +kernel

end Feature

end Scaffold
