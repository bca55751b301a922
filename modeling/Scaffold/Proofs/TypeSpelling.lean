/-
**Types as rows of pieces.**

The spelling of a type is a row of pieces, and for a well-formed type the row is spelled: it can be
read back whatever follows it, as long as that does not go on with a name.

Main definitions:

* `Scaffold.TypeRef.isWellFormed` — the types that have a spelling of their own;
* `Scaffold.TypeRef.nesting` — how many cores of types the reader opens inside each other;
* `Scaffold.TypeRef.pieces` — the row of a type.

Main results:

* `Scaffold.TypeRef.toList_render` — the row of a type has the text of its spelling;
* `Scaffold.TypeRef.forall_mem_pieces` — what the row of a type is made of;
* `Scaffold.TypeRef.isPhrase_pieces` — the row of a well-formed type is a phrase.
-/

import Scaffold.Proofs.Spelling
import Scaffold.TypeRef.Printer

set_option relaxedAutoImplicit false
set_option autoImplicit false

namespace Scaffold

open Text

/-! ### Dotted names -/

/-- A name with further parts, each behind a dot. -/
def dotted (first : String) (parts : List String) : String :=
  parts.foldl (fun name part => name ++ "." ++ part) first

theorem toList_dotted (first : String) (parts : List String) :
    (dotted first parts).toList = first.toList ++ parts.flatMap fun part => '.' :: part.toList := by
  induction parts generalizing first with
  | nil => simp [dotted]
  | cons part parts ih =>
      have hstep : dotted first (part :: parts) = dotted (first ++ "." ++ part) parts := rfl
      rw [hstep, ih]
      simp

/-- Lists one behind the other, with a separator before each but the first. -/
theorem intercalate_eq_flatMap {α : Type} (x : α) (first : List α) (others : List (List α)) :
    [x].intercalate (first :: others) = first ++ others.flatMap (x :: ·) := by
  induction others generalizing first with
  | nil => simp
  | cons l others ih =>
      rw [List.intercalate_cons_cons, ih]
      simp

theorem pieces_ne_nil (c : Char) (s : String) : Text.pieces c s ≠ [] := by
  simp [Text.pieces, List.splitOn_ne_nil]

/-- A name is made up of its parts. -/
theorem dotted_of_pieces {name first : String} {parts : List String}
    (h : Text.pieces '.' name = first :: parts) : dotted first parts = name := by
  have hparts := congrArg (List.map String.toList) h
  simp only [Text.pieces, List.map_map, Function.comp_def, String.toList_ofList,
    List.map_id'] at hparts
  have hname := @List.intercalate_splitOn Char name.toList _ _ '.'
  rw [hparts, List.map_cons, intercalate_eq_flatMap, List.flatMap_map] at hname
  rw [← String.toList_inj, toList_dotted, hname]

/-- The row of a dotted name. -/
def namePieces (name : String) : List Piece :=
  match Text.pieces '.' name with
  | [] => []
  | first :: parts => .word first :: parts.flatMap fun part => [.mark '.', .word part]

theorem rowText_namePieces (name : String) : rowText (namePieces name) = name.toList := by
  simp only [namePieces]
  split
  · next h => exact absurd h (pieces_ne_nil '.' name)
  · next first parts h =>
      rw [← dotted_of_pieces h, toList_dotted]
      simp [rowText, Piece.text, List.flatMap_assoc]

/-- The words that a name of a type cannot start with. -/
def reservedHeads : List String := ["any", "some", "inout"]

/-- Whether a text is a dotted name that a type can have. -/
def isTypeName (name : String) : Bool :=
  match Text.pieces '.' name with
  | [] => false
  | first :: parts => !reservedHeads.contains first && (first :: parts).all isPlainName

/-! ### Well-formed types -/

/-- Whether a name with a number of arguments is another way to write a type. -/
def isSugared (name : String) (args : Nat) : Bool :=
  match args with
  | 0 => primitiveNames.contains name
  | 1 => name == "Optional" || name == "Array"
  | 2 => name == "Dictionary"
  | _ => false

namespace TypeRef

/-- Whether a type can follow the word `any` as it is written. -/
def followsAny : TypeRef → Bool
  | .optional _ => false
  | .function attributes _ _ _ => attributes.isEmpty
  | _ => true

mutual

/-- Whether a type has a spelling of its own: its names are names, and no other type is written in
the same way. -/
def isWellFormed : TypeRef → Bool
  | .primitive name => primitiveNames.contains name
  | .named name args => isTypeName name && !isSugared name args.length && areWellFormed args
  | .sequence element => isWellFormed element
  | .mapping key value => isWellFormed key && isWellFormed value
  | .optional wrapped => isWellFormed wrapped
  | .function attributes params _ result =>
    attributes.all isPlainName && areWellFormed params && isWellFormed result
  | .existential constraint => constraint.followsAny && isWellFormed constraint

/-- Whether all types of a list are well formed. -/
def areWellFormed : List TypeRef → Bool
  | [] => true
  | t :: ts => isWellFormed t && areWellFormed ts

end

theorem areWellFormed_iff {ts : List TypeRef} :
    areWellFormed ts = true ↔ ∀ t ∈ ts, t.isWellFormed = true := by
  induction ts with
  | nil => simp [areWellFormed]
  | cons t ts ih => simp [areWellFormed, ih]

mutual

/-- The cores of types that the reader opens inside each other on the spelling of a type.
Parentheses before a question mark take one more. -/
def nesting : TypeRef → Nat
  | .primitive _ => 1
  | .named _ args => nestingAll args + 1
  | .sequence element => nesting element + 1
  | .mapping key value => max (nesting key) (nesting value) + 1
  | .optional wrapped => if wrapped.needsParens then nesting wrapped + 1 else nesting wrapped
  | .function _ params _ result => max (nestingAll params) (nesting result) + 1
  | .existential constraint => nesting constraint + 1

/-- The most cores that the reader opens inside each other on one of several types. -/
def nestingAll : List TypeRef → Nat
  | [] => 0
  | t :: ts => max (nesting t) (nestingAll ts)

end

theorem nestingAll_le_iff {ts : List TypeRef} {n : Nat} :
    nestingAll ts ≤ n ↔ ∀ t ∈ ts, t.nesting ≤ n := by
  induction ts with
  | nil => simp [nestingAll]
  | cons t ts ih => rw [nestingAll, Nat.max_le, ih, List.forall_mem_cons]

/-! ### Rows of types -/

/-- The row of attributes, with a blank behind each. -/
def attributePieces (attributes : List String) : List Piece :=
  attributes.flatMap fun a => [.mark '@', .word a, .space]

end TypeRef

/-- The row of effects, with a blank before each. -/
def Effects.pieces (e : Effects) : List Piece :=
  (if e.isAsync then [.space, .word "async"] else []) ++
    (if e.isThrowing then [.space, .word "throws"] else [])

namespace TypeRef

mutual

/-- The row of a type. -/
def pieces : TypeRef → List Piece
  | .primitive name => [.word name]
  | .named name [] => namePieces name
  | .named name (t :: ts) =>
    namePieces name ++ .mark '<' :: (commaRow (piecesAll (t :: ts)) ++ [.mark '>'])
  | .sequence element => .mark '[' :: (pieces element ++ [.mark ']'])
  | .mapping key value =>
    .mark '[' :: (pieces key ++ .mark ':' :: .space :: (pieces value ++ [.mark ']']))
  | .optional wrapped =>
    if wrapped.needsParens then .mark '(' :: (pieces wrapped ++ [.mark ')', .mark '?'])
    else pieces wrapped ++ [.mark '?']
  | .function attributes params effects result =>
    attributePieces attributes ++ .mark '(' :: (commaRow (piecesAll params) ++
      .mark ')' :: (effects.pieces ++ .space :: .arrow :: .space :: pieces result))
  | .existential constraint => .word "any" :: .space :: pieces constraint

/-- The rows of the types of a list. -/
def piecesAll : List TypeRef → List (List Piece)
  | [] => []
  | t :: ts => pieces t :: piecesAll ts

end

theorem piecesAll_eq_map (ts : List TypeRef) : piecesAll ts = ts.map pieces := by
  induction ts with
  | nil => simp [piecesAll]
  | cons t ts ih => simp [piecesAll, ih]

theorem renderAll_eq_map (ts : List TypeRef) : renderAll ts = ts.map render := by
  induction ts with
  | nil => simp [renderAll]
  | cons t ts ih => simp [renderAll, ih]

/-! ### The text of a row -/

theorem rowText_attributePieces (attributes : List String) :
    rowText (attributePieces attributes) = (renderAttributes attributes).toList := by
  simp only [renderAttributes, String.toList_join, List.flatMap_map, attributePieces, rowText,
    List.flatMap_assoc]
  congr 1
  funext a
  simp [Piece.text, Piece.space]

end TypeRef

theorem Effects.rowText_pieces (e : Effects) : rowText e.pieces = e.render.toList := by
  simp only [Effects.pieces, Effects.render]
  cases e.isAsync <;> cases e.isThrowing <;> rfl

namespace TypeRef

/-- **The row of a type has the text of its spelling.** -/
theorem toList_render (t : TypeRef) : t.render.toList = rowText t.pieces := by
  induction t using TypeRef.induction with
  | primitive name => simp [render, pieces, Piece.text]
  | named name args ih =>
      cases args with
      | nil => rw [render, pieces, rowText_namePieces]
      | cons t ts =>
          have hrows : (renderAll (t :: ts)).map String.toList =
              (piecesAll (t :: ts)).map rowText := by
            rw [renderAll_eq_map, piecesAll_eq_map, List.map_map, List.map_map]
            exact List.map_congr_left ih
          simp [render, pieces, rowText_namePieces, rowText_commaRow, String.toList_intercalate,
            hrows, Piece.text]
  | sequence element ih => simp [render, pieces, ih, Piece.text]
  | mapping key value ihk ihv => simp [render, pieces, ihk, ihv, Piece.text, Piece.space]
  | optional wrapped ih =>
      simp only [render, pieces]
      split <;> simp [ih, Piece.text]
  | function attributes params effects result ihp ihr =>
      have hrows : (renderAll params).map String.toList = (piecesAll params).map rowText := by
        rw [renderAll_eq_map, piecesAll_eq_map, List.map_map, List.map_map]
        exact List.map_congr_left ihp
      simp [render, pieces, rowText_commaRow, rowText_attributePieces, Effects.rowText_pieces,
        String.toList_intercalate, hrows, ihr, Piece.text, Piece.space]
  | existential constraint ih => simp [render, pieces, ih, Piece.text, Piece.space]

end TypeRef

/-! ### What rows are made of -/

/-- The marks in the rows of types. -/
def typeMarks : List Char := ['(', ')', '[', ']', '<', '>', ':', ',', '.', '?', '@']

section Made

variable {Q : Piece → Prop}

theorem forall_mem_commaRow (hcomma : Q (.mark ',')) (hspace : Q .space) {rows : List (List Piece)}
    (h : ∀ row ∈ rows, ∀ p ∈ row, Q p) : ∀ p ∈ commaRow rows, Q p := by
  induction rows with
  | nil => simp [commaRow]
  | cons row rows ih =>
      have hrow := h row (by simp)
      have hrows := ih fun r hr => h r (List.mem_cons_of_mem _ hr)
      cases rows with
      | nil => simpa [commaRow] using hrow
      | cons row' rows =>
          simp only [commaRow, List.intercalate_cons_cons, List.forall_mem_append] at hrows ⊢
          exact ⟨⟨hrow, by simp [hcomma, hspace]⟩, hrows⟩

theorem forall_mem_namePieces (hword : ∀ w, Q (.word w)) (hdot : Q (.mark '.')) (name : String) :
    ∀ p ∈ namePieces name, Q p := by
  simp only [namePieces]
  split
  · simp
  · simp only [List.forall_mem_cons, List.forall_mem_flatMap]
    exact ⟨hword _, fun part _ => by simp [hdot, hword]⟩

theorem Effects.forall_mem_pieces (hword : ∀ w, Q (.word w)) (hspace : Q .space) (e : Effects) :
    ∀ p ∈ e.pieces, Q p := by
  simp only [Effects.pieces]
  cases e.isAsync <;> cases e.isThrowing <;> simp [hword, hspace]

/-- The row of a type is made of words, single blanks, arrows and some marks. -/
theorem TypeRef.forall_mem_pieces (hword : ∀ w, Q (.word w)) (hspace : Q .space) (harrow : Q .arrow)
    (hmark : ∀ c ∈ typeMarks, Q (.mark c)) (t : TypeRef) : ∀ p ∈ t.pieces, Q p := by
  simp only [typeMarks, List.forall_mem_cons] at hmark
  obtain ⟨hopen, hclose, hleft, hright, hless, hgreater, hcolon, hcomma, hdot, hquestion, hat, -⟩ :=
    hmark
  induction t using TypeRef.induction with
  | primitive name => simp [pieces, hword]
  | named name args ih =>
      have hname := forall_mem_namePieces hword hdot name
      cases args with
      | nil => simpa [pieces] using hname
      | cons t ts =>
          have hrows : ∀ p ∈ commaRow ((t :: ts).map pieces), Q p :=
            forall_mem_commaRow hcomma hspace (by simpa using ih)
          rw [pieces, piecesAll_eq_map]
          simp only [List.forall_mem_append, List.forall_mem_cons]
          exact ⟨hname, hless, hrows, hgreater, by simp⟩
  | sequence element ih =>
      simp only [pieces, List.forall_mem_append, List.forall_mem_cons]
      exact ⟨hleft, ih, hright, by simp⟩
  | mapping key value ihk ihv =>
      simp only [pieces, List.forall_mem_append, List.forall_mem_cons]
      exact ⟨hleft, ihk, hcolon, hspace, ihv, hright, by simp⟩
  | optional wrapped ih =>
      rw [pieces]
      split
      · simp only [List.forall_mem_append, List.forall_mem_cons]
        exact ⟨hopen, ih, hclose, hquestion, by simp⟩
      · simp only [List.forall_mem_append, List.forall_mem_cons]
        exact ⟨ih, hquestion, by simp⟩
  | function attributes params effects result ihp ihr =>
      have hattributes : ∀ p ∈ attributePieces attributes, Q p := by
        simp only [attributePieces, List.forall_mem_flatMap]
        exact fun a _ => by simp [hat, hword, hspace]
      have hrows : ∀ p ∈ commaRow (params.map pieces), Q p :=
        forall_mem_commaRow hcomma hspace (by simpa using ihp)
      have heffects := effects.forall_mem_pieces hword hspace
      rw [pieces, piecesAll_eq_map]
      simp only [List.forall_mem_append, List.forall_mem_cons]
      exact ⟨hattributes, hopen, hrows, hclose, heffects, hspace, harrow, hspace, ihr⟩
  | existential constraint ih =>
      simp only [pieces, List.forall_mem_cons]
      exact ⟨hword _, hspace, ih⟩

end Made

/-! ### Rows of well-formed types are spelled -/

theorem isPlainName_of_isTypeName {name : String} (h : isTypeName name = true) :
    ∀ part ∈ Text.pieces '.' name, isPlainName part = true := by
  simp only [isTypeName] at h
  split at h
  · exact absurd h (by simp)
  · next first parts hp =>
      rw [hp]
      exact List.all_eq_true.1 (Bool.and_eq_true_iff.1 h).2

/-- The row of a dotted name is a phrase. -/
theorem isPhrase_namePieces {name : String}
    (h : ∀ part ∈ Text.pieces '.' name, isPlainName part = true) : IsPhrase (namePieces name) := by
  simp only [namePieces]
  split
  · next hp => exact absurd hp (pieces_ne_nil '.' name)
  · next first parts hp =>
      rw [hp] at h
      clear hp
      induction parts generalizing first with
      | nil => exact IsPhrase.word (h first (by simp))
      | cons part parts ih =>
          have hrest := ih part fun w hw => h w (List.mem_cons_of_mem _ hw)
          have hmark : '.' ∈ textMarks := by decide
          exact (IsPhrase.word (h first (by simp))).append_mark hmark (hrest.mark_cons hmark)

theorem Effects.isPhrase_append {ps : List Piece} (hp : IsPhrase ps) (e : Effects) :
    IsPhrase (ps ++ e.pieces) := by
  have hasync : isPlainName "async" = true := by decide
  have hthrows : isPlainName "throws" = true := by decide
  obtain ⟨isAsync, isThrowing⟩ := e
  cases isAsync <;> cases isThrowing
  · simpa [Effects.pieces] using hp
  · exact hp.append_space (IsPhrase.word hthrows)
  · exact hp.append_space (IsPhrase.word hasync)
  · have := (hp.append_space (IsPhrase.word hasync)).append_space (IsPhrase.word hthrows)
    simpa [Effects.pieces] using this

namespace TypeRef

theorem isPhrase_attributePieces {attributes : List String} {qs : List Piece}
    (h : ∀ a ∈ attributes, isPlainName a = true) (hq : IsPhrase qs) :
    IsPhrase (attributePieces attributes ++ qs) := by
  induction attributes with
  | nil => simpa [attributePieces] using hq
  | cons a attributes ih =>
      have hrest := ih fun b hb => h b (List.mem_cons_of_mem _ hb)
      have hword := (IsPhrase.word (h a (by simp))).append_space hrest
      have := hword.mark_cons (show '@' ∈ textMarks by decide)
      simpa [attributePieces] using this

/-- **The row of a well-formed type is a phrase.** -/
theorem isPhrase_pieces {t : TypeRef} (h : t.isWellFormed = true) : IsPhrase t.pieces := by
  induction t using TypeRef.induction with
  | primitive name =>
      have hall : ∀ n ∈ primitiveNames, isPlainName n = true := by decide
      simp only [isWellFormed, List.contains_iff_mem] at h
      exact IsPhrase.word (hall name h)
  | named name args ih =>
      simp only [isWellFormed, Bool.and_eq_true, areWellFormed_iff] at h
      obtain ⟨⟨hname, -⟩, hargs⟩ := h
      have hphrase := isPhrase_namePieces (isPlainName_of_isTypeName hname)
      cases args with
      | nil => simpa [pieces] using hphrase
      | cons t ts =>
          have hrows : ∀ row ∈ piecesAll (t :: ts), IsPhrase row := by
            intro row hrow
            rw [piecesAll_eq_map] at hrow
            obtain ⟨u, hu, rfl⟩ := List.mem_map.1 hrow
            exact ih u hu (hargs u hu)
          have hopen : '<' ∈ textMarks := by decide
          have hclose : '>' ∈ textMarks := by decide
          have hlist := isPhrase_commaRow_append hrows hclose (IsPhrase.mark hclose)
          rw [pieces]
          exact hphrase.append_mark hopen (hlist.mark_cons hopen)
  | sequence element ih =>
      have hclose : ']' ∈ textMarks := by decide
      rw [pieces]
      exact ((ih (by simpa [isWellFormed] using h)).append_mark hclose
        (IsPhrase.mark hclose)).mark_cons (by decide)
  | mapping key value ihk ihv =>
      simp only [isWellFormed, Bool.and_eq_true] at h
      have hclose : ']' ∈ textMarks := by decide
      have hcolon : ':' ∈ textMarks := by decide
      have hvalue := (ihv h.2).append_mark hclose (IsPhrase.mark hclose)
      have hrest := (IsPhrase.mark hcolon).append_space hvalue
      rw [pieces]
      exact ((ihk h.1).append_mark hcolon hrest).mark_cons (by decide)
  | optional wrapped ih =>
      have hw := ih (by simpa [isWellFormed] using h)
      have hquestion : '?' ∈ textMarks := by decide
      have hclose : ')' ∈ textMarks := by decide
      rw [pieces]
      split
      · exact (hw.append_mark hclose ((IsPhrase.mark hquestion).mark_cons hclose)).mark_cons
          (by decide)
      · exact hw.append_mark hquestion (IsPhrase.mark hquestion)
  | function attributes params effects result ihp ihr =>
      simp only [isWellFormed, Bool.and_eq_true, areWellFormed_iff, List.all_eq_true] at h
      obtain ⟨⟨hattributes, hparams⟩, hresult⟩ := h
      have hrows : ∀ row ∈ piecesAll params, IsPhrase row := by
        intro row hrow
        rw [piecesAll_eq_map] at hrow
        obtain ⟨u, hu, rfl⟩ := List.mem_map.1 hrow
        exact ihp u hu (hparams u hu)
      have hclose : ')' ∈ textMarks := by decide
      -- from the closing parenthesis to the result, then the parameters before it
      have heffects := Effects.isPhrase_append (IsPhrase.mark hclose) effects
      have harrow := IsPhrase.arrow.append_space (ihr hresult)
      have htail := heffects.append_space harrow
      rw [List.append_assoc, List.singleton_append] at htail
      have hlist := isPhrase_commaRow_append hrows hclose htail
      rw [pieces]
      exact isPhrase_attributePieces hattributes (hlist.mark_cons (by decide))
  | existential constraint ih =>
      simp only [isWellFormed, Bool.and_eq_true] at h
      rw [pieces]
      exact (IsPhrase.word (by decide)).append_space (ih h.2)

end TypeRef

end Scaffold
