/-
**Reading back failing mocks.**

The text of a failing mock is itself source.  Read as a unit it declares the class and the error
type nested in it, and the class has exactly the methods and initializers that the contract
requires, whatever their number: the bodies are passed over, and nothing else is taken for a member.

Main definitions:

* `Scaffold.Requirements.isReadable` — the requirements that are read back;
* `Scaffold.FailingMock.pieces` — the row of a failing mock.

Main results:

* `Scaffold.FailingMock.toList_code`, `Scaffold.FailingMock.spelled_pieces` — the row is the text;
* `Scaffold.FailingMock.valueBody_of_placed` — what the body of the class yields;
* `Scaffold.FailingMock.read_generate` — **the mock is read back** with the members required.
-/

import Scaffold.FailingMock
import Scaffold.Proofs.ValueBodies

set_option relaxedAutoImplicit false
set_option autoImplicit false

namespace Scaffold

open Text

/-! ### Rows of a mock -/

namespace Piece

/-- The end of a line, with blanks before the next one. -/
def lineBreak (indent : Nat) : Piece := .blanks ('\n' :: List.replicate indent ' ')

/-- The end of a line and an empty line, with blanks before the next one. -/
def emptyLine (indent : Nat) : Piece := .blanks ('\n' :: '\n' :: List.replicate indent ' ')

theorem proper_lineBreak (indent : Nat) : (lineBreak indent).Proper := by
  refine ⟨by simp, ?_⟩
  intro c hc
  rcases List.mem_cons.1 hc with rfl | hc
  · decide
  · rw [List.eq_of_mem_replicate hc]
    decide

theorem proper_emptyLine (indent : Nat) : (emptyLine indent).Proper := by
  refine ⟨by simp, ?_⟩
  intro c hc
  rcases List.mem_cons.1 hc with rfl | hc
  · decide
  · exact (proper_lineBreak indent).2 c hc

end Piece

/-- Whether the members that a contract requires are read back from inside a class. -/
def Requirements.isReadable (r : Requirements) : Bool :=
  r.methods.all (Method.isReadable (maxNesting - 1)) &&
    r.initializers.all (Initializer.isReadable (maxNesting - 1))

theorem Requirements.isReadable_iff {r : Requirements} :
    r.isReadable = true ↔ (∀ m ∈ r.methods, m.isReadable (maxNesting - 1) = true) ∧
      ∀ i ∈ r.initializers, i.isReadable (maxNesting - 1) = true := by
  simp [Requirements.isReadable]

namespace FailingMock

/-- The name of the error type inside a mock. -/
def failureName : String := "Failure"

/-- The type of the property that overrides the error. -/
def failureType : TypeRef := .optional (.existential (.named "Error" []))

/-- The row of the nested error type. -/
def failureEnumPieces : List Piece :=
  declarationPieces .enumeration failureName ["Error", "Equatable"]
    [.lineBreak 8, .word "case", .space, .word "unimplemented", .mark '(', .word "String", .mark ')',
      .lineBreak 4]

/-- The row of the property that overrides the error. -/
def failureFieldPieces : List Piece := variablePieces "failure" failureType

/-- The row of an initializer with an empty body. -/
def initializerPieces (i : Initializer) : List Piece := blockPieces i.pieces []

/-- The row of the body of a method: it throws, or it aborts. -/
def bodyPieces (m : Method) : List Piece :=
  if m.effects.isThrowing then
    [.lineBreak 8, .word "throw", .space, .word "failure", .space, .mark '?', .mark '?', .space,
      .word failureName, .mark '.', .word "unimplemented", .mark '(', .quoted m.selector.toList,
      .mark ')', .lineBreak 4]
  else
    [.lineBreak 8, .word "fatalError", .mark '(',
      .quoted ("unimplemented: " ++ m.selector).toList, .mark ')', .lineBreak 4]

/-- The row of a method without what stands before it. -/
def methodPieces (m : Method) : List Piece := blockPieces m.pieces (bodyPieces m)

/-- The row of the remark before a method that aborts. -/
def remarkPieces (m : Method) : List Piece :=
  if m.effects.isThrowing then []
  else [.remark (" Aborts: `" ++ m.selector ++ "` has no failure channel.").toList, .lineBreak 4]

/-- The row of the members of a mock. -/
def memberPieces (r : Requirements) : List Piece :=
  .lineBreak 4 :: (failureEnumPieces ++ .emptyLine 4 :: failureFieldPieces) ++
    r.initializers.flatMap (fun i => .emptyLine 4 :: initializerPieces i) ++
    r.methods.flatMap (fun m => .emptyLine 4 :: (remarkPieces m ++ methodPieces m))

/-- The row of a failing mock. -/
def pieces (name contract : String) (r : Requirements) : List Piece :=
  .word "final" :: .space ::
    (declarationPieces (.value .classForm) name [contract] (memberPieces r ++ [.lineBreak 0]) ++
      [.lineBreak 0])

/-! ### The text of the row -/

theorem append_lineEnd {xs ys rest : List Char} (h : '\n' :: xs = ys ++ ['\n']) :
    '\n' :: (xs ++ rest) = ys ++ '\n' :: rest := by
  rw [← List.cons_append, h]
  simp

/-- Line ends behind each of several texts, or before each. -/
theorem flatMap_lineEnds {α : Type} {f g : α → List Char} {xs : List α}
    (h : ∀ x ∈ xs, '\n' :: f x = g x ++ ['\n']) :
    '\n' :: xs.flatMap f = xs.flatMap g ++ ['\n'] := by
  induction xs with
  | nil => rfl
  | cons x xs ih =>
      have hrest := ih fun y hy => h y (List.mem_cons_of_mem _ hy)
      rw [List.flatMap_cons, List.flatMap_cons, append_lineEnd (h x (by simp)), hrest,
        List.append_assoc]

/-- The text of an initializer behind an empty line. -/
theorem rowText_initializerPieces {i : Initializer} (h : ∀ p ∈ i.params, p.default = none) :
    '\n' :: ("\n    " ++ i.render ++ " \x7b\x7d\n").toList =
      rowText (.emptyLine 4 :: initializerPieces i) ++ ['\n'] := by
  simp [initializerPieces, blockPieces, Initializer.toList_render h, Piece.text, Piece.emptyLine, Piece.space]

/-- The text of a method behind an empty line. -/
theorem rowText_methodPieces {m : Method} (h : ∀ p ∈ m.params, p.default = none) :
    '\n' :: (methodCode m).toList =
      rowText (.emptyLine 4 :: (remarkPieces m ++ methodPieces m)) ++ ['\n'] := by
  simp only [methodCode, remarkPieces, methodPieces, blockPieces, bodyPieces]
  split <;> simp [Method.toList_render h, Piece.text, Piece.emptyLine, Piece.lineBreak, Piece.space,
    failureName]

/-- The text of the nested error type and the property behind it. -/
theorem rowText_failurePieces :
    '\n' :: failureCode.toList =
      rowText (.lineBreak 4 :: (failureEnumPieces ++ .emptyLine 4 :: failureFieldPieces)) ++
        ['\n'] := by
  decide +kernel

/-- **The row of a failing mock has its text.** -/
theorem toList_code {name contract : String} {r : Requirements}
    (hm : ∀ m ∈ r.methods, ∀ p ∈ m.params, p.default = none)
    (hi : ∀ i ∈ r.initializers, ∀ p ∈ i.params, p.default = none) :
    (code name contract r).toList = rowText (pieces name contract r) := by
  have hmethods := flatMap_lineEnds (f := fun m => (methodCode m).toList)
    (g := fun m => rowText (.emptyLine 4 :: (remarkPieces m ++ methodPieces m)))
    fun m hmem => rowText_methodPieces (hm m hmem)
  have hinits := flatMap_lineEnds
    (f := fun i : Initializer => ("\n    " ++ i.render ++ " \x7b\x7d\n").toList)
    (g := fun i => rowText (.emptyLine 4 :: initializerPieces i))
    fun i hmem => rowText_initializerPieces (hi i hmem)
  have hopening : (classOpening name contract).toList =
      rowText (.word "final" :: .space :: .word "class" :: .space :: .word name :: .mark ':' ::
        .space :: .word contract :: .space :: [.mark '{']) ++ ['\n'] := by
    have hcode : classOpening name contract =
        "final class " ++ name ++ ": " ++ contract ++ " \x7b\n" := rfl
    simp [hcode, Piece.text, Piece.space]
  have hjoin : ∀ (α : Type) (f : α → String) (xs : List α),
      (String.join (xs.map f)).toList = xs.flatMap fun x => (f x).toList := by
    intro α f xs
    rw [String.toList_join, List.flatMap_map]
  have hrow : ∀ (α : Type) (f : α → List Piece) (xs : List α),
      rowText (xs.flatMap f) = xs.flatMap fun x => rowText (f x) := by
    intro α f xs
    simp [rowText, List.flatMap_assoc]
  have hend : ("\x7d\n" : String).toList = ['}', '\n'] := by decide
  simp only [code, Requirements.initializerCode, String.toList_append, hjoin, hopening, hend]
  simp only [String.toList_append] at hinits
  -- each line end moves from behind a part to the front of the next one
  rw [List.append_assoc, List.append_assoc, List.append_assoc, List.append_assoc,
    List.singleton_append, append_lineEnd rowText_failurePieces, append_lineEnd hinits,
    append_lineEnd hmethods]
  simp [pieces, memberPieces, declarationPieces, headerPieces, clausePieces, conformancePieces,
    commaRow, hrow, rowText_namePieces, Piece.text, Piece.lineBreak, Form.keyword,
    ValueForm.keyword]

/-! ### The row is spelled -/

/-- The characters of a selector whose names are names. -/
theorem mem_selector {room : Nat} {m : Method} (h : m.isReadable room = true) {c : Char}
    (hc : c ∈ m.selector.toList) : continuesName c = true ∨ c ∈ ['(', ':', ')'] := by
  obtain ⟨hname, hparams, -, -⟩ := Method.isReadable_iff.1 h
  simp only [Method.selector, labelText, String.toList_append, String.toList_join, List.mem_append,
    List.mem_flatMap, List.mem_map] at hc
  rcases hc with ((hc | hc) | ⟨text, ⟨p, hp, rfl⟩, hc⟩) | hc
  · exact Or.inl (continuesName_of_mem_plainName hname hc)
  · exact Or.inr (by simp at hc; simp [hc])
  · obtain ⟨-, hlabel, -, -, -⟩ := Parameter.isReadable_iff.1 (hparams p hp)
    rcases List.mem_append.1 (String.toList_append ▸ hc) with hc | hc
    · cases hl : p.label with
      | none =>
          rw [hl] at hc
          have hc : c = '_' := by simpa using hc
          exact Or.inl (hc ▸ by decide)
      | some label =>
          rw [hl] at hc
          exact Or.inl (continuesName_of_mem_plainName (hlabel label hl).1 hc)
    · exact Or.inr (by simp at hc; simp [hc])
  · exact Or.inr (by simp at hc; simp [hc])

/-- Selectors hold no quote, no backslash and no line end. -/
theorem plain_selector {room : Nat} {m : Method} (h : m.isReadable room = true) :
    ∀ c ∈ m.selector.toList, c ≠ '\x22' ∧ c ≠ '\\' ∧ c ≠ '\n' := by
  intro c hc
  have hall : ['\x22', '\\', '\n'].all
      (fun d => !continuesName d && !(['(', ':', ')'].contains d)) = true := by decide
  have hne : ∀ d ∈ ['\x22', '\\', '\n'], c ≠ d := by
    rintro d hd rfl
    obtain ⟨hname, hmark⟩ := Bool.and_eq_true_iff.1 (List.all_eq_true.1 hall c hd)
    rcases mem_selector h hc with hcontinues | hmem
    · simp [hcontinues] at hname
    · simp [hmem] at hmark
  exact ⟨hne _ (by simp), hne _ (by simp), hne _ (by simp)⟩

theorem isPhrase_initializerPieces {room : Nat} {i : Initializer} (h : i.isReadable room = true) :
    IsPhrase (initializerPieces i) :=
  (Initializer.isPhrase_pieces h).append_space ((IsPhrase.mark (by decide)).mark_cons (by decide))

/-- A phrase in braces, on lines of its own. -/
theorem isPhrase_block {ps : List Piece} (h : IsPhrase ps) :
    IsPhrase (.mark '{' :: (.lineBreak 8 :: (ps ++ [.lineBreak 4]) ++ [.mark '}'])) := by
  have hclose : IsPhrase [.mark '}'] := IsPhrase.mark (by decide)
  have hopen : IsPhrase [.mark '{'] := IsPhrase.mark (by decide)
  simpa [Piece.lineBreak] using hopen.append_blanks (Piece.proper_lineBreak 8)
    (h.append_blanks (Piece.proper_lineBreak 4) hclose)

theorem isPhrase_bodyPieces {room : Nat} {m : Method} (h : m.isReadable room = true) :
    IsPhrase (.mark '{' :: (bodyPieces m ++ [.mark '}'])) := by
  have hopen : '(' ∈ textMarks := by decide
  have hclose : ')' ∈ textMarks := by decide
  have hplain := plain_selector h
  have hcall : ∀ text : List Char, text ≠ [] →
      (∀ c ∈ text, c ≠ '\x22' ∧ c ≠ '\\' ∧ c ≠ '\n') →
      IsPhrase [.mark '(', .quoted text, .mark ')'] := by
    intro text hne htext
    exact ((IsPhrase.quoted ⟨hne, htext⟩).append_mark hclose (IsPhrase.mark hclose)).mark_cons hopen
  simp only [bodyPieces]
  split
  · have hne : m.selector.toList ≠ [] := by simp [Method.selector]
    have hpoint : '.' ∈ textMarks := by decide
    have hquestion : '?' ∈ textMarks := by decide
    have hword : ∀ w, isPlainName w = true → IsPhrase [.word w] := fun w hw => IsPhrase.word hw
    have herror := (hword "unimplemented" (by decide)).append_mark hopen (hcall _ hne hplain)
    have hqualified := (hword failureName (by decide)).append_mark hpoint (herror.mark_cons hpoint)
    have helse := ((IsPhrase.mark hquestion).append_space hqualified).mark_cons hquestion
    exact isPhrase_block ((hword "throw" (by decide)).append_space
      ((hword "failure" (by decide)).append_space helse))
  · have hne : ("unimplemented: " ++ m.selector).toList ≠ [] := by simp
    have htext : ∀ c ∈ ("unimplemented: " ++ m.selector).toList, c ≠ '\x22' ∧ c ≠ '\\' ∧ c ≠ '\n' := by
      intro c hc
      rcases List.mem_append.1 (String.toList_append ▸ hc) with hc | hc
      · have hall : ∀ d ∈ "unimplemented: ".toList, d ≠ '\x22' ∧ d ≠ '\\' ∧ d ≠ '\n' := by simp
        exact hall c hc
      · exact hplain c hc
    exact isPhrase_block ((IsPhrase.word (by decide)).append_mark hopen (hcall _ hne htext))

theorem isPhrase_methodPieces {room : Nat} {m : Method} (h : m.isReadable room = true) :
    IsPhrase (remarkPieces m ++ methodPieces m) := by
  have hmethod : IsPhrase (methodPieces m) :=
    (Method.isPhrase_pieces h).append_space (isPhrase_bodyPieces h)
  simp only [remarkPieces]
  split
  · exact hmethod
  · refine IsPhrase.remark_cons ?_ (Piece.proper_lineBreak 4) hmethod
    intro c hc
    simp only [String.toList_append, List.mem_append] at hc
    have hall : ∀ d ∈ " Aborts: `".toList ++ "` has no failure channel.".toList, d ≠ '\n' := by
      simp
    rcases hc with (hc | hc) | hc
    · exact hall c (List.mem_append_left _ hc)
    · exact (plain_selector h c hc).2.2
    · exact hall c (List.mem_append_right _ hc)

theorem isPhrase_failurePieces :
    IsPhrase (failureEnumPieces ++ .emptyLine 4 :: failureFieldPieces) := by
  have hword : ∀ w, isPlainName w = true → IsPhrase [.word w] := fun w hw => IsPhrase.word hw
  have hopen : '(' ∈ textMarks := by decide
  have hclose : ')' ∈ textMarks := by decide
  have hcolon : ':' ∈ textMarks := by decide
  have hvalues := ((hword "String" (by decide)).append_mark hclose
    (IsPhrase.mark hclose)).mark_cons hopen
  have hcase := (hword "case" (by decide)).append_space
    ((hword "unimplemented" (by decide)).append_mark hopen hvalues)
  have henum : IsPhrase failureEnumPieces :=
    isPhrase_declarationPieces (by decide) (by decide) (isPhrase_block hcase)
  have htype : IsPhrase failureType.pieces := TypeRef.isPhrase_pieces (by decide)
  have hfield : IsPhrase failureFieldPieces :=
    (hword "var" (by decide)).append_space ((hword "failure" (by decide)).append_mark hcolon
      ((IsPhrase.mark hcolon).append_space htype))
  exact henum.append_blanks (Piece.proper_emptyLine 4) hfield

/-- A phrase goes on with further phrases, each behind an empty line. -/
theorem isPhrase_append_flatMap {α : Type} {ps : List Piece} {row : α → List Piece} {xs : List α}
    (hp : IsPhrase ps) (hrow : ∀ x ∈ xs, IsPhrase (row x)) :
    IsPhrase (ps ++ xs.flatMap fun x => .emptyLine 4 :: row x) := by
  induction xs generalizing ps with
  | nil => simpa using hp
  | cons x xs ih =>
      have hx := hp.append_blanks (Piece.proper_emptyLine 4) (hrow x (by simp))
      have := ih hx fun y hy => hrow y (List.mem_cons_of_mem _ hy)
      simpa [Piece.emptyLine] using this

/-- **The row of a failing mock is spelled.** -/
theorem spelled_pieces {name contract : String} {r : Requirements} (hname : isPlainName name = true)
    (hcontract : isPlainName contract = true) (hr : r.isReadable = true) :
    Spelled (pieces name contract r) none := by
  obtain ⟨hmethods, hinits⟩ := Requirements.isReadable_iff.1 hr
  have hopen : IsPhrase [.mark '{'] := IsPhrase.mark (by decide)
  have hfailure := hopen.append_blanks (Piece.proper_lineBreak 4) isPhrase_failurePieces
  have hmembers := isPhrase_append_flatMap
    (isPhrase_append_flatMap hfailure fun i hi => isPhrase_initializerPieces (hinits i hi))
    fun m hm => isPhrase_methodPieces (hmethods m hm)
  have hclose : IsPhrase [.mark '}'] := IsPhrase.mark (by decide)
  have hbody := hmembers.append_blanks (Piece.proper_lineBreak 0) hclose
  have hclass : IsPhrase (declarationPieces (.value .classForm) name [contract]
      (memberPieces r ++ [.lineBreak 0])) :=
    isPhrase_declarationPieces hname (by simpa using hcontract)
      (by simpa [memberPieces, Piece.lineBreak] using hbody)
  have hfinal : IsPhrase [.word "final"] := IsPhrase.word (by decide)
  have hbreak : (Piece.lineBreak 0).Proper := Piece.proper_lineBreak 0
  have hrow : pieces name contract r = ([.word "final"] ++ .space ::
      declarationPieces (.value .classForm) name [contract] (memberPieces r ++ [.lineBreak 0])) ++
      [.lineBreak 0] := rfl
  rw [hrow, spelled_append]
  exact ⟨(hfinal.append_space hclass).spelled _ (endsName_frontOr_blanks hbreak), hbreak,
    by simp [Piece.lineBreak, Piece.EndsBefore], trivial⟩

/-! ### The body of the class -/

theorem braceFree_bodyPieces (m : Method) : BraceFree (bodyPieces m) := by
  simp only [bodyPieces]
  split <;> simp [Piece.kind?, Piece.lineBreak, Piece.space]

/-- A member with a body leaves open braces as they are. -/
theorem balanced_block {signature body : List Piece} (hs : BraceFree signature)
    (hb : BraceFree body) : Balanced .curly (blockPieces signature body) := by
  have hspace : Balanced .curly [.space] := balanced_of_forall (by decide)
  have := hs.balanced.append (hspace.append hb.balanced.group)
  simpa [blockPieces, Bracket.opener, Bracket.closer] using this

theorem balanced_flatMap {α : Type} {row : α → List Piece} {xs : List α}
    (h : ∀ x ∈ xs, Balanced .curly (row x)) : Balanced .curly (xs.flatMap row) := by
  induction xs with
  | nil => exact balanced_of_forall (by simp)
  | cons x xs ih =>
      rw [List.flatMap_cons]
      exact (h x (by simp)).append (ih fun y hy => h y (List.mem_cons_of_mem _ hy))

/-- The braces of the members of a mock balance. -/
theorem balanced_memberPieces (r : Requirements) : Balanced .curly (memberPieces r) := by
  have hblanks : ∀ cs, Balanced .curly [.blanks cs] :=
    fun cs => balanced_of_forall (by simp [Piece.kind?])
  have hinits : Balanced .curly
      (r.initializers.flatMap fun i => .emptyLine 4 :: initializerPieces i) :=
    balanced_flatMap fun i _ =>
      (hblanks _).append (balanced_block i.braceFree_pieces braceFree_nil)
  have hremark : ∀ m, BraceFree (remarkPieces m) := by
    intro m
    simp only [remarkPieces]
    split <;> simp [Piece.kind?, Piece.lineBreak]
  have hmethods : Balanced .curly
      (r.methods.flatMap fun m => .emptyLine 4 :: (remarkPieces m ++ methodPieces m)) :=
    balanced_flatMap fun m _ => (hblanks _).append ((hremark m).balanced.append
      (balanced_block m.braceFree_pieces (braceFree_bodyPieces m)))
  have hcases : BraceFree [.lineBreak 8, .word "case", .space, .word "unimplemented", .mark '(',
      .word "String", .mark ')', .lineBreak 4] := by
    simp [Piece.kind?, Piece.lineBreak, Piece.space]
  have henum : Balanced .curly failureEnumPieces := balanced_declarationPieces hcases.balanced
  have hfield : BraceFree (.emptyLine 4 :: failureFieldPieces) := by
    simp [failureFieldPieces, variablePieces, propertyPieces, Piece.kind?, Piece.space,
      Piece.emptyLine, TypeRef.braceFree_pieces]
  have hfailure := (hblanks ('\n' :: List.replicate 4 ' ')).append
    (henum.append hfield.balanced)
  exact (hfailure.append hinits).append hmethods

/-- The nested error type as it is read back. -/
def failureEnum : Enumeration :=
  { cases := ["unimplemented"], hasAssociatedValues := true, conformances := ["Error", "Equatable"] }

/-- The cases of the nested error type are read back. -/
theorem body_failureEnum {source : List Char} {markerPrefix : String} {room : Nat}
    {nested : NestedReader} (prev : Option Token) {ts : List Token}
    (hts : Spells ts [.lineBreak 8, .word "case", .space, .word "unimplemented", .mark '(',
      .word "String", .mark ')', .lineBreak 4]) :
    Cursor.body source markerPrefix room nested .enumeration ["Error", "Equatable"] ⟨prev, ts⟩ =
      some ({}, .ok (.enumeration failureEnum)) := by
  obtain ⟨k, ks, rfl, hk, hks⟩ := spells_word.1 (spells_blanks.1 hts)
  obtain ⟨n, ns, rfl, hn, hns⟩ := spells_word.1 (spells_space.1 hks)
  obtain ⟨o, os, rfl, ho, hos⟩ := spells_mark.1 hns
  obtain ⟨v, vs, rfl, hv, hvs⟩ := spells_word.1 hos
  obtain ⟨c, cs, rfl, hc, hcs⟩ := spells_mark.1 hvs
  obtain rfl := spells_nil.1 (spells_blanks.1 hcs)
  have hinside : Balanced .round [.word "String"] := balanced_of_forall (by decide)
  have hskip : (⟨some n, [o, v, c]⟩ : Cursor).skipGroup = ⟨some c, []⟩ :=
    skipGroup_of_balanced hinside (spells_word.2 ⟨v, [], rfl, hv, rfl⟩) ho hc (some n)
  have hmodifier : modifiers.contains "case" = false := by decide
  have hcases : Cursor.cases {} ⟨some k, [n, o, v, c]⟩ =
      .ok ({ cases := ["unimplemented"], hasAssociatedValues := true }, ⟨some c, []⟩) := by
    simp only [Cursor.cases, Cursor.casesFrom, Cursor.expectName_of_word hn, Cursor.caseValues,
      Cursor.atMark_of_mark ho, hskip, bind, Except.bind, if_true]
    rfl
  simp only [Cursor.body, Cursor.enumerationBody, Cursor.enumerationBodyFrom, Cursor.next?,
    List.head?_cons, Cursor.enumerationItem, hk, hmodifier, Bool.false_eq_true, if_false,
    Cursor.enumerationMember, if_true, Cursor.advance, hcases]
  rfl

/-- The error type nested in a mock, as a declaration. -/
def failureEntry (unit name : String) : Entry :=
  ⟨{ name := name ++ "." ++ failureName, parent := some name, unit, line := 2,
     shape := .enumeration failureEnum }, []⟩

/-- The class of a mock as it is read back. -/
def mockClass (conformances : List String) (r : Requirements) : ValueType :=
  { form := .classForm
    fields := [{ name := "failure", type := failureType, isMutable := true }]
    methods := r.methods
    initializers := r.initializers
    conformances := conformances }

/-- What follows the property of a mock: initializers, methods with or without a comment before
them, or nothing. -/
theorem followsProperty_members {r : Requirements} {ts : List Token}
    (hts : Spells ts (r.initializers.flatMap (fun i => .emptyLine 4 :: initializerPieces i) ++
      (r.methods.flatMap (fun m => .emptyLine 4 :: (remarkPieces m ++ methodPieces m)) ++
        [.lineBreak 0]))) : EndsWith FollowsProperty ts := by
  cases hi : r.initializers with
  | cons i is =>
      rw [hi, List.flatMap_cons, List.append_assoc, initializerPieces, blockPieces,
        Initializer.pieces] at hts
      obtain ⟨u, us, rfl, hu, -⟩ := spells_word.1 (spells_blanks.1 hts)
      exact endsWith_cons.2 (Or.inl ⟨_, hu⟩)
  | nil =>
      rw [hi, List.flatMap_nil, List.nil_append] at hts
      cases hm : r.methods with
      | nil =>
          rw [hm] at hts
          obtain rfl := spells_nil.1 (spells_blanks.1 hts)
          exact endsWith_nil _
      | cons m ms =>
          rw [hm, List.flatMap_cons, List.append_assoc, remarkPieces, methodPieces, blockPieces,
            Method.pieces] at hts
          have hrow := spells_blanks.1 hts
          split at hrow
          · obtain ⟨u, us, rfl, hu, -⟩ := spells_word.1 hrow
            exact endsWith_cons.2 (Or.inl ⟨_, hu⟩)
          · obtain ⟨u, us, rfl, hu, -⟩ := (spells_cons rfl).1 hrow
            exact endsWith_cons.2 (Or.inr ⟨_, hu⟩)

/-- The nested error type is read back. -/
theorem reaches_failureEnum {unit : String} {source : List Char} {markerPrefix : String}
    {room : Nat} {name : String} {s : Cursor.ValueState} (hs : s.markers = []) {ts : List Token}
    (hts : Placed source 2 ts failureEnumPieces) (rest : List Token) :
    Reaches source markerPrefix (room + 1)
      (Cursor.declaration unit source markerPrefix (room + 1) (some name)) s
      (s.addOutcome { entries := [failureEntry unit name] }) ts rest := by
  have hread : ∀ prev, ∃ last, Cursor.declaration unit source markerPrefix (room + 1) (some name)
      .enumeration s.markers ⟨prev, ts ++ rest⟩ =
        some ({ entries := [failureEntry unit name] }, ⟨last, rest⟩) := by
    intro prev
    rw [hs]
    exact declaration_of_placed (by decide) (balanced_of_forall (by decide))
      (fun prev us hus => body_failureEnum prev hus.spells) prev [] hts
  have hfirst := hts
  rw [failureEnumPieces, declarationPieces, headerPieces] at hfirst
  obtain ⟨t, us, rfl, ht, -⟩ := hfirst.word
  exact reaches_nested ht (by decide) hread

/-- The initializers of a mock are read back. -/
theorem reaches_initializers {source : List Char} {markerPrefix : String} {room : Nat}
    {nested : NestedReader} {is : List Initializer} (h : ∀ i ∈ is, i.isReadable room = true)
    (s : Cursor.ValueState) {ts : List Token} (rest : List Token)
    (hts : Spells ts (is.flatMap fun i => .emptyLine 4 :: initializerPieces i)) :
    Reaches source markerPrefix room nested s (is.foldl Cursor.ValueState.addInitializer s) ts
      rest := by
  refine reaches_flatMap (fun i hi s us rest hus => ?_) s ts rest hts
  exact reaches_initializer (h i hi) braceFree_nil.balanced (spells_blanks.1 hus) rest

/-- The methods of a mock are read back, and the remarks before them passed over. -/
theorem reaches_methods {source : List Char} {markerPrefix : String} {room : Nat}
    {nested : NestedReader} {ms : List Method} (h : ∀ m ∈ ms, m.isReadable room = true)
    (s : Cursor.ValueState) {ts : List Token} (rest : List Token)
    (hts : Spells ts (ms.flatMap fun m => .emptyLine 4 :: (remarkPieces m ++ methodPieces m))) :
    Reaches source markerPrefix room nested s (ms.foldl Cursor.ValueState.addMethod s) ts rest := by
  refine reaches_flatMap (fun m hm s us rest hus => ?_) s ts rest hts
  obtain ⟨rs, vs, rfl, hrs, hvs⟩ := spells_append.1 (spells_blanks.1 hus)
  have hmethod : ∀ s, Reaches source markerPrefix room nested s (s.addMethod m) vs rest :=
    fun s => reaches_method (h m hm) (braceFree_bodyPieces m).balanced hvs rest
  rw [remarkPieces] at hrs
  split at hrs
  · obtain rfl := spells_nil.1 hrs
    exact hmethod s
  · obtain ⟨u, us, rfl, hu, hus⟩ := (spells_cons rfl).1 hrs
    obtain rfl := spells_nil.1 (spells_blanks.1 hus)
    -- the markers in the remark apply to nothing but the method
    exact (reaches_comment hu (vs ++ rest)).trans (hmethod _)

theorem foldl_addInitializer (is : List Initializer) (s : Cursor.ValueState) :
    (is.foldl Cursor.ValueState.addInitializer s).value =
        { s.value with initializers := s.value.initializers ++ is } ∧
      (is.foldl Cursor.ValueState.addInitializer s).outcome = s.outcome := by
  induction is generalizing s with
  | nil => simp
  | cons i is ih =>
      obtain ⟨hvalue, houtcome⟩ := ih (s.addInitializer i)
      rw [List.foldl_cons, hvalue, houtcome]
      simp [Cursor.ValueState.addInitializer, Cursor.ValueState.afterMember]

theorem foldl_addMethod (ms : List Method) (s : Cursor.ValueState) :
    (ms.foldl Cursor.ValueState.addMethod s).value =
        { s.value with methods := s.value.methods ++ ms } ∧
      (ms.foldl Cursor.ValueState.addMethod s).outcome = s.outcome := by
  induction ms generalizing s with
  | nil => simp
  | cons m ms ih =>
      obtain ⟨hvalue, houtcome⟩ := ih (s.addMethod m)
      rw [List.foldl_cons, hvalue, houtcome]
      simp [Cursor.ValueState.addMethod, Cursor.ValueState.afterMember]

/-- **What the body of the class yields**: the members required, and the nested error type. -/
theorem valueBody_of_placed {unit : String} {source : List Char} {markerPrefix : String}
    {name : String} {r : Requirements} (hr : r.isReadable = true) (prev : Option Token)
    {ts : List Token} (hts : Placed source 1 ts (memberPieces r ++ [.lineBreak 0])) :
    Cursor.valueBody source markerPrefix (maxNesting - 1)
        (Cursor.declaration unit source markerPrefix (maxNesting - 1) (some name)) .classForm
        ⟨prev, ts⟩ =
      some ({ entries := [failureEntry unit name] },
        .ok (mockClass [] r)) := by
  obtain ⟨hmethods, hinits⟩ := Requirements.isReadable_iff.1 hr
  rw [memberPieces, List.append_assoc, List.append_assoc, List.cons_append, List.append_assoc,
    List.cons_append] at hts
  obtain ⟨es, us, rfl, hes, hus⟩ := hts.blanks.append
  obtain ⟨fs, vs, rfl, hfs, hvs⟩ := spells_append.1 (spells_blanks.1 hus.spells)
  have hfollows := followsProperty_members hvs
  obtain ⟨is, ws, rfl, his, hws⟩ := spells_append.1 hvs
  obtain ⟨ms, ls, rfl, hms, hls⟩ := spells_append.1 hws
  obtain rfl := spells_nil.1 (spells_blanks.1 hls)
  -- one item after the other, from the state before the body
  have hmembers : ∀ s, Reaches source markerPrefix (maxNesting - 1)
      (Cursor.declaration unit source markerPrefix (maxNesting - 1) (some name)) s
      (r.methods.foldl Cursor.ValueState.addMethod
        (r.initializers.foldl Cursor.ValueState.addInitializer s)) (is ++ (ms ++ [])) [] := by
    intro s
    rw [List.append_nil]
    exact (reaches_initializers hinits s (ms ++ []) his).trans (reaches_methods hmethods _ [] hms)
  let s : Cursor.ValueState := { value := { form := .classForm } }
  have hfield := (reaches_variable (s := s.addOutcome { entries := [failureEntry unit name] }) rfl
    (by decide) (by decide) hfs (by simpa using hfollows)).trans (hmembers _)
  have hbody := (reaches_failureEnum (s := s) rfl hes _).trans hfield
  have hread := valueBody_of_reaches hbody prev
  rw [(foldl_addMethod _ _).1, (foldl_addMethod _ _).2, (foldl_addInitializer _ _).1,
    (foldl_addInitializer _ _).2] at hread
  exact hread

/-! ### The unit -/

/-- The last part of a name without dots is the name. -/
theorem lastSegment_of_plainName {w : String} (h : isPlainName w = true) : lastSegment w = w := by
  have hdot : ∀ c ∈ w.toList.reverse, (c != '.') = true := by
    intro c hc
    have hcontinues := continuesName_of_mem_plainName h (List.mem_reverse.1 hc)
    have hpoint : continuesName '.' = false := by decide
    simp only [bne_iff_ne]
    rintro rfl
    rw [hpoint] at hcontinues
    exact absurd hcontinues (by decide)
  have htake : (w.toList.reverse ++ []).takeWhile (· != '.') = w.toList.reverse :=
    takeWhile_append_stop hdot (by simp)
  rw [List.append_nil] at htake
  rw [lastSegment, htake, List.reverse_reverse, String.ofList_toList]

/-- The stem of a name is a start of it, and not empty. -/
theorem stem_append (n : Naming) {w : String} (h : isPlainName w = true) :
    n.stem w ≠ "" ∧ ∃ tail, (n.stem w).toList ++ tail = w.toList := by
  simp only [Naming.stem]
  cases hs : n.contractSuffixes.findSome? (Naming.stemWithout? w) with
  | none =>
      refine ⟨?_, [], by simp⟩
      rintro hempty
      have := plainName_ne_empty h
      simp_all
  | some stem =>
      obtain ⟨suffix, -, hstem⟩ := List.exists_of_findSome?_eq_some hs
      simp only [Naming.stemWithout?, Option.filter_eq_some_iff] at hstem
      exact ⟨by simpa using hstem.2, suffix.toList, append_of_dropSuffix? hstem.1⟩

/-- The name of the class of a mock is a name. -/
theorem isPlainName_failingMockName {n : Naming} {w : String} (h : isPlainName w = true)
    (hsuffix : n.failingMockSuffix.toList.all continuesName = true) :
    isPlainName (n.failingMockName w) = true := by
  obtain ⟨hne, tail, htail⟩ := stem_append n h
  have hw := h
  simp only [isPlainName] at hw ⊢
  simp only [Naming.failingMockName, String.toList_append]
  rw [← htail] at hw
  cases hs : (n.stem w).toList with
  | nil => exact absurd (String.toList_eq_nil_iff.1 hs) hne
  | cons c cs =>
      rw [hs] at hw
      simp only [List.cons_append, Bool.and_eq_true, List.all_append] at hw ⊢
      exact ⟨hw.1, hw.2.1, hsuffix⟩

/-- The text of a mock, read as a unit. -/
theorem read?_code {name contract : String} {r : Requirements} (hname : isPlainName name = true)
    (hcontract : isPlainName contract = true) (hwhere : contract ≠ "where")
    (hr : r.isReadable = true) (unit markerPrefix : String) :
    Source.read? markerPrefix ⟨unit, code name contract r⟩ =
      some { entries := [⟨{ name, unit, line := 1, shape := .value (mockClass [contract] r) }, []⟩,
        failureEntry unit name] } := by
  obtain ⟨hmethods, hinits⟩ := Requirements.isReadable_iff.1 hr
  have htext : (code name contract r).toList = rowText (pieces name contract r) :=
    toList_code
      (fun m hm p hp => (Parameter.isReadable_iff.1
        ((Method.isReadable_iff.1 (hmethods m hm)).2.1 p hp)).2.2.2.2)
      (fun i hi p hp => (Parameter.isReadable_iff.1
        (Initializer.isReadable_iff.1 (hinits i hi) p hp)).2.2.2.2)
  have htokens := tokenize_spelled htext (spelled_pieces hname hcontract hr)
  have hplaced : Placed (code name contract r).toList 1 (lay 0 1 (pieces name contract r))
      (pieces name contract r) := ⟨[], [], by simp [htext], rfl⟩
  -- where the tokens stand is all that matters from here on
  generalize lay 0 1 (pieces name contract r) = ts at htokens hplaced
  rw [pieces] at hplaced
  obtain ⟨t, us, rfl, ht, -, -, hus⟩ := hplaced.word
  obtain ⟨cs, vs, rfl, hcs, hvs⟩ := hus.space.append
  obtain rfl := spells_nil.1 (spells_blanks.1 hvs.spells)
  have hbody : ∀ prev us, Placed (code name contract r).toList 1 us
      (memberPieces r ++ [.lineBreak 0]) →
      Cursor.body (code name contract r).toList markerPrefix (maxNesting - 1)
        (Cursor.declaration unit (code name contract r).toList markerPrefix (maxNesting - 1)
          (some (Cursor.qualified none name))) (.value .classForm) [contract] ⟨prev, us⟩ =
        some ({ entries := [failureEntry unit name] }, .ok (.value (mockClass [contract] r))) := by
    intro prev us hus
    simp only [Cursor.body, Cursor.qualified, valueBody_of_placed hr prev hus]
    rfl
  have hbalanced : Balanced .curly (memberPieces r ++ [.lineBreak 0]) :=
    (balanced_memberPieces r).append (balanced_of_forall (by decide))
  have hclass : ∀ rest, ∃ last, Cursor.declaration unit (code name contract r).toList markerPrefix
      maxNesting none (.value .classForm) [] ⟨some t, cs ++ rest⟩ =
        some ({ entries := [⟨{ name, unit, line := 1, shape := .value (mockClass [contract] r) }, []⟩,
          failureEntry unit name] }, ⟨last, rest⟩) :=
    fun rest => declaration_of_placed (by simpa using ⟨hcontract, hwhere⟩) hbalanced hbody
      (some t) [] hcs
  obtain ⟨last, hread⟩ := hclass []
  rw [declarationPieces, headerPieces] at hcs
  obtain ⟨k, ks, rfl, hk, -⟩ := hcs.word
  have hmodifier : modifiers.contains "final" = true := by decide
  have hskip : (⟨none, t :: k :: (ks ++ [])⟩ : Cursor).skipModifier = ⟨some t, k :: (ks ++ [])⟩ :=
    Cursor.skipGluedParens_eq (endsWith_cons.2 (by simp [hk]))
  have hitems : Cursor.itemsFrom (Cursor.declaration unit (code name contract r).toList markerPrefix
      maxNesting none) markerPrefix (t :: k :: (ks ++ [])).length [] ⟨some t, k :: (ks ++ [])⟩ =
        some _ := itemsFrom_of_declaration hk hread
  -- the modifier, and then the class up to the end of the unit
  simp only [Source.read?, htokens, List.cons_append, Cursor.items, Cursor.start]
  rw [Cursor.itemsFrom]
  simp only [Cursor.next?, List.head?_cons, Cursor.item, ht, hmodifier, if_true, hskip, hitems]
  rfl

/-- **A failing mock is read back.**  As long as the names, labels and types of the members that a
contract requires have a spelling of their own, the text of its failing mock declares the class and
the error type nested in it, and the class has exactly the members required. -/
theorem read_generate {ctx : Context} {d : Declaration} (hname : isPlainName d.name = true)
    (hwhere : d.name ≠ "where")
    (hsuffix : ctx.settings.naming.failingMockSuffix.toList.all continuesName = true)
    (hr : (ctx.corpus.requirements d).isReadable = true) (unit markerPrefix : String) :
    ∃ a text, generate ctx d = .ok [a] ∧ a.fragments = [text] ∧
      let name := ctx.settings.naming.stem d.name ++ ctx.settings.naming.failingMockSuffix
      let r := ctx.corpus.requirements d
      Source.read markerPrefix ⟨unit, text⟩ =
        { entries := [⟨{ name, unit, line := 1, shape := .value (mockClass [d.name] r) }, []⟩,
            failureEntry unit name]
          problems := []
          rejected := [] } := by
  have hplain := isPlainName_failingMockName hname hsuffix
  have hsimple : d.simpleName = d.name := lastSegment_of_plainName hname
  refine ⟨_, code (ctx.settings.naming.failingMockName d.name) d.name (ctx.corpus.requirements d),
    rfl, by simp [hsimple], ?_⟩
  rw [Source.read, read?_code hplain hname hwhere hr]
  rfl

/-- A contract that refines another one, with labels of all kinds, an argument that is passed back,
a closure, and methods that throw or abort. -/
theorem read_generate_loader :
    let closure : TypeRef := .function ["escaping"] [.existential (.named "Error" [])] {} .void
    let load : Method :=
      { name := "load"
        params := [⟨some "from", "url", .primitive "URL", none, false⟩,
          ⟨some "cache", "cache", .mapping (.primitive "String") (.primitive "Data"), none, true⟩,
          ⟨none, "handler", closure, none, false⟩]
        effects := ⟨true, true⟩
        result := .optional (.named "Page" [.primitive "Data"]) }
    let reset : Method := { name := "reset", params := [], effects := {}, result := .void }
    let base : Declaration := { name := "Base", shape := .contract { methods := [reset] } }
    let d : Declaration :=
      { name := "LoaderProtocol"
        shape := .contract
          { methods := [load]
            initializers := [⟨[⟨none, "clock", .primitive "Date", none, false⟩], {}⟩]
            inherits := ["Base"] } }
    let ctx : Context :=
      { corpus := ⟨[⟨base, []⟩, ⟨d, []⟩]⟩, settings := {}, provider := {}, resolutions := [] }
    (ctx.corpus.requirements d).methods = [load, reset] ∧
      ∃ a text, generate ctx d = .ok [a] ∧ a.fragments = [text] ∧
        Source.read "@gen" ⟨"Mocks.swift", text⟩ =
          { entries :=
              [⟨{ name := "LoaderFailingMock"
                  unit := "Mocks.swift"
                  line := 1
                  shape := .value (mockClass [d.name] (ctx.corpus.requirements d)) }, []⟩,
                failureEntry "Mocks.swift" "LoaderFailingMock"] } := by
  intro closure load reset base d ctx
  have hname : ctx.settings.naming.stem d.name ++ ctx.settings.naming.failingMockSuffix =
      "LoaderFailingMock" := by decide
  have hread := @read_generate ctx d (by decide) (by decide) (by decide) (by decide) "Mocks.swift"
    "@gen"
  simp only [hname] at hread
  exact ⟨by decide, hread⟩

end FailingMock

end Scaffold
