/-
**Reading back signatures.**

Parameters, methods and initializers have rows as types do.  A signature whose names, labels and
types have a spelling of their own, and which gives no default values, is read back from its row
wherever a body in braces follows.

Main definitions:

* `Scaffold.Parameter.isReadable`, `Scaffold.Method.isReadable`, `Scaffold.Initializer.isReadable`
  — the signatures that are read back, with room for a number of cores;
* `Scaffold.Parameter.pieces`, `Scaffold.Method.pieces`, `Scaffold.Initializer.pieces` — rows.

Main results:

* `Scaffold.Method.toList_render`, `Scaffold.Method.isPhrase_pieces` — the rows are the texts;
* `Scaffold.takes_method`, `Scaffold.takes_initializer` — **signatures are read back**.
-/

import Scaffold.Proofs.TypeRoundTrip
import Scaffold.Signature
import Scaffold.Source.Members

set_option relaxedAutoImplicit false
set_option autoImplicit false

namespace Scaffold

open Text

/-! ### Signatures that are read back -/

/-- Whether a parameter is read back with room for a number of cores: its name and label are names,
an underscore is no label, and no default value is given. -/
def Parameter.isReadable (room : Nat) (p : Parameter) : Bool :=
  isPlainName p.name && p.label.all (fun label => isPlainName label && label != "_") &&
    p.type.isWellFormed && decide (p.type.nesting ≤ room) && p.default.isNone

/-- Whether a method is read back with room for a number of cores. -/
def Method.isReadable (room : Nat) (m : Method) : Bool :=
  isPlainName m.name && m.params.all (Parameter.isReadable room) && m.result.isWellFormed &&
    decide (m.result.nesting ≤ room)

/-- Whether an initializer is read back with room for a number of cores. -/
def Initializer.isReadable (room : Nat) (i : Initializer) : Bool :=
  i.params.all (Parameter.isReadable room)

/-! ### Rows -/

/-- The row of the label and the name of a parameter. -/
def Parameter.bindingPieces (p : Parameter) : List Piece :=
  match p.label with
  | none => [.word "_", .space, .word p.name]
  | some label =>
    if label = p.name then [.word p.name] else [.word label, .space, .word p.name]

/-- The row of a parameter without a default value. -/
def Parameter.pieces (p : Parameter) : List Piece :=
  p.bindingPieces ++ .mark ':' :: .space ::
    ((if p.isInout then [.word "inout", .space] else []) ++ p.type.pieces)

/-- The row of parameters in parentheses. -/
def parameterPieces (ps : List Parameter) : List Piece :=
  .mark '(' :: (commaRow (ps.map Parameter.pieces) ++ [.mark ')'])

/-- The row of the result of a method. -/
def Method.resultPieces (m : Method) : List Piece :=
  if m.returnsValue then .space :: .arrow :: .space :: m.result.pieces else []

/-- The row of a method. -/
def Method.pieces (m : Method) : List Piece :=
  .word "func" :: .space :: .word m.name ::
    (parameterPieces m.params ++ (m.effects.pieces ++ m.resultPieces))

/-- The row of an initializer. -/
def Initializer.pieces (i : Initializer) : List Piece :=
  .word "init" :: (parameterPieces i.params ++ i.effects.pieces)

/-! ### The text of a row -/

theorem Parameter.toList_render {p : Parameter} (h : p.default = none) :
    p.render.toList = rowText p.pieces := by
  have hbinding : p.binding.toList = rowText p.bindingPieces := by
    simp only [Parameter.binding, Parameter.bindingPieces]
    cases p.label with
    | none => simp [Piece.text, Piece.space]
    | some label => by_cases heq : label = p.name <;> simp [heq, Piece.text, Piece.space]
  simp only [Parameter.render, Parameter.pieces, h, String.toList_append, hbinding, rowText_append,
    rowText_cons, TypeRef.toList_render]
  cases p.isInout <;> simp [Piece.text, Piece.space]

theorem toList_renderParameters {ps : List Parameter} (h : ∀ p ∈ ps, p.default = none) :
    (renderParameters ps).toList = rowText (commaRow (ps.map Parameter.pieces)) := by
  have hrows : (ps.map Parameter.render).map String.toList =
      (ps.map Parameter.pieces).map rowText := by
    rw [List.map_map, List.map_map]
    exact List.map_congr_left fun p hp => Parameter.toList_render (h p hp)
  simp only [renderParameters, String.toList_intercalate, rowText_commaRow, hrows]
  rfl

/-- **The row of a method has the text of its declaration.** -/
theorem Method.toList_render {m : Method} (h : ∀ p ∈ m.params, p.default = none) :
    m.render.toList = rowText m.pieces := by
  simp only [Method.render, Method.pieces, Method.resultPieces, parameterPieces,
    String.toList_append, toList_renderParameters h, rowText_append, rowText_cons,
    Effects.rowText_pieces]
  cases m.returnsValue <;> simp [TypeRef.toList_render, Piece.text, Piece.space]

/-- **The row of an initializer has the text of its declaration.** -/
theorem Initializer.toList_render {i : Initializer} (h : ∀ p ∈ i.params, p.default = none) :
    i.render.toList = rowText i.pieces := by
  simp [Initializer.render, Initializer.pieces, parameterPieces, toList_renderParameters h,
    Effects.rowText_pieces, Piece.text]

/-! ### Rows of signatures are spelled -/

/-- What a parameter that is read back has. -/
theorem Parameter.isReadable_iff {room : Nat} {p : Parameter} :
    p.isReadable room = true ↔ isPlainName p.name = true ∧
      (∀ label ∈ p.label, isPlainName label = true ∧ label ≠ "_") ∧ p.type.isWellFormed = true ∧
      p.type.nesting ≤ room ∧ p.default = none := by
  simp [Parameter.isReadable, Option.all_eq_true, and_assoc]

theorem Parameter.isPhrase_bindingPieces {p : Parameter} (hname : isPlainName p.name = true)
    (hlabel : ∀ label ∈ p.label, isPlainName label = true) : IsPhrase p.bindingPieces := by
  simp only [Parameter.bindingPieces]
  split
  · exact (IsPhrase.word (by decide)).append_space (IsPhrase.word hname)
  · next label heq =>
      split
      · exact IsPhrase.word hname
      · exact (IsPhrase.word (hlabel label heq)).append_space (IsPhrase.word hname)

theorem Parameter.isPhrase_pieces {room : Nat} {p : Parameter} (h : p.isReadable room = true) :
    IsPhrase p.pieces := by
  obtain ⟨hname, hlabel, htype, -, -⟩ := Parameter.isReadable_iff.1 h
  have hcolon : ':' ∈ textMarks := by decide
  have hphrase := TypeRef.isPhrase_pieces htype
  have hbinding := Parameter.isPhrase_bindingPieces hname fun l hl => (hlabel l hl).1
  have hinout : IsPhrase ((if p.isInout then [.word "inout", .space] else []) ++ p.type.pieces) := by
    cases p.isInout with
    | false => exact hphrase
    | true => exact (IsPhrase.word (by decide)).append_space hphrase
  exact hbinding.append_mark hcolon ((IsPhrase.mark hcolon).append_space hinout)

theorem isPhrase_parameterPieces {room : Nat} {ps : List Parameter}
    (h : ∀ p ∈ ps, p.isReadable room = true) : IsPhrase (parameterPieces ps) := by
  have hrows : ∀ row ∈ ps.map Parameter.pieces, IsPhrase row := by
    intro row hrow
    obtain ⟨p, hp, rfl⟩ := List.mem_map.1 hrow
    exact Parameter.isPhrase_pieces (h p hp)
  have hclose : ')' ∈ textMarks := by decide
  exact (isPhrase_commaRow_append hrows hclose (IsPhrase.mark hclose)).mark_cons (by decide)

/-- What a method that is read back has. -/
theorem Method.isReadable_iff {room : Nat} {m : Method} :
    m.isReadable room = true ↔ isPlainName m.name = true ∧
      (∀ p ∈ m.params, p.isReadable room = true) ∧ m.result.isWellFormed = true ∧
      m.result.nesting ≤ room := by
  simp [Method.isReadable, and_assoc]

theorem Initializer.isReadable_iff {room : Nat} {i : Initializer} :
    i.isReadable room = true ↔ ∀ p ∈ i.params, p.isReadable room = true := by
  simp [Initializer.isReadable]

/-- **The row of a method is a phrase.** -/
theorem Method.isPhrase_pieces {room : Nat} {m : Method} (h : m.isReadable room = true) :
    IsPhrase m.pieces := by
  obtain ⟨hname, hparams, hresult, -⟩ := Method.isReadable_iff.1 h
  have hopen : '(' ∈ textMarks := by decide
  have hname' := IsPhrase.word hname
  have hcall := hname'.append_mark hopen (isPhrase_parameterPieces hparams)
  have heffects := Effects.isPhrase_append hcall m.effects
  have hfunc : IsPhrase [.word "func"] := IsPhrase.word (by decide)
  simp only [Method.pieces, Method.resultPieces]
  cases m.returnsValue with
  | false => simpa [parameterPieces] using hfunc.append_space heffects
  | true =>
      have harrow := IsPhrase.arrow.append_space (TypeRef.isPhrase_pieces hresult)
      simpa [parameterPieces] using hfunc.append_space (heffects.append_space harrow)

/-- **The row of an initializer is a phrase.** -/
theorem Initializer.isPhrase_pieces {room : Nat} {i : Initializer} (h : i.isReadable room = true) :
    IsPhrase i.pieces := by
  have hinit : IsPhrase [.word "init"] := IsPhrase.word (by decide)
  have hcall := hinit.append_mark (by decide)
    (isPhrase_parameterPieces (Initializer.isReadable_iff.1 h))
  simpa [Initializer.pieces, parameterPieces] using Effects.isPhrase_append hcall i.effects

/-! ### Reading parameters -/

theorem Cursor.word?_of_word {prev : Option Token} {u : Token} {us : List Token} {w : String}
    (h : u.kind = .word w) : (⟨prev, u :: us⟩ : Cursor).word? = some w := by
  simp [Cursor.word?, Cursor.next?, Token.word?_of_word h]

theorem Cursor.word?_of_mark {prev : Option Token} {u : Token} {us : List Token} {c : Char}
    (h : u.kind = .mark c) : (⟨prev, u :: us⟩ : Cursor).word? = none := by
  simp [Cursor.word?, Cursor.next?, Token.word?_of_mark h]

theorem Cursor.atMark_eq_false {prev : Option Token} {rest : List Token} {c : Char}
    (h : EndsWith (· ≠ .mark c) rest) : (⟨prev, rest⟩ : Cursor).atMark c = false := by
  cases rest with
  | nil => simp [Cursor.atMark, Cursor.next?]
  | cons u us => simp [Cursor.atMark, Cursor.next?, Token.isMark_eq_false (endsWith_cons.1 h)]

theorem Cursor.atMark_of_mark {prev : Option Token} {u : Token} {us : List Token} {c : Char}
    (h : u.kind = .mark c) : (⟨prev, u :: us⟩ : Cursor).atMark c = true := by
  simp [Cursor.atMark, Cursor.next?, Token.isMark_of_mark h]

/-- Labels and names are taken before a colon. -/
theorem takes_binding {p : Parameter} (hlabel : ∀ label ∈ p.label, label ≠ "_") (index : Nat) :
    Takes (Cursor.parameterName index) p.bindingPieces (· = .mark ':') (p.label, p.name) := by
  intro ts prev rest hts hrest
  simp only [Parameter.bindingPieces] at hts
  cases hl : p.label with
  | none =>
      rw [hl] at hts
      obtain ⟨u, us, rfl, hu, hts⟩ := spells_word.1 hts
      obtain ⟨v, vs, rfl, hv, hts⟩ := spells_word.1 (spells_space.1 hts)
      obtain rfl := spells_nil.1 hts
      refine ⟨some v, ?_⟩
      simp [Cursor.parameterName, Cursor.expectName_of_word hu, Cursor.word?_of_word hv, bind,
        Except.bind, pure, Except.pure, Cursor.advance]
  | some label =>
      have hne := hlabel label hl
      simp only [hl] at hts
      -- one word stands for both where they are the same
      by_cases heq : label = p.name
      · rw [if_pos heq] at hts
        obtain ⟨u, us, rfl, hu, hts⟩ := spells_word.1 hts
        obtain rfl := spells_nil.1 hts
        have hword : (⟨some u, rest⟩ : Cursor).word? = none := by
          cases rest with
          | nil => rfl
          | cons v vs => exact Cursor.word?_of_mark (endsWith_cons.1 hrest)
        refine ⟨some u, ?_⟩
        subst heq
        simp [Cursor.parameterName, Cursor.expectName_of_word hu, hword, bind, Except.bind, pure,
          Except.pure, hne]
      · rw [if_neg heq] at hts
        obtain ⟨u, us, rfl, hu, hts⟩ := spells_word.1 hts
        obtain ⟨v, vs, rfl, hv, hts⟩ := spells_word.1 (spells_space.1 hts)
        obtain rfl := spells_nil.1 hts
        refine ⟨some v, ?_⟩
        simp [Cursor.parameterName, Cursor.expectName_of_word hu, Cursor.word?_of_word hv, bind,
          Except.bind, pure, Except.pure, Cursor.advance, hne]

/-- The word `inout` stands before a type exactly if the parameter says so: no type starts with it. -/
theorem atWord_inout {p : Parameter} (h : p.type.isWellFormed = true) {ts rest : List Token}
    (prev : Option Token)
    (hts : Spells ts ((if p.isInout then [.word "inout", .space] else []) ++ p.type.pieces))
    (hrest : EndsWith (FollowsItem ')') rest) :
    ∃ prev' us, Spells us p.type.pieces ∧
      (⟨prev, ts ++ rest⟩ : Cursor).atWord "inout" = p.isInout ∧
      (if p.isInout then (⟨prev, ts ++ rest⟩ : Cursor).advance else ⟨prev, ts ++ rest⟩) =
        ⟨prev', us ++ rest⟩ := by
  cases hinout : p.isInout with
  | false =>
      rw [hinout, if_neg (by decide), List.nil_append] at hts
      have hopens := TypeRef.opensType_of_spells h ts rest hts
        (hrest.mono fun k hk => by rcases hk with rfl | rfl <;> simp [FollowsElement])
      exact ⟨prev, ts, hts, Cursor.atWord_eq_false (hopens.front.mono fun k hk => hk.2.2), rfl⟩
  | true =>
      rw [hinout, if_pos rfl] at hts
      obtain ⟨u, us, rfl, hu, hus⟩ := spells_word.1 hts
      refine ⟨some u, us, spells_space.1 hus, ?_, rfl⟩
      simp [Cursor.atWord, Cursor.next?, Token.isWord_of_word hu]

/-- A parameter is taken. -/
theorem takes_parameter {source : List Char} {room : Nat} {p : Parameter}
    (h : p.isReadable room = true) (index : Nat) :
    Takes (Cursor.parameter source room index) p.pieces (FollowsItem ')') p := by
  obtain ⟨-, hlabel, htype, hnesting, hdefault⟩ := Parameter.isReadable_iff.1 h
  intro ts prev rest hts hrest
  rw [Parameter.pieces] at hts
  obtain ⟨bs, us, rfl, hbs, hus⟩ := spells_append.1 hts
  obtain ⟨u, us, rfl, hu, hus⟩ := spells_mark.1 hus
  obtain ⟨last, hbinding⟩ := takes_binding (fun l hl => (hlabel l hl).2) index bs prev
    (u :: (us ++ rest)) hbs (endsWith_cons.2 hu)
  obtain ⟨prev', vs, hvs, hflag, hplace⟩ := atWord_inout htype (some u) (spells_space.1 hus) hrest
  obtain ⟨last', hread⟩ := (TypeRef.readBack htype room hnesting).takes vs prev' rest hvs
    (hrest.mono fun k hk => followsType_of_followsItem (by decide) hk)
  -- no points that make it variadic follow, and no default
  have hpoint : (⟨last', rest⟩ : Cursor).atMark '.' = false :=
    Cursor.atMark_eq_false (hrest.mono fun k hk => by rcases hk with rfl | rfl <;> simp)
  have hequals : (⟨last', rest⟩ : Cursor).mark? '=' = none :=
    Cursor.mark?_eq_none (hrest.mono fun k hk => by rcases hk with rfl | rfl <;> simp)
  have hsame : Parameter.mk p.label p.name p.type none p.isInout = p := by
    rw [← hdefault]
  refine ⟨last', ?_⟩
  rw [List.append_assoc, List.cons_append]
  simp only [Cursor.parameter, hbinding, Cursor.expectMark_of_mark hu, hflag, hplace, hread, hpoint,
    Cursor.default?, hequals, bind, Except.bind, pure, Except.pure, lift_ok, Bool.false_eq_true,
    if_false, hsame]

/-- A parameter starts with a word. -/
theorem Parameter.spells_word {p : Parameter} {ts : List Token} (hts : Spells ts p.pieces) :
    ∃ u us w, ts = u :: us ∧ u.kind = .word w := by
  have hfirst : ∃ w qs, p.pieces = .word w :: qs := by
    simp only [Parameter.pieces, Parameter.bindingPieces]
    cases p.label with
    | none => exact ⟨_, _, rfl⟩
    | some label => by_cases heq : label = p.name <;> simp [heq]
  obtain ⟨w, qs, hqs⟩ := hfirst
  rw [hqs] at hts
  obtain ⟨u, us, rfl, hu, -⟩ := Scaffold.spells_word.1 hts
  exact ⟨u, us, w, rfl, hu⟩

/-- Parameters in parentheses are taken. -/
theorem takes_parameters (source : List Char) {room : Nat} {ps : List Parameter}
    (h : ∀ p ∈ ps, p.isReadable room = true) :
    Takes (Cursor.parameters source room) (parameterPieces ps) (fun _ => True) ps := by
  intro ts prev rest hts _
  rw [parameterPieces] at hts
  obtain ⟨u, us, rfl, hu, hus⟩ := spells_mark.1 hts
  cases ps with
  | nil =>
      obtain ⟨v, vs, rfl, hv, hvs⟩ := spells_mark.1 hus
      obtain rfl := spells_nil.1 hvs
      refine ⟨some v, ?_⟩
      simp [Cursor.parameters, Cursor.expectMark_of_mark hu, Cursor.mark?_of_mark hv, bind,
        Except.bind, pure, Except.pure, lift_ok]
  | cons p ps =>
      have hfront : EndsWith (· ≠ .mark ')') (us ++ rest) := by
        obtain ⟨vs, w, ws, rfl, hvs, -⟩ := spells_commaRow_cons hus
        obtain ⟨v, vs, name, rfl, hv⟩ := Parameter.spells_word hvs
        exact endsWith_cons.2 (by simp [hv])
      have hlength := length_le_of_spells_commaRow hus
      have hlist : Takes (Cursor.separated Halt.failure (Cursor.parameter source room) ')'
          ((us ++ rest).length + 1) 0) (commaRow ((p :: ps).map Parameter.pieces) ++ [.mark ')'])
          (fun _ => True) (p :: ps) :=
        takes_separated (by decide) (by simp) (fun q hq index => takes_parameter (h q hq) index)
          (by simp at hlength ⊢; omega) 0
      obtain ⟨last, hread⟩ := hlist us (some u) rest hus (fun _ _ => trivial)
      refine ⟨last, ?_⟩
      rw [List.cons_append]
      simp only [Cursor.parameters, Cursor.expectMark_of_mark hu, Cursor.mark?_eq_none hfront, bind,
        Except.bind, lift_ok]
      exact hread

/-! ### Reading signatures -/

/-- The result of a method is taken, or left out where there is none. -/
theorem takes_result {room : Nat} {m : Method} (h : m.result.isWellFormed = true)
    (hn : m.result.nesting ≤ room) :
    Takes (Cursor.result room) m.resultPieces (· = .mark '{') m.result := by
  intro ts prev rest hts hrest
  rw [Method.resultPieces] at hts
  cases hvalue : m.returnsValue with
  | false =>
      rw [hvalue, if_neg (by decide)] at hts
      obtain rfl := spells_nil.1 hts
      have hvoid : m.result = .void := by
        simp only [Method.returnsValue, Bool.not_eq_false'] at hvalue
        cases hr : m.result <;> simp_all [TypeRef.isVoid, TypeRef.void]
      have harrow : (⟨prev, rest⟩ : Cursor).atArrow = false :=
        Cursor.atArrow_eq_false (hrest.mono fun k hk => by simp [hk])
      refine ⟨prev, ?_⟩
      simp [Cursor.result, harrow, hvoid]
  | true =>
      rw [hvalue, if_pos rfl] at hts
      obtain ⟨u, us, rfl, hu, hus⟩ := spells_arrow.1 (spells_space.1 hts)
      obtain ⟨last, hread⟩ := (TypeRef.readBack h room hn).takes us (some u) rest
        (spells_space.1 hus) (hrest.mono fun k hk => hk ▸ followsType_mark (by decide))
      refine ⟨last, ?_⟩
      rw [List.cons_append, Cursor.result, if_pos (Cursor.atArrow_of_arrow hu)]
      exact hread

/-- **A method is read back** before a body. -/
theorem takes_method {source : List Char} {room : Nat} {m : Method}
    (h : m.isReadable room = true) :
    Takes (Cursor.method source room) m.pieces (· = .mark '{') m := by
  obtain ⟨-, hparams, hresult, hnesting⟩ := Method.isReadable_iff.1 h
  intro ts prev rest hts hrest
  rw [Method.pieces] at hts
  obtain ⟨f, fs, rfl, -, hfs⟩ := spells_word.1 hts
  obtain ⟨u, us, rfl, hu, hus⟩ := spells_word.1 (spells_space.1 hfs)
  obtain ⟨ps, vs, rfl, hps, hvs⟩ := spells_append.1 hus
  obtain ⟨es, rs, rfl, hes, hrs⟩ := spells_append.1 hvs
  obtain ⟨last, hread⟩ := takes_parameters source hparams ps (some u)
    (es ++ (rs ++ rest)) hps (fun _ _ => trivial)
  have hafter : EndsWith FollowsEffects (rs ++ rest) := by
    rw [Method.resultPieces] at hrs
    cases hvalue : m.returnsValue with
    | false =>
        rw [hvalue, if_neg (by decide)] at hrs
        obtain rfl := spells_nil.1 hrs
        exact hrest.mono fun k hk => by simp [hk, FollowsEffects]
    | true =>
        rw [hvalue, if_pos rfl] at hrs
        obtain ⟨v, vs, rfl, hv, -⟩ := spells_arrow.1 (spells_space.1 hrs)
        exact endsWith_cons.2 (by simp [hv, FollowsEffects])
  obtain ⟨last', heffects⟩ := takes_effects m.effects es last (rs ++ rest) hes hafter
  obtain ⟨last'', hresult'⟩ := takes_result hresult hnesting rs last' rest hrs hrest
  -- it is not generic, neither before the parameters nor behind the result
  have hangle : (⟨some u, ps ++ (es ++ (rs ++ rest))⟩ : Cursor).atMark '<' = false := by
    rw [parameterPieces] at hps
    obtain ⟨v, vs, rfl, hv, -⟩ := spells_mark.1 hps
    exact Cursor.atMark_eq_false (endsWith_cons.2 (by simp [hv]))
  have hwhere : (⟨last'', rest⟩ : Cursor).atWord "where" = false :=
    Cursor.atWord_eq_false (hrest.mono fun k hk => by simp [hk])
  refine ⟨last'', ?_⟩
  simp only [List.cons_append, List.append_assoc]
  simp only [Cursor.method, Cursor.advance, Cursor.expectName_of_word hu, Cursor.signature, hangle,
    hread, heffects, hresult', hwhere, bind, Except.bind, pure, Except.pure, lift_ok,
    Bool.false_eq_true, if_false, inMember_ok]

/-- **An initializer is read back** before a body. -/
theorem takes_initializer {source : List Char} {room : Nat} {i : Initializer}
    (h : i.isReadable room = true) :
    Takes (Cursor.initializer source room) i.pieces (· = .mark '{') i := by
  intro ts prev rest hts hrest
  rw [Initializer.pieces] at hts
  obtain ⟨u, us, rfl, -, hus⟩ := spells_word.1 hts
  obtain ⟨ps, es, rfl, hps, hes⟩ := spells_append.1 hus
  obtain ⟨last, hread⟩ := takes_parameters source (Initializer.isReadable_iff.1 h) ps
    (some u) (es ++ rest) hps (fun _ _ => trivial)
  obtain ⟨last', heffects⟩ := takes_effects i.effects es last rest hes
    (hrest.mono fun k hk => by simp [hk, FollowsEffects])
  have hfront : EndsWith (· = .mark '(') (ps ++ (es ++ rest)) := by
    rw [parameterPieces] at hps
    obtain ⟨v, vs, rfl, hv, -⟩ := spells_mark.1 hps
    exact endsWith_cons.2 hv
  have hmark : ∀ c, c ≠ '(' → (⟨some u, ps ++ (es ++ rest)⟩ : Cursor).atMark c = false :=
    fun c hc => Cursor.atMark_eq_false (hfront.mono fun k hk => by simp [hk, hc.symm])
  refine ⟨last', ?_⟩
  simp only [List.cons_append, List.append_assoc]
  simp only [Cursor.initializer, Cursor.advance, hmark '?' (by decide), hmark '!' (by decide),
    hmark '<' (by decide), hread, heffects, bind, Except.bind, pure, Except.pure, lift_ok,
    Bool.false_eq_true, if_false, inMember_ok, Bool.or_self]

end Scaffold
