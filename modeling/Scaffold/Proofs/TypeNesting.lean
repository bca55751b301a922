/-
**The room that a type needs.**

The reader of types opens cores inside each other up to a bound.  On the row of a well-formed type
it runs out of room exactly if the type needs more than there is, and it runs into nothing else
before that.  So what the reader makes of a printed type is settled by one number.

Main definitions:

* `Scaffold.RunsOut` — a reader runs out of room on a row;
* `Scaffold.TypeRef.Refused` — the two ways in which a type is refused, as a core and as a type.

Main results:

* `Scaffold.TypeRef.refused` — a well-formed type that needs more room is refused;
* `Scaffold.TypeRef.parse_render` — **what is read back from a printed type**.
-/

import Scaffold.Proofs.TypeRoundTrip

set_option relaxedAutoImplicit false
set_option autoImplicit false

namespace Scaffold

/-- A reader runs out of room on a row, before what may follow. -/
def RunsOut {α : Type} (read : Cursor → Except Failure (α × Cursor)) (ps : List Piece)
    (follows : TokenKind → Prop) : Prop :=
  ∀ ts prev rest, Spells ts ps → EndsWith follows rest →
    ∃ f, read ⟨prev, ts ++ rest⟩ = .error f ∧ f.reason = .typeNesting

theorem RunsOut.mono {α : Type} {read : Cursor → Except Failure (α × Cursor)} {ps : List Piece}
    {follows follows' : TokenKind → Prop} (h : RunsOut read ps follows)
    (himp : ∀ k, follows' k → follows k) : RunsOut read ps follows' :=
  fun ts prev rest hts hrest => h ts prev rest hts (hrest.mono himp)

/-- A list in brackets runs out of room if one of its items does and the others are taken. -/
theorem runsOut_separated {α : Type} {item : Cursor → Except Failure (α × Cursor)} {close : Char}
    {row : α → List Piece} {xs : List α}
    (hitem : ∀ x ∈ xs, Takes item (row x) (FollowsItem close) x ∨
      RunsOut item (row x) (FollowsItem close))
    (hout : ∃ x ∈ xs, RunsOut item (row x) (FollowsItem close))
    {fuel : Nat} (hfuel : xs.length ≤ fuel) (index : Nat) :
    RunsOut (Cursor.separated id (fun _ => item) close fuel index)
      (commaRow (xs.map row) ++ [.mark close]) (fun _ => True) := by
  induction xs generalizing fuel index with
  | nil =>
      obtain ⟨x, hx, -⟩ := hout
      exact absurd hx List.not_mem_nil
  | cons x xs ih =>
      intro ts prev rest hts _
      obtain ⟨fuel, rfl⟩ : ∃ n, fuel = n + 1 := ⟨fuel - 1, by simp at hfuel; omega⟩
      by_cases hx : RunsOut item (row x) (FollowsItem close)
      · obtain ⟨us, v, vs, rfl, hus, hv⟩ := spells_commaRow_cons hts
        obtain ⟨f, hread, hf⟩ := hx us prev (v :: (vs ++ rest)) hus (endsWith_cons.2 hv)
        refine ⟨f, ?_, hf⟩
        rw [List.append_assoc, List.cons_append, Cursor.separated, hread]
      · -- the first item is taken, so one of the others runs out
        have htakes := (hitem x (by simp)).resolve_right hx
        have hothers : ∃ y ∈ xs, RunsOut item (row y) (FollowsItem close) := by
          obtain ⟨y, hy, hyout⟩ := hout
          rcases List.mem_cons.1 hy with rfl | hy
          · exact absurd hyout hx
          · exact ⟨y, hy, hyout⟩
        cases xs with
        | nil =>
            obtain ⟨y, hy, -⟩ := hothers
            exact absurd hy List.not_mem_nil
        | cons z xs =>
            simp only [commaRow, List.map_cons, List.intercalate_cons_cons,
              List.append_assoc] at hts
            obtain ⟨us, vs, rfl, hus, hvs⟩ := spells_append.1 hts
            obtain ⟨u, vs, rfl, hu, hvs⟩ := spells_mark.1 hvs
            obtain ⟨last, hread⟩ := htakes us prev (u :: (vs ++ rest)) hus
              (endsWith_cons.2 (Or.inl hu))
            have hrest := ih (fun w hw => hitem w (List.mem_cons_of_mem _ hw)) hothers
              (by simp at hfuel ⊢; omega) (index + 1)
            obtain ⟨f, hread', hf⟩ := hrest vs (some u) rest (spells_space.1 hvs)
              (fun _ _ => trivial)
            refine ⟨f, ?_, hf⟩
            rw [List.append_assoc, List.cons_append, Cursor.separated, hread]
            simp only [Cursor.mark?_of_mark hu, hread']

namespace TypeRef

/-- A type is refused with room for a number of cores: as a core, unless it has attributes or
question marks, and as a type. -/
structure Refused (room : Nat) (t : TypeRef) : Prop where
  /-- It is refused as a core. -/
  core : t.followsAny = true → RunsOut (Cursor.typeCore room) t.pieces t.Follows
  /-- It is refused as a type. -/
  type : RunsOut (Cursor.type room) t.pieces t.Follows

theorem Refused.runsOut {room : Nat} {t : TypeRef} (h : Refused room t) :
    RunsOut (Cursor.type room) t.pieces FollowsType :=
  h.type.mono fun _ hk => t.follows_of_followsType hk

/-- Without room, no core is read, so that it matters only what happens with some. -/
theorem runsOut_of_succ {room : Nat} {ps : List Piece} {follows : TokenKind → Prop}
    (h : ∀ k, room = k + 1 → RunsOut (Cursor.typeCore (k + 1)) ps follows) :
    RunsOut (Cursor.typeCore room) ps follows := by
  cases room with
  | zero =>
      intro ts prev rest _ _
      exact ⟨_, rfl, rfl⟩
  | succ k => exact h k rfl

/-- A type that is refused as a core and does not start with an attribute is refused. -/
theorem refused_of_core {room : Nat} {t : TypeRef} (h : t.isWellFormed = true)
    (hany : t.followsAny = true) (hcore : RunsOut (Cursor.typeCore room) t.pieces t.Follows) :
    Refused room t := by
  refine ⟨fun _ => hcore, ?_⟩
  intro ts prev rest hts hrest
  obtain ⟨f, hread, hf⟩ := hcore ts prev rest hts hrest
  refine ⟨f, ?_, hf⟩
  have hfront := endsWith_of_followsAny h hany rest hts
  simp only [Cursor.type, Cursor.typeWith, Cursor.attributesFrom_of_ends hfront, bind, Except.bind,
    hread]

theorem Refused.runsOut_element {room : Nat} {t : TypeRef} (h : Refused room t)
    (hwf : t.isWellFormed = true) :
    RunsOut (Cursor.elementWith (Cursor.type room)) t.pieces (FollowsItem ')') := by
  intro ts prev rest hts hrest
  obtain ⟨f, hread, hf⟩ := h.runsOut ts prev rest hts
    (hrest.mono fun k hk => followsType_of_followsItem (by decide) hk)
  refine ⟨f, ?_, hf⟩
  rw [elementWith_of_spells hwf prev hts hrest, hread]

/-! ### Cores -/

/-- A type is read back or refused, as soon as it is refused where it needs more room. -/
theorem readBack_or_refused {room : Nat} {t : TypeRef} (h : t.isWellFormed = true)
    (hrefused : room < t.nesting → Refused room t) : ReadBack room t ∨ Refused room t := by
  rcases Nat.lt_or_ge room t.nesting with hlt | hle
  · exact Or.inr (hrefused hlt)
  · exact Or.inl (readBack h room hle)

theorem exists_of_lt_nestingAll {ts : List TypeRef} {n : Nat} (h : n < nestingAll ts) :
    ∃ t ∈ ts, n < t.nesting := by
  refine Classical.byContradiction fun hnone => ?_
  have hall : ∀ t ∈ ts, t.nesting ≤ n := fun t ht =>
    Nat.le_of_not_lt fun hlt => hnone ⟨t, ht, hlt⟩
  exact absurd (nestingAll_le_iff.2 hall) (Nat.not_le_of_lt h)

theorem runsOut_named {room : Nat} {name : String} {args : List TypeRef}
    (hname : isTypeName name = true) (hargs : ∀ t ∈ args, ReadBack room t ∨ Refused room t)
    (hout : ∃ t ∈ args, Refused room t) (follows : TokenKind → Prop) :
    RunsOut (Cursor.typeCore (room + 1)) (pieces (.named name args)) follows := by
  intro ts prev rest hts _
  cases args with
  | nil =>
      obtain ⟨t, ht, -⟩ := hout
      exact absurd ht List.not_mem_nil
  | cons a as =>
      rw [pieces, piecesAll_eq_map] at hts
      obtain ⟨ns, vs, rfl, hns, hvs⟩ := spells_append.1 hts
      obtain ⟨v, vs, rfl, hv, hvs⟩ := spells_mark.1 hvs
      obtain ⟨first, parts, u, us, rfl, hu, hfirst, hus, -⟩ := spells_namePieces hname hns
      obtain ⟨hany, hsome⟩ := ne_of_not_mem_reservedHeads hfirst
      have hdot : EndsWith (· ≠ .mark '.') (v :: (vs ++ rest)) := endsWith_cons.2 (by simp [hv])
      obtain ⟨last, hpath⟩ := Cursor.pathFrom_of_spells hus first (some u) (v :: (vs ++ rest)) hdot
      have hfollows : ∀ k, FollowsItem '>' k → FollowsType k :=
        fun k hk => followsType_of_followsItem (by decide) hk
      have hitems : ∀ t ∈ a :: as, Takes (Cursor.type room) t.pieces (FollowsItem '>') t ∨
          RunsOut (Cursor.type room) t.pieces (FollowsItem '>') := by
        intro t ht
        exact (hargs t ht).imp (fun h => h.takes.mono hfollows) fun h => h.runsOut.mono hfollows
      have hlength := length_le_of_spells_commaRow hvs
      obtain ⟨t, ht, hrefused⟩ := hout
      have hlist : RunsOut
          (Cursor.separated id (fun _ => Cursor.type room) '>' ((vs ++ rest).length + 1) 0)
          (commaRow ((a :: as).map pieces) ++ [.mark '>']) (fun _ => True) :=
        runsOut_separated hitems ⟨t, ht, hrefused.runsOut.mono hfollows⟩
          (by simp at hlength ⊢; omega) 0
      obtain ⟨f, hread, hf⟩ := hlist vs (some v) rest hvs (fun _ _ => trivial)
      refine ⟨f, ?_, hf⟩
      rw [List.append_assoc, List.cons_append, List.cons_append, typeCore_of_word hu hany hsome]
      simp only [Cursor.namedWith, Cursor.expectName_of_word hu, hpath, Cursor.mark?_of_mark hv,
        bind, Except.bind, hread]

theorem runsOut_sequence {room : Nat} {element : TypeRef} (h : Refused room element)
    (follows : TokenKind → Prop) :
    RunsOut (Cursor.typeCore (room + 1)) (pieces (.sequence element)) follows := by
  intro ts prev rest hts _
  rw [pieces] at hts
  obtain ⟨u, us, rfl, hu, hus⟩ := spells_mark.1 hts
  obtain ⟨es, vs, rfl, hes, hvs⟩ := spells_append.1 hus
  obtain ⟨v, vs, rfl, hv, -⟩ := spells_mark.1 hvs
  obtain ⟨f, hread, hf⟩ := h.runsOut es (some u) (v :: (vs ++ rest)) hes
    (endsWith_cons.2 (hv ▸ followsType_mark (by decide)))
  refine ⟨f, ?_, hf⟩
  rw [List.cons_append, List.append_assoc, List.cons_append, typeCore_of_bracket hu]
  simp only [Cursor.collectionWith, Cursor.advance, hread, bind, Except.bind]

/-- A mapping runs out of room in its key, or behind the key in its value. -/
theorem runsOut_mapping {room : Nat} {key value : TypeRef}
    (h : Refused room key ∨ ReadBack room key ∧ Refused room value)
    (follows : TokenKind → Prop) :
    RunsOut (Cursor.typeCore (room + 1)) (pieces (.mapping key value)) follows := by
  intro ts prev rest hts _
  rw [pieces] at hts
  obtain ⟨u, us, rfl, hu, hus⟩ := spells_mark.1 hts
  obtain ⟨ks, cs, rfl, hks, hcs⟩ := spells_append.1 hus
  obtain ⟨c, cs, rfl, hc, hcs⟩ := spells_mark.1 hcs
  have hcolon : EndsWith FollowsType (c :: (cs ++ rest)) :=
    endsWith_cons.2 (hc ▸ followsType_mark (by decide))
  rcases h with hk | ⟨hk, hv⟩
  · obtain ⟨f, hread, hf⟩ := hk.runsOut ks (some u) (c :: (cs ++ rest)) hks hcolon
    refine ⟨f, ?_, hf⟩
    rw [List.cons_append, List.append_assoc, List.cons_append, typeCore_of_bracket hu]
    simp only [Cursor.collectionWith, Cursor.advance, hread, bind, Except.bind]
  · obtain ⟨last, hkey⟩ := hk.takes ks (some u) (c :: (cs ++ rest)) hks hcolon
    obtain ⟨vs, bs, rfl, hvs, hbs⟩ := spells_append.1 (spells_space.1 hcs)
    obtain ⟨b, bs, rfl, hb, -⟩ := spells_mark.1 hbs
    obtain ⟨f, hvalue, hf⟩ := hv.runsOut vs (some c) (b :: (bs ++ rest)) hvs
      (endsWith_cons.2 (hb ▸ followsType_mark (by decide)))
    refine ⟨f, ?_, hf⟩
    simp only [List.append_assoc, List.cons_append] at hkey ⊢
    rw [typeCore_of_bracket hu]
    simp only [Cursor.collectionWith, Cursor.advance, hkey, Cursor.mark?_of_mark hc, hvalue, bind,
      Except.bind]

theorem runsOut_existential {room : Nat} {constraint : TypeRef} (h : Refused room constraint)
    (hany : constraint.followsAny = true) :
    RunsOut (Cursor.typeCore (room + 1)) (pieces (.existential constraint))
      constraint.Follows := by
  intro ts prev rest hts hrest
  rw [pieces] at hts
  obtain ⟨u, us, rfl, hu, hus⟩ := spells_word.1 hts
  obtain ⟨f, hread, hf⟩ := h.core hany us (some u) rest (spells_space.1 hus) hrest
  refine ⟨f, ?_, hf⟩
  simp only [List.cons_append, Cursor.typeCore, Cursor.coreWith, Cursor.found, Cursor.next?,
    List.head?_cons, Option.map_some, hu, if_true, Cursor.advance, hread, bind, Except.bind]

/-! ### Parentheses -/

theorem runsOut_elements {room : Nat} {params : List TypeRef}
    (hwf : ∀ t ∈ params, t.isWellFormed = true)
    (h : ∀ t ∈ params, ReadBack room t ∨ Refused room t) (hout : ∃ t ∈ params, Refused room t) :
    RunsOut (Cursor.elementsWith (Cursor.type room)) (commaRow (params.map pieces) ++ [.mark ')'])
      (fun _ => True) := by
  intro ts prev rest hts _
  have hitems : ∀ t ∈ params,
      Takes (Cursor.elementWith (Cursor.type room)) t.pieces (FollowsItem ')') t ∨
        RunsOut (Cursor.elementWith (Cursor.type room)) t.pieces (FollowsItem ')') := by
    intro t ht
    exact (h t ht).imp (fun h => h.takes_element (hwf t ht)) fun h => h.runsOut_element (hwf t ht)
  obtain ⟨t, ht, hrefused⟩ := hout
  have hlength := length_le_of_spells_commaRow hts
  have hlist : RunsOut (Cursor.separated id (fun _ => Cursor.elementWith (Cursor.type room)) ')'
      ((ts ++ rest).length + 1) 0) (commaRow (params.map pieces) ++ [.mark ')'])
      (fun _ => True) :=
    runsOut_separated hitems ⟨t, ht, hrefused.runsOut_element (hwf t ht)⟩
      (by simp at hlength ⊢; omega) 0
  obtain ⟨f, hread, hf⟩ := hlist ts prev rest hts (fun _ _ => trivial)
  have hfront : EndsWith (· ≠ .mark ')') (ts ++ rest) :=
    endsWith_elements hwf (List.ne_nil_of_mem ht) hts
  refine ⟨f, ?_, hf⟩
  rw [Cursor.elementsWith, Cursor.mark?_eq_none hfront]
  exact hread

theorem runsOut_parens {room : Nat} {t : TypeRef} (h : Refused room t)
    (hwf : t.isWellFormed = true) (follows : TokenKind → Prop) :
    RunsOut (Cursor.typeCore (room + 1)) (.mark '(' :: (t.pieces ++ [.mark ')'])) follows := by
  intro ts prev rest hts _
  obtain ⟨u, us, rfl, hu, hus⟩ := spells_mark.1 hts
  have helements : RunsOut (Cursor.elementsWith (Cursor.type room))
      (commaRow ([t].map pieces) ++ [.mark ')']) (fun _ => True) :=
    runsOut_elements (by simpa using hwf) (by simpa using Or.inr h) ⟨t, by simp, h⟩
  obtain ⟨f, hread, hf⟩ := helements us (some u) rest (by simpa [commaRow] using hus)
    (fun _ _ => trivial)
  refine ⟨f, ?_, hf⟩
  rw [List.cons_append, typeCore_of_parens hu]
  simp only [Cursor.parenthesizedWith, Cursor.advance, hread, bind, Except.bind]

/-- A function type runs out of room in its parameters, or behind them in its result. -/
theorem runsOut_function {room : Nat} {params : List TypeRef} {effects : Effects}
    {result : TypeRef} (hwf : ∀ t ∈ params, t.isWellFormed = true)
    (h : (∃ t ∈ params, Refused room t) ∧ (∀ t ∈ params, ReadBack room t ∨ Refused room t) ∨
      (∀ t ∈ params, ReadBack room t) ∧ Refused room result) :
    RunsOut (Cursor.typeCore (room + 1)) (pieces (.function [] params effects result))
      FollowsType := by
  intro ts prev rest hts hrest
  rw [pieces, piecesAll_eq_map] at hts
  obtain ⟨u, us, rfl, hu, hus⟩ := spells_mark.1 hts
  have hrow : Spells us ((commaRow (params.map pieces) ++ [.mark ')']) ++
      (effects.pieces ++ .space :: .arrow :: .space :: result.pieces)) := by simpa using hus
  obtain ⟨ps, qs, rfl, hps, hqs⟩ := spells_append.1 hrow
  rcases h with ⟨hout, hread⟩ | ⟨hread, hresult⟩
  · obtain ⟨f, hread, hf⟩ := runsOut_elements hwf hread hout ps (some u) (qs ++ rest) hps
      (fun _ _ => trivial)
    refine ⟨f, ?_, hf⟩
    simp only [List.cons_append, List.append_assoc]
    rw [typeCore_of_parens hu]
    simp only [Cursor.parenthesizedWith, Cursor.advance, hread, bind, Except.bind]
  · obtain ⟨es, as, rfl, hes, has⟩ := spells_append.1 hqs
    obtain ⟨v, vs, rfl, hv, hvs⟩ := spells_arrow.1 (spells_space.1 has)
    obtain ⟨last, helements⟩ := takes_elements (fun t ht => ⟨hread t ht, hwf t ht⟩) ps (some u)
      (es ++ v :: (vs ++ rest)) hps (fun _ _ => trivial)
    obtain ⟨last', heffects⟩ := takes_effects effects es last (v :: (vs ++ rest)) hes
      (endsWith_cons.2 (by simp [hv, FollowsEffects]))
    obtain ⟨f, htype, hf⟩ := hresult.runsOut vs (some v) rest (spells_space.1 hvs) hrest
    refine ⟨f, ?_, hf⟩
    simp only [List.cons_append, List.append_assoc]
    rw [typeCore_of_parens hu]
    simp only [Cursor.parenthesizedWith, Cursor.advance, helements, heffects, htype, bind,
      Except.bind, Cursor.atArrow_of_arrow hv, if_true]

/-! ### Every well-formed type -/

theorem refused_function {room : Nat} {attributes : List String} {params : List TypeRef}
    {effects : Effects} {result : TypeRef}
    (hcore : RunsOut (Cursor.typeCore room) (pieces (.function [] params effects result))
      FollowsType) :
    Refused room (.function attributes params effects result) := by
  have hfollows : ∀ k, Follows (.function attributes params effects result) k → FollowsType k :=
    fun k hk => followsOptional_of_needsParens rfl hk
  constructor
  · intro hany
    simp only [followsAny, List.isEmpty_iff] at hany
    subst hany
    exact hcore.mono hfollows
  · intro ts prev rest hts hrest
    obtain ⟨as, fs, rfl, has, hfs, hfront⟩ := spells_function hts
    obtain ⟨last, hattributes⟩ :=
      Cursor.attributesFrom_of_spells has prev (fs ++ rest) (hfront rest)
    obtain ⟨f, hread, hf⟩ := hcore fs last rest hfs (hrest.mono hfollows)
    refine ⟨f, ?_, hf⟩
    simp only [Cursor.type, Cursor.typeWith, List.append_assoc, hattributes, hread, bind,
      Except.bind]

theorem refused_optional {room : Nat} {wrapped : TypeRef}
    (hplain : wrapped.needsParens = false → Refused room wrapped)
    (hparens : wrapped.needsParens = true →
      RunsOut (Cursor.typeCore room) (.mark '(' :: (wrapped.pieces ++ [.mark ')']))
        (· = .mark '?')) :
    Refused room (.optional wrapped) := by
  refine ⟨fun hany => by simp [followsAny] at hany, ?_⟩
  intro ts prev rest hts hrest
  rw [pieces] at hts
  cases hneeds : wrapped.needsParens with
  | false =>
      rw [if_neg (by simp [hneeds])] at hts
      obtain ⟨ws, vs, rfl, hws, hvs⟩ := spells_append.1 hts
      obtain ⟨v, vs, rfl, hv, -⟩ := spells_mark.1 hvs
      obtain ⟨f, hread, hf⟩ := (hplain hneeds).type ws prev (v :: (vs ++ rest)) hws
        (endsWith_cons.2 (by simp [Follows, FollowsName, hv, hneeds]))
      refine ⟨f, ?_, hf⟩
      rw [List.append_assoc, List.cons_append, hread]
  | true =>
      rw [if_pos hneeds] at hts
      have hrow : Spells ts ((.mark '(' :: (wrapped.pieces ++ [.mark ')'])) ++ [.mark '?']) := by
        simpa using hts
      obtain ⟨ws, vs, rfl, hws, hvs⟩ := spells_append.1 hrow
      obtain ⟨v, vs, rfl, hv, -⟩ := spells_mark.1 hvs
      obtain ⟨f, hread, hf⟩ := hparens hneeds ws prev (v :: (vs ++ rest)) hws (endsWith_cons.2 hv)
      have hfront : EndsWith (· ≠ .mark '@') (ws ++ v :: (vs ++ rest)) := by
        obtain ⟨u, us, rfl, hu, -⟩ := spells_mark.1 hws
        exact endsWith_cons.2 (by simp [hu])
      refine ⟨f, ?_, hf⟩
      simp only [List.append_assoc, List.cons_append, Cursor.type, Cursor.typeWith,
        Cursor.attributesFrom_of_ends hfront, hread, bind, Except.bind]

/-- **A well-formed type that needs more room than there is is refused**, for no other reason. -/
theorem refused {t : TypeRef} (h : t.isWellFormed = true) :
    ∀ room, room < t.nesting → Refused room t := by
  induction t using TypeRef.induction with
  | primitive name =>
      intro room hroom
      refine refused_of_core h rfl (runsOut_of_succ ?_)
      rintro k rfl
      simp [nesting] at hroom
  | named name args ih =>
      intro room hroom
      refine refused_of_core h rfl (runsOut_of_succ ?_)
      rintro k rfl
      simp only [isWellFormed, Bool.and_eq_true, areWellFormed_iff] at h
      obtain ⟨⟨hname, -⟩, hargs⟩ := h
      simp only [nesting, Nat.add_lt_add_iff_right] at hroom
      obtain ⟨t, ht, hlt⟩ := exists_of_lt_nestingAll hroom
      exact runsOut_named hname
        (fun u hu => readBack_or_refused (hargs u hu) fun hk => ih u hu (hargs u hu) k hk)
        ⟨t, ht, ih t ht (hargs t ht) k hlt⟩ _
  | sequence element ih =>
      intro room hroom
      refine refused_of_core h rfl (runsOut_of_succ ?_)
      rintro k rfl
      exact runsOut_sequence
        (ih (by simpa [isWellFormed] using h) k (by simpa [nesting] using hroom)) _
  | mapping key value ihk ihv =>
      intro room hroom
      refine refused_of_core h rfl (runsOut_of_succ ?_)
      rintro k rfl
      simp only [isWellFormed, Bool.and_eq_true] at h
      simp only [nesting, Nat.add_lt_add_iff_right] at hroom
      -- the key runs out of room, or it is read back and the value runs out
      refine runsOut_mapping ?_ _
      rcases Nat.lt_or_ge k key.nesting with hk | hk
      · exact Or.inl (ihk h.1 k hk)
      · exact Or.inr ⟨readBack h.1 k hk, ihv h.2 k (by omega)⟩
  | optional wrapped ih =>
      intro room hroom
      have hwf : wrapped.isWellFormed = true := by simpa [isWellFormed] using h
      simp only [nesting] at hroom
      refine refused_optional (fun hneeds => ?_) (fun hneeds => runsOut_of_succ ?_)
      · exact ih hwf room (by simpa [hneeds] using hroom)
      · rintro k rfl
        rw [if_pos hneeds, Nat.add_lt_add_iff_right] at hroom
        exact runsOut_parens (ih hwf k hroom) hwf _
  | function attributes params effects result ihp ihr =>
      intro room hroom
      refine refused_function (runsOut_of_succ ?_)
      rintro k rfl
      simp only [isWellFormed, Bool.and_eq_true, areWellFormed_iff] at h
      obtain ⟨⟨-, hparams⟩, hresult⟩ := h
      simp only [nesting, Nat.add_lt_add_iff_right] at hroom
      -- some parameter runs out of room, or all are read back and the result runs out
      refine runsOut_function hparams ?_
      rcases Nat.lt_or_ge k (nestingAll params) with hk | hk
      · obtain ⟨t, ht, hlt⟩ := exists_of_lt_nestingAll hk
        refine Or.inl ⟨⟨t, ht, ihp t ht (hparams t ht) k hlt⟩, fun u hu => ?_⟩
        exact readBack_or_refused (hparams u hu) fun hk => ihp u hu (hparams u hu) k hk
      · refine Or.inr ⟨fun t ht => ?_, ihr hresult k (by omega)⟩
        exact readBack (hparams t ht) k (nestingAll_le_iff.1 hk t ht)
  | existential constraint ih =>
      intro room hroom
      refine refused_of_core h rfl (runsOut_of_succ ?_)
      rintro k rfl
      simp only [isWellFormed, Bool.and_eq_true] at h
      have hfollows : ∀ j, Follows (.existential constraint) j → constraint.Follows j :=
        fun j hj => constraint.follows_of_followsType (followsOptional_of_needsParens rfl hj)
      exact (runsOut_existential (ih h.2 k (by simpa [nesting] using hroom)) h.1).mono hfollows

/-- **What is read back from a printed type**: the type itself, unless it needs more room than the
reader has. -/
theorem parse_render {t : TypeRef} (h : t.isWellFormed = true) :
    TypeRef.parse t.render = if t.nesting ≤ maxNesting then .ok t else .error .typeNesting := by
  have htokens : tokenize t.render = .ok (lay 0 1 t.pieces) :=
    tokenize_spelled t.toList_render ((isPhrase_pieces h).spelled none endsName_none)
  have hspells := spells_lay 0 1 t.pieces
  split
  · next hn =>
      obtain ⟨last, hread⟩ := (readBack h maxNesting hn).takes (lay 0 1 t.pieces) none [] hspells
        (endsWith_nil _)
      rw [List.append_nil] at hread
      simp only [TypeRef.parse, htokens, Cursor.start, hread]
      rfl
  · next hn =>
      obtain ⟨f, hread, hf⟩ := (refused h maxNesting (Nat.lt_of_not_le hn)).runsOut
        (lay 0 1 t.pieces) none [] hspells (endsWith_nil _)
      rw [List.append_nil] at hread
      simp only [TypeRef.parse, htokens, Cursor.start, hread, hf]

/-- A mapping to optional functions with attributes, effects and optional existentials. -/
theorem parse_render_mapping :
    let t : TypeRef := .mapping (.primitive "String")
      (.optional (.function ["escaping", "Sendable"]
        [.existential (.named "App.Clock" []), .optional (.optional (.existential (.function []
          [.named "Result" [.sequence (.primitive "Int"), .named "Failure" []]] ⟨true, true⟩
          (.primitive "Void"))))] ⟨false, true⟩ (.optional (.primitive "Bool"))))
    t.render = "[String: (@escaping @Sendable (any App.Clock, (any (Result<[Int], Failure>) " ++
        "async throws -> Void)??) throws -> Bool?)?]" ∧
      t.nesting = 9 ∧ t.isWellFormed = true ∧ TypeRef.parse t.render = .ok t := by
  intro t
  have hwf : t.isWellFormed = true := by decide
  refine ⟨by decide, by decide, hwf, ?_⟩
  rw [parse_render hwf]
  rfl

end TypeRef

end Scaffold
