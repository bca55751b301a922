/-
**Fields that are left out.**

Some fields of a declaration, of its members and of its types may be left out of its JSON form.  The
reader then takes them to hold their default.  This is shown for any number of these fields at once,
at any depth: a value without them is read as the one in which they hold their default.

The argument goes from the values of fields to the records that hold them.  Of a record only what
its keys lead to is read, and each key leads to an abridged value, or, if its member was left out,
to nothing.

Main definitions:

* `Scaffold.Json.defaults` — the fields that may be left out, with their defaults;
* `Scaffold.Json.Abridges` — a value is another one with such fields left out;
* `Scaffold.Json.Fills` — a reader fills in what was left out of a value.

Main results:

* `Scaffold.Json.AbridgesMembers.exists_eq_map` — what the keys of an abridged object lead to;
* `Scaffold.TypeRef.fills`, `Scaffold.Shape.fills`, `Scaffold.Declaration.fills` — readers fill in;
* `Scaffold.Entry.ofJson?_of_abridges` — **the JSON form is lossless, and may be abridged**.
-/

import Mathlib.Logic.Function.Basic
import Scaffold.Proofs.JsonRoundTrip

set_option relaxedAutoImplicit false
set_option autoImplicit false

namespace Scaffold

namespace Json

/-! ### Leaving out members -/

/-- The fields that may be left out, with their defaults.  A key has the same default in every record
that has a field of it, and none is the key of a field that has to be there. -/
def defaults : List (String × Json) :=
  [("label", .null), ("default", .null), ("is_inout", .bool false), ("is_mutable", .bool false),
    ("attributes", .arr []), ("parent", .null), ("unit", .str ""), ("position", .nat 0),
    ("line", .nat 0)]

mutual

/-- A value is a full one without some members that have a default, at any depth; filled is the full
value with the default in place of what these members hold. -/
inductive Abridges : (j full filled : Json) → Prop
  | null : Abridges .null .null .null
  | bool (b : Bool) : Abridges (.bool b) (.bool b) (.bool b)
  | num (n : Number) : Abridges (.num n) (.num n) (.num n)
  | str (s : String) : Abridges (.str s) (.str s) (.str s)
  | arr {xs ys zs : List Json} (items : AbridgesItems xs ys zs) :
      Abridges (.arr xs) (.arr ys) (.arr zs)
  | obj {ms ns os : List (String × Json)} (members : AbridgesMembers ms ns os) :
      Abridges (.obj ms) (.obj ns) (.obj os)

/-- The items of an array are those of a full one, each abridged. -/
inductive AbridgesItems : (xs full filled : List Json) → Prop
  | nil : AbridgesItems [] [] []
  | cons {x y z : Json} {xs ys zs : List Json} (item : Abridges x y z)
      (items : AbridgesItems xs ys zs) : AbridgesItems (x :: xs) (y :: ys) (z :: zs)

/-- The members of an object are those of a full one, each abridged or left out. -/
inductive AbridgesMembers : (ms full filled : List (String × Json)) → Prop
  | nil : AbridgesMembers [] [] []
  | kept {key : String} {x y z : Json} {ms ns os : List (String × Json)} (member : Abridges x y z)
      (members : AbridgesMembers ms ns os) :
      AbridgesMembers ((key, x) :: ms) ((key, y) :: ns) ((key, z) :: os)
  | leftOut {key : String} {y z : Json} {ms ns os : List (String × Json)}
      (default : defaults.lookup key = some z) (members : AbridgesMembers ms ns os) :
      AbridgesMembers ms ((key, y) :: ns) ((key, z) :: os)

end

mutual

/-- Nothing has to be left out. -/
theorem Abridges.refl : (j : Json) → Abridges j j j
  | .null => .null
  | .bool b => .bool b
  | .num n => .num n
  | .str s => .str s
  | .arr xs => .arr (AbridgesItems.refl xs)
  | .obj ms => .obj (AbridgesMembers.refl ms)

theorem AbridgesItems.refl : (xs : List Json) → AbridgesItems xs xs xs
  | [] => .nil
  | x :: xs => .cons (Abridges.refl x) (AbridgesItems.refl xs)

theorem AbridgesMembers.refl : (ms : List (String × Json)) → AbridgesMembers ms ms ms
  | [] => .nil
  | (_, x) :: ms => .kept (Abridges.refl x) (AbridgesMembers.refl ms)

end

/-- A key of an abridged object is one of the full object. -/
theorem AbridgesMembers.mem_keys {ms ns os : List (String × Json)} (h : AbridgesMembers ms ns os)
    {m : String × Json} (hm : m ∈ ms) : m.1 ∈ ns.map Prod.fst := by
  induction ns generalizing ms os with
  | nil =>
      cases h
      cases hm
  | cons n ns ih =>
      rw [List.map_cons, List.mem_cons]
      cases h with
      | kept member members =>
          rcases List.mem_cons.1 hm with rfl | hm
          · exact .inl rfl
          · exact .inr (ih members hm)
      | leftOut default members => exact .inr (ih members hm)

/-- What a key of an abridged object leads to: an abridged value, or nothing if there is a default
for the key. -/
inductive Leads (key : String) (full filled : Json) : Option Json → Prop
  | kept {x : Json} (member : Abridges x full filled) : Leads key full filled (some x)
  | leftOut (default : defaults.lookup key = some filled) : Leads key full filled none

/-- What the first key of the full object leads to; the other keys are those of an object without
it. -/
theorem AbridgesMembers.exists_leads {key : String} {y : Json} {ms ns os : List (String × Json)}
    (h : AbridgesMembers ms ((key, y) :: ns) os) (hkey : key ∉ ns.map Prod.fst) :
    ∃ (z : Json) (ms' os' : List (String × Json)), os = (key, z) :: os' ∧
      AbridgesMembers ms' ns os' ∧ Leads key y z (ms.lookup key) ∧
      ∀ other, other ≠ key → ms.lookup other = ms'.lookup other := by
  cases h with
  | @kept _ x _ z ms _ os member members =>
      refine ⟨z, ms, os, rfl, members, ?_, fun other hne => ?_⟩
      · rw [List.lookup_cons_self]
        exact .kept member
      · rw [lookup_cons_eq_ite, if_neg hne]
  | @leftOut _ _ z _ _ os default members =>
      refine ⟨z, ms, os, rfl, members, ?_, fun other hne => rfl⟩
      -- the member is not there, since its key comes only once
      have hnone : ms.lookup key = none := by
        refine List.lookup_eq_none_iff.2 fun m hm => bne_iff_ne.2 ?_
        rintro rfl
        exact hkey (members.mem_keys hm)
      rw [hnone]
      exact .leftOut default

/-- **What the keys of an abridged object lead to.**  The filled object has the keys of the full
one. -/
theorem AbridgesMembers.exists_eq_map {ms ns os : List (String × Json)}
    (h : AbridgesMembers ms ns os) (hkeys : (ns.map Prod.fst).Nodup) :
    ∃ filled : String → Json, os = ns.map (fun n => (n.1, filled n.1)) ∧
      ∀ n ∈ ns, Leads n.1 n.2 (filled n.1) (ms.lookup n.1) := by
  induction ns generalizing ms os with
  | nil =>
      cases h
      exact ⟨fun _ => .null, rfl, by simp⟩
  | cons n ns ih =>
      obtain ⟨key, y⟩ := n
      rw [List.map_cons, List.nodup_cons] at hkeys
      obtain ⟨z, ms', os', rfl, members, hleads, hlookup⟩ := h.exists_leads hkeys.1
      obtain ⟨filled, rfl, hrest⟩ := ih members hkeys.2
      have hne : ∀ n ∈ ns, n.1 ≠ key := by
        rintro n hn rfl
        exact hkeys.1 (List.mem_map.2 ⟨n, hn, rfl⟩)
      refine ⟨Function.update filled key z, ?_, List.forall_mem_cons.2 ⟨?_, fun n hn => ?_⟩⟩
      · rw [List.map_cons, Function.update_self]
        congr 1
        exact List.map_congr_left fun n hn => by rw [Function.update_of_ne (hne n hn)]
      · rwa [Function.update_self]
      · rw [Function.update_of_ne (hne n hn), hlookup n.1 (hne n hn)]
        exact hrest n hn

/-! ### Readers that fill in -/

/-- A reader fills in what was left out of a value: it reads an abridged value as the filled one. -/
def Fills {α : Type} (encode : α → Json) (decode : Json → Option α) (v : α) : Prop :=
  ∀ j filled : Json, Abridges j (encode v) filled → ∃ v', encode v' = filled ∧ decode j = some v'

theorem fills_str (s : String) : Fills str string? s := by
  intro j filled h
  cases h
  exact ⟨s, rfl, rfl⟩

theorem fills_bool (b : Bool) : Fills bool bool? b := by
  intro j filled h
  cases h
  exact ⟨b, rfl, rfl⟩

theorem fills_str? (s : Option String) : Fills str? nullable? s := by
  intro j filled h
  cases s with
  | none =>
      cases h
      exact ⟨none, rfl, rfl⟩
  | some s =>
      cases h
      exact ⟨some s, rfl, rfl⟩

theorem fills_nat {n : Nat} (hn : n < Nat.pow 2 64) : Fills nat count? n := by
  intro j filled h
  cases h
  exact ⟨n, rfl, count?_nat hn⟩

section Lists

variable {α : Type} {encode : α → Json} {decode : Json → Option α}

/-- A list is filled in where its items are. -/
theorem fills_map {vs : List α} (h : ∀ v ∈ vs, Fills encode decode v) :
    Fills (fun vs => arr (vs.map encode)) (list? decode) vs := by
  rintro j filled (_ | _ | _ | _ | items | _)
  rename_i xs zs
  change ∃ vs', arr (vs'.map encode) = arr zs ∧ decodeAll? decode xs = some vs'
  induction vs generalizing xs zs with
  | nil =>
      cases items
      exact ⟨[], rfl, rfl⟩
  | cons v vs ih =>
      cases items with
      | cons item items =>
          obtain ⟨v', rfl, hv⟩ := h v (List.mem_cons_self ..) _ _ item
          obtain ⟨vs', hzs, hvs⟩ := ih (fun w hw => h w (List.mem_cons_of_mem v hw)) items
          cases hzs
          refine ⟨v' :: vs', rfl, ?_⟩
          rw [decodeAll?, hv, hvs]
          rfl

theorem fills_strs (ss : List String) : Fills strs (list? string?) ss :=
  fills_map fun s _ => fills_str s

end Lists

section Fields

variable {α : Type} {encode : α → Json} {decode : Json → Option α} {v : α} {key : String}
  {fs : Fields} {filled : Json}

/-- A field without a default is there, and is filled in. -/
theorem Fills.required? (hfills : Fills encode decode v)
    (h : Leads key (encode v) filled (fs.lookup key)) (hkey : defaults.lookup key = none) :
    ∃ v', encode v' = filled ∧ fs.required? key decode = some v' := by
  rw [Fields.required?]
  generalize fs.lookup key = x at h
  cases h with
  | kept member => exact hfills _ _ member
  | leftOut default => cases hkey.symm.trans default

/-- A field with a default is filled in, or holds the default. -/
theorem Fills.withDefault? (hfills : Fills encode decode v)
    (h : Leads key (encode v) filled (fs.lookup key)) (value : α)
    (hkey : defaults.lookup key = some (encode value)) :
    ∃ v', encode v' = filled ∧ fs.withDefault? key value decode = some v' := by
  rw [Fields.withDefault?]
  generalize fs.lookup key = x at h
  cases h with
  | kept member => exact hfills _ _ member
  | leftOut default =>
      refine ⟨value, ?_, rfl⟩
      rw [hkey, Option.some.injEq] at default
      exact default

end Fields

/-- What the keys of an abridged record lead to. -/
theorem Abridges.exists_record {ns : List (String × Json)} {j filled : Json}
    (h : Abridges j (.obj ns) filled) (hkeys : (ns.map Prod.fst).Nodup) :
    ∃ (ms : List (String × Json)) (held : String → Json), j = .obj ms ∧
      filled = .obj (ns.map fun n => (n.1, held n.1)) ∧
      ∀ n ∈ ns, Leads n.1 n.2 (held n.1) (ms.lookup n.1) := by
  cases h with
  | obj members =>
      obtain ⟨held, rfl, hleads⟩ := members.exists_eq_map hkeys
      exact ⟨_, held, rfl, rfl, hleads⟩

/-- The tag of a tagged record is not left out, and its other keys are those of a record. -/
theorem Abridges.exists_tagged {tag variant : String} {ns : List (String × Json)} {j filled : Json}
    (h : Abridges j (.obj ((tag, .str variant) :: ns)) filled) (htag : defaults.lookup tag = none)
    (hkeys : (tag :: ns.map Prod.fst).Nodup) :
    ∃ (ms : List (String × Json)) (held : String → Json), j = .obj ((tag, .str variant) :: ms) ∧
      filled = .obj ((tag, .str variant) :: ns.map fun n => (n.1, held n.1)) ∧
      (∀ m ∈ ms, m.1 ≠ tag) ∧ ∀ n ∈ ns, Leads n.1 n.2 (held n.1) (ms.lookup n.1) := by
  rw [List.nodup_cons] at hkeys
  cases h with
  | obj members =>
      cases members with
      | kept member members =>
          cases member
          obtain ⟨held, rfl, hleads⟩ := members.exists_eq_map hkeys.2
          refine ⟨_, held, rfl, rfl, ?_, hleads⟩
          rintro m hm rfl
          exact hkeys.1 (members.mem_keys hm)
      | leftOut default members => cases htag.symm.trans default

end Json

open Json (Fields Fills Abridges)

/-! ### Types -/

theorem TypeRef.fills_toJsonAll {position : Json.Position} {ts : List TypeRef}
    (h : ∀ t ∈ ts, Fills toJson (ofJson? position) t) :
    Fills (fun ts => .arr (toJsonAll ts)) (Json.list? (ofJson? position)) ts := by
  simp only [toJsonAll_eq_map]
  exact Json.fills_map h

/-- **Types are filled in.** -/
theorem TypeRef.fills (position : Json.Position) (t : TypeRef) :
    Fills toJson (ofJson? position) t := by
  -- the tag is there and tells the variant, so that each constructor comes from fields of its own
  induction t using TypeRef.induction generalizing position with
  | primitive name =>
      intro j filled h
      obtain ⟨ms, held, rfl, rfl, hms, hleads⟩ := h.exists_tagged rfl (by simp)
      simp only [List.forall_mem_cons] at hleads
      obtain ⟨name', hname', hname⟩ := (Json.fills_str name).required? hleads.1 rfl
      refine ⟨.primitive name', by simp [toJson, hname'], ?_⟩
      rw [ofJson?_obj position (by simp [variants]) hms]
      simp [variantOfJson?, hname]
  | named name args ih =>
      intro j filled h
      obtain ⟨ms, held, rfl, rfl, hms, hleads⟩ := h.exists_tagged rfl (by simp)
      simp only [List.forall_mem_cons] at hleads
      obtain ⟨hname, hargs, -⟩ := hleads
      obtain ⟨name', hname', hname⟩ := (Json.fills_str name).required? hname rfl
      obtain ⟨args', hargs', hargs⟩ :=
        (fills_toJsonAll fun t ht => ih t ht .inside).required? hargs rfl
      refine ⟨.named name' args', by simp [toJson, hname', hargs'], ?_⟩
      rw [ofJson?_obj position (by simp [variants]) hms]
      simp [variantOfJson?, hname, hargs]
  | sequence element ih =>
      intro j filled h
      obtain ⟨ms, held, rfl, rfl, hms, hleads⟩ := h.exists_tagged rfl (by simp)
      simp only [List.forall_mem_cons] at hleads
      obtain ⟨element', helement', helement⟩ := (ih .inside).required? hleads.1 rfl
      refine ⟨.sequence element', by simp [toJson, helement'], ?_⟩
      rw [ofJson?_obj position (by simp [variants]) hms]
      simp [variantOfJson?, helement]
  | mapping key value hkey hvalue =>
      intro j filled h
      obtain ⟨ms, held, rfl, rfl, hms, hleads⟩ := h.exists_tagged rfl (by simp)
      simp only [List.forall_mem_cons] at hleads
      obtain ⟨hleadsKey, hleadsValue, -⟩ := hleads
      obtain ⟨key', hkey', hkey⟩ := (hkey .inside).required? hleadsKey rfl
      obtain ⟨value', hvalue', hvalue⟩ := (hvalue .inside).required? hleadsValue rfl
      refine ⟨.mapping key' value', by simp [toJson, hkey', hvalue'], ?_⟩
      rw [ofJson?_obj position (by simp [variants]) hms]
      simp [variantOfJson?, hkey, hvalue]
  | optional wrapped ih =>
      intro j filled h
      obtain ⟨ms, held, rfl, rfl, hms, hleads⟩ := h.exists_tagged rfl (by simp)
      simp only [List.forall_mem_cons] at hleads
      obtain ⟨wrapped', hwrapped', hwrapped⟩ := (ih .inside).required? hleads.1 rfl
      refine ⟨.optional wrapped', by simp [toJson, hwrapped'], ?_⟩
      rw [ofJson?_obj position (by simp [variants]) hms]
      simp [variantOfJson?, hwrapped]
  | function attributes params effects result hparams hresult =>
      intro j filled h
      obtain ⟨ms, held, rfl, rfl, hms, hleads⟩ := h.exists_tagged rfl (by simp)
      simp only [List.forall_mem_cons] at hleads
      obtain ⟨hleadsParams, hasync, hthrowing, hleadsResult, hattributes, -⟩ := hleads
      obtain ⟨params', hparams', hparams⟩ :=
        (fills_toJsonAll fun t ht => hparams t ht .inside).required? hleadsParams rfl
      obtain ⟨isAsync, hasync', hasync⟩ := (Json.fills_bool _).required? hasync rfl
      obtain ⟨isThrowing, hthrowing', hthrowing⟩ := (Json.fills_bool _).required? hthrowing rfl
      obtain ⟨result', hresult', hresult⟩ := (hresult .inside).required? hleadsResult rfl
      obtain ⟨attributes', hattributes', hattributes⟩ :=
        (Json.fills_strs attributes).withDefault? hattributes [] rfl
      refine ⟨.function attributes' params' ⟨isAsync, isThrowing⟩ result', ?_, ?_⟩
      · simp [toJson, hparams', hasync', hthrowing', hresult', hattributes']
      · rw [ofJson?_obj position (by simp [variants]) hms]
        simp [variantOfJson?, hparams, hasync, hthrowing, hresult, hattributes]
  | existential constraint ih =>
      intro j filled h
      obtain ⟨ms, held, rfl, rfl, hms, hleads⟩ := h.exists_tagged rfl (by simp)
      simp only [List.forall_mem_cons] at hleads
      obtain ⟨constraint', hconstraint', hconstraint⟩ := (ih .inside).required? hleads.1 rfl
      refine ⟨.existential constraint', by simp [toJson, hconstraint'], ?_⟩
      rw [ofJson?_obj position (by simp [variants]) hms]
      simp [variantOfJson?, hconstraint]

/-! ### Members -/

theorem Parameter.fills (position : Json.Position) (p : Parameter) :
    Fills toJson (ofJson? position) p := by
  intro j filled h
  obtain ⟨ms, held, rfl, rfl, hleads⟩ := h.exists_record (by simp)
  simp only [List.forall_mem_cons] at hleads
  obtain ⟨hlabel, hname, htype, hdefault, hinout, -⟩ := hleads
  obtain ⟨label, hlabel', hlabel⟩ := (Json.fills_str? _).withDefault? hlabel none rfl
  obtain ⟨name, hname', hname⟩ := (Json.fills_str _).required? hname rfl
  obtain ⟨type, htype', htype⟩ := (TypeRef.fills position _).required? htype rfl
  obtain ⟨default, hdefault', hdefault⟩ := (Json.fills_str? _).withDefault? hdefault none rfl
  obtain ⟨isInout, hinout', hinout⟩ := (Json.fills_bool _).withDefault? hinout false rfl
  refine ⟨⟨label, name, type, default, isInout⟩, ?_, ?_⟩
  · simp [toJson, hlabel', hname', htype', hdefault', hinout']
  · simp [ofJson?, hlabel, hname, htype, hdefault, hinout]

theorem Method.fills (position : Json.Position) (m : Method) :
    Fills toJson (ofJson? position) m := by
  intro j filled h
  obtain ⟨ms, held, rfl, rfl, hleads⟩ := h.exists_record (by simp)
  simp only [List.forall_mem_cons] at hleads
  obtain ⟨hname, hparams, hasync, hthrowing, hresult, -⟩ := hleads
  obtain ⟨name, hname', hname⟩ := (Json.fills_str _).required? hname rfl
  obtain ⟨params, hparams', hparams⟩ :=
    (Json.fills_map fun p _ => Parameter.fills position p).required? hparams rfl
  obtain ⟨isAsync, hasync', hasync⟩ := (Json.fills_bool _).required? hasync rfl
  obtain ⟨isThrowing, hthrowing', hthrowing⟩ := (Json.fills_bool _).required? hthrowing rfl
  obtain ⟨result, hresult', hresult⟩ := (TypeRef.fills position _).required? hresult rfl
  refine ⟨⟨name, params, ⟨isAsync, isThrowing⟩, result⟩, ?_, ?_⟩
  · simp [toJson, hname', hparams', hasync', hthrowing', hresult']
  · simp [ofJson?, hname, hparams, hasync, hthrowing, hresult]

theorem Initializer.fills (position : Json.Position) (i : Initializer) :
    Fills toJson (ofJson? position) i := by
  intro j filled h
  obtain ⟨ms, held, rfl, rfl, hleads⟩ := h.exists_record (by simp)
  simp only [List.forall_mem_cons] at hleads
  obtain ⟨hparams, hasync, hthrowing, -⟩ := hleads
  obtain ⟨params, hparams', hparams⟩ :=
    (Json.fills_map fun p _ => Parameter.fills position p).required? hparams rfl
  obtain ⟨isAsync, hasync', hasync⟩ := (Json.fills_bool _).required? hasync rfl
  obtain ⟨isThrowing, hthrowing', hthrowing⟩ := (Json.fills_bool _).required? hthrowing rfl
  refine ⟨⟨params, ⟨isAsync, isThrowing⟩⟩, ?_, ?_⟩
  · simp [toJson, hparams', hasync', hthrowing']
  · simp [ofJson?, hparams, hasync, hthrowing]

theorem Field.fills (position : Json.Position) (f : Field) :
    Fills toJson (ofJson? position) f := by
  intro j filled h
  obtain ⟨ms, held, rfl, rfl, hleads⟩ := h.exists_record (by simp)
  simp only [List.forall_mem_cons] at hleads
  obtain ⟨hname, htype, hdefault, hmutable, -⟩ := hleads
  obtain ⟨name, hname', hname⟩ := (Json.fills_str _).required? hname rfl
  obtain ⟨type, htype', htype⟩ := (TypeRef.fills position _).required? htype rfl
  obtain ⟨default, hdefault', hdefault⟩ := (Json.fills_str? _).withDefault? hdefault none rfl
  obtain ⟨isMutable, hmutable', hmutable⟩ := (Json.fills_bool _).withDefault? hmutable false rfl
  refine ⟨⟨name, type, default, isMutable⟩, ?_, ?_⟩
  · simp [toJson, hname', htype', hdefault', hmutable']
  · simp [ofJson?, hname, htype, hdefault, hmutable]

/-! ### Shapes -/

theorem ValueForm.fills (form : ValueForm) :
    Fills (fun form => .str form.keyword) ofJson? form := by
  rintro j filled (_ | _ | _ | _ | _ | _)
  exact ⟨form, rfl, ofJson?_str_keyword form⟩

/-- **Shapes of every kind are filled in.** -/
theorem Shape.fills (s : Shape) : Fills toJson ofJson? s := by
  cases s with
  | contract c =>
      intro j filled h
      obtain ⟨ms, held, rfl, rfl, hms, hleads⟩ := h.exists_tagged rfl (by simp)
      simp only [List.forall_mem_cons] at hleads
      obtain ⟨hmethods, hinitializers, hinherits, -⟩ := hleads
      obtain ⟨methods, hmethods', hmethods⟩ :=
        (Json.fills_map fun m _ => Method.fills .inside m).required? hmethods rfl
      obtain ⟨initializers, hinitializers', hinitializers⟩ :=
        (Json.fills_map fun i _ => Initializer.fills .inside i).required? hinitializers rfl
      obtain ⟨inherits, hinherits', hinherits⟩ := (Json.fills_strs _).required? hinherits rfl
      refine ⟨.contract ⟨methods, initializers, inherits⟩, ?_, ?_⟩
      · simp [toJson, hmethods', hinitializers', hinherits']
      · rw [ofJson?, Json.tagged?_obj _ (by simp) hms]
        simp [Contract.ofJson?, hmethods, hinitializers, hinherits]
  | value v =>
      intro j filled h
      obtain ⟨ms, held, rfl, rfl, hms, hleads⟩ := h.exists_tagged rfl (by simp)
      simp only [List.forall_mem_cons] at hleads
      obtain ⟨hform, hfields, hmethods, hinitializers, hconformances, -⟩ := hleads
      obtain ⟨form, hform', hform⟩ := (ValueForm.fills v.form).required? hform rfl
      obtain ⟨fields, hfields', hfields⟩ :=
        (Json.fills_map fun f _ => Field.fills .inside f).required? hfields rfl
      obtain ⟨methods, hmethods', hmethods⟩ :=
        (Json.fills_map fun m _ => Method.fills .inside m).required? hmethods rfl
      obtain ⟨initializers, hinitializers', hinitializers⟩ :=
        (Json.fills_map fun i _ => Initializer.fills .inside i).required? hinitializers rfl
      obtain ⟨conformances, hconformances', hconformances⟩ :=
        (Json.fills_strs _).required? hconformances rfl
      refine ⟨.value ⟨form, fields, methods, initializers, conformances⟩, ?_, ?_⟩
      · simp [toJson, hform', hfields', hmethods', hinitializers', hconformances']
      · rw [ofJson?, Json.tagged?_obj _ (by simp) hms]
        simp [ValueType.ofJson?, hform, hfields, hmethods, hinitializers, hconformances]
  | enumeration e =>
      intro j filled h
      obtain ⟨ms, held, rfl, rfl, hms, hleads⟩ := h.exists_tagged rfl (by simp)
      simp only [List.forall_mem_cons] at hleads
      obtain ⟨hcases, hvalues, hconformances, -⟩ := hleads
      obtain ⟨names, hcases', hcases⟩ := (Json.fills_strs _).required? hcases rfl
      obtain ⟨hasValues, hvalues', hvalues⟩ := (Json.fills_bool _).required? hvalues rfl
      obtain ⟨conformances, hconformances', hconformances⟩ :=
        (Json.fills_strs _).required? hconformances rfl
      refine ⟨.enumeration ⟨names, hasValues, conformances⟩, ?_, ?_⟩
      · simp [toJson, hcases', hvalues', hconformances']
      · rw [ofJson?, Json.tagged?_obj _ (by simp) hms]
        simp [Enumeration.ofJson?, hcases, hvalues, hconformances]

/-! ### Declarations -/

/-- **Declarations are filled in.** -/
theorem Declaration.fills {d : Declaration} (hd : d.IsCounted) : Fills toJson ofJson? d := by
  intro j filled h
  obtain ⟨ms, held, rfl, rfl, hleads⟩ := h.exists_record (by simp)
  simp only [List.forall_mem_cons] at hleads
  obtain ⟨hname, hparent, hunit, hposition, hline, hshape, -⟩ := hleads
  obtain ⟨name, hname', hname⟩ := (Json.fills_str _).required? hname rfl
  obtain ⟨parent, hparent', hparent⟩ := (Json.fills_str? _).withDefault? hparent none rfl
  obtain ⟨unit, hunit', hunit⟩ := (Json.fills_str _).withDefault? hunit "" rfl
  obtain ⟨position, hposition', hposition⟩ :=
    (Json.fills_nat hd.position).withDefault? hposition 0 rfl
  obtain ⟨line, hline', hline⟩ := (Json.fills_nat hd.line).withDefault? hline 0 rfl
  obtain ⟨shape, hshape', hshape⟩ := (Shape.fills _).required? hshape rfl
  refine ⟨⟨name, parent, unit, position, line, shape⟩, ?_, ?_⟩
  · simp [toJson, hname', hparent', hunit', hposition', hline', hshape']
  · simp [ofJson?, hname, hparent, hunit, hposition, hline, hshape]

theorem Entry.fills {e : Entry} (he : e.declaration.IsCounted) : Fills toJson ofJson? e := by
  intro j filled h
  obtain ⟨ms, held, rfl, rfl, hleads⟩ := h.exists_record (by simp)
  simp only [List.forall_mem_cons] at hleads
  obtain ⟨hdeclaration, hmarkers, -⟩ := hleads
  obtain ⟨declaration, hdeclaration', hdeclaration⟩ :=
    (Declaration.fills he).required? hdeclaration rfl
  obtain ⟨markers, hmarkers', hmarkers⟩ := (Json.fills_strs _).required? hmarkers rfl
  refine ⟨⟨declaration, markers⟩, ?_, ?_⟩
  · simp [toJson, hdeclaration', hmarkers']
  · simp [ofJson?, hdeclaration, hmarkers]

/-- **The JSON form is lossless, and may be abridged.**  A declaration with its markers is read back
from its JSON form.  A form of it in which fields that have a default are left out, any number of
them and at any depth, is read as the declaration in which these fields hold their default. -/
theorem Entry.ofJson?_of_abridges {e : Entry} (he : e.declaration.IsCounted) :
    ofJson? e.toJson = some e ∧
      ∀ j filled : Json, Abridges j e.toJson filled →
        ∃ e' : Entry, e'.toJson = filled ∧ ofJson? filled = some e' ∧ ofJson? j = some e' := by
  refine ⟨ofJson?_toJson he, fun j filled h => ?_⟩
  obtain ⟨e', rfl, hj⟩ := Entry.fills he j filled h
  exact ⟨e', rfl, ofJson?_toJson (isCounted_of_ofJson? hj), hj⟩

/-- Of a nested structure its parent, its place and its line are left out, and of a closure that one
of its methods takes the label and the attributes. -/
theorem Entry.ofJson?_of_abridges_cart :
    let closure (attributes : List String) : TypeRef :=
      .function attributes [.named "Item" []] ⟨false, true⟩ .void
    let visit (label : Option String) (attributes : List String) : Method :=
      ⟨"visit", [⟨label, "body", closure attributes, none, false⟩], ⟨false, true⟩, .void⟩
    let cart (parent : Option String) (position line : Nat) (method : Method) : Entry :=
      { declaration :=
          { name := "Shop.Cart", parent, unit := "Shop.swift", position, line
            shape := .value { form := .struct, methods := [method] } }
        markers := ["autoStub"] }
    let full := cart (some "Shop") 3 7 (visit (some "with") ["escaping"])
    let filled := cart none 0 0 (visit none [])
    let shortClosure : Json :=
      .obj [("kind", .str "function"), ("params", .arr [(TypeRef.named "Item" []).toJson]),
        ("is_async", .bool false), ("is_throwing", .bool true), ("ret", TypeRef.void.toJson)]
    let shortVisit : Json :=
      .obj [("name", .str "visit"),
        ("params", .arr [.obj [("name", .str "body"), ("ty", shortClosure)]]),
        ("is_async", .bool false), ("is_throwing", .bool true), ("ret", TypeRef.void.toJson)]
    let short : Json :=
      .obj [("declaration",
        .obj [("name", .str "Shop.Cart"), ("unit", .str "Shop.swift"),
          ("kind", .obj [("shape", .str "value_type"), ("form", .str "struct"), ("fields", .arr []),
            ("methods", .arr [shortVisit]), ("initializers", .arr []),
            ("conformances", .arr [])])]),
        ("markers", .arr [.str "autoStub"])]
    full.declaration.IsCounted ∧ ofJson? full.toJson = some full ∧
      Abridges short full.toJson filled.toJson ∧
      ∃ e' : Entry, e'.toJson = filled.toJson ∧ ofJson? filled.toJson = some e' ∧
        ofJson? short = some e' := by
  intro closure visit cart full filled shortClosure shortVisit short
  have hcounted : full.declaration.IsCounted := ⟨by decide, by decide⟩
  have hclosure : Abridges shortClosure (closure ["escaping"]).toJson (closure []).toJson :=
    .obj (.kept (.refl _) (.kept (.refl _) (.kept (.refl _) (.kept (.refl _) (.kept (.refl _)
      (.leftOut rfl .nil))))))
  have hvisit : Abridges shortVisit (visit (some "with") ["escaping"]).toJson
      (visit none []).toJson :=
    .obj (.kept (.refl _) (.kept (.arr (.cons (.obj (.leftOut rfl (.kept (.refl _) (.kept hclosure
      (.leftOut rfl (.leftOut rfl .nil)))))) .nil)) (.refl _)))
  have hshort : Abridges short full.toJson filled.toJson :=
    .obj (.kept (.obj (.kept (.refl _) (.leftOut rfl (.kept (.refl _) (.leftOut rfl (.leftOut rfl
      (.kept (.obj (.kept (.refl _) (.kept (.refl _) (.kept (.refl _) (.kept (.arr (.cons hvisit .nil))
        (.refl _)))))) .nil))))))) (.refl _))
  exact ⟨hcounted, (ofJson?_of_abridges hcounted).1, hshort,
    (ofJson?_of_abridges hcounted).2 short filled.toJson hshort⟩

end Scaffold
