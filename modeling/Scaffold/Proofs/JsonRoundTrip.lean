/-
**The JSON form of declarations is lossless.**

What is written in JSON is read back: a type of any depth, a member, a shape of each kind and a
declaration with its markers.  Numbers are read as counts of at most 64 bits, so the place and the
line of a declaration are taken to be such counts.

Types are read with fuel.  The fuel is enough: it is as much as the value is deep, and the values
inside of a value are less deep.  So reading a type is described by an equation without fuel.

Main definitions:

* `Scaffold.Declaration.IsCounted` — the place and the line of a declaration fit into 64 bits.

Main results:

* `Scaffold.TypeRef.ofJsonWithin?_congr` — fuel beyond the depth of a value changes nothing;
* `Scaffold.TypeRef.ofJson?_eq` — **reading a type, without fuel**;
* `Scaffold.TypeRef.ofJson?_toJson` — types are read back;
* `Scaffold.Entry.ofJson?_toJson` — **and so are declarations with their markers**.
-/

import Scaffold.Declaration.Json

set_option relaxedAutoImplicit false
set_option autoImplicit false

namespace Scaffold

/-! ### Depth -/

namespace Json

theorem depth_pos (j : Json) : 0 < j.depth := by
  cases j <;> simp [depth]

theorem depth_le_depthItems {x : Json} {xs : List Json} (h : x ∈ xs) : x.depth ≤ depthItems xs := by
  induction xs with
  | nil => cases h
  | cons y ys ih =>
      rw [depthItems]
      rcases List.mem_cons.1 h with rfl | h
      · exact Nat.le_max_left _ _
      · exact Nat.le_trans (ih h) (Nat.le_max_right _ _)

theorem depth_le_depthMembers {k : String} {x : Json} {ms : List (String × Json)}
    (h : (k, x) ∈ ms) : x.depth ≤ depthMembers ms := by
  induction ms with
  | nil => cases h
  | cons m ms ih =>
      obtain ⟨l, y⟩ := m
      rw [depthMembers]
      rcases List.mem_cons.1 h with heq | h
      · cases heq
        exact Nat.le_max_left _ _
      · exact Nat.le_trans (ih h) (Nat.le_max_right _ _)

/-- An object does not get deeper by leaving out members. -/
theorem depthMembers_filter_le (p : String × Json → Bool) (ms : List (String × Json)) :
    depthMembers (ms.filter p) ≤ depthMembers ms := by
  induction ms with
  | nil => exact Nat.le_refl _
  | cons m ms ih =>
      obtain ⟨k, x⟩ := m
      rw [List.filter_cons, depthMembers]
      split
      · rw [depthMembers]
        omega
      · omega

/-- The items of an array are less deep than it. -/
theorem depth_lt_of_mem_arr {x : Json} {xs : List Json} (h : x ∈ xs) : x.depth < (arr xs).depth := by
  rw [depth]
  exact Nat.lt_succ_of_le (depth_le_depthItems h)

/-- The fields of a record are less deep than it. -/
theorem depth_lt_of_mem_record {names : List String} {j : Json} {fs : Fields}
    (h : j.record? names = some fs) {k : String} {x : Json} (hx : (k, x) ∈ fs) :
    x.depth < j.depth := by
  cases j with
  | obj ms =>
      rw [record?, Option.some.injEq] at h
      subst h
      rw [depth]
      exact Nat.lt_succ_of_le (depth_le_depthMembers hx)
  | arr xs =>
      rw [record?, Option.ite_none_right_eq_some, Option.some.injEq] at h
      obtain ⟨-, rfl⟩ := h
      exact depth_lt_of_mem_arr (List.of_mem_zip hx).2
  | null => cases h
  | bool b => cases h
  | num n => cases h
  | str s => cases h

/-- What is left of a tagged record without its variant is not deeper. -/
theorem depth_le_of_tagged? {position : Position} {tag : String} {variants : List String}
    {j content : Json} {variant : String}
    (h : j.tagged? position tag variants = some (variant, content)) : content.depth ≤ j.depth := by
  cases j with
  | obj ms =>
      simp only [tagged?, Option.bind_eq_bind, Option.bind_eq_some_iff, Option.pure_def,
        Option.some.injEq, Prod.mk.injEq] at h
      obtain ⟨-, -, -, -, -, rfl⟩ := h
      rw [depth, depth]
      exact Nat.succ_le_succ (depthMembers_filter_le _ ms)
  | arr xs =>
      cases xs with
      | nil => cases h
      | cons x xs =>
          simp only [tagged?, Option.map_eq_some_iff, Prod.mk.injEq] at h
          obtain ⟨-, -, -, rfl⟩ := h
          rw [depth, depth, depthItems]
          omega
  | null => cases h
  | bool b => cases h
  | num n => cases h
  | str s => cases h

/-! ### Readers that agree -/

section Congruence

variable {α : Type} {decode decode' : Json → Option α}

theorem decodeAll?_congr {xs : List Json} (h : ∀ x ∈ xs, decode x = decode' x) :
    decodeAll? decode xs = decodeAll? decode' xs := by
  induction xs with
  | nil => rfl
  | cons x xs ih =>
      rw [decodeAll?, decodeAll?, h x (List.mem_cons_self ..),
        ih fun y hy => h y (List.mem_cons_of_mem x hy)]

/-- Lists are read alike by readers that agree on what is less deep. -/
theorem list?_congr {j : Json} (h : ∀ x : Json, x.depth < j.depth → decode x = decode' x) :
    list? decode j = list? decode' j := by
  cases j with
  | arr xs => exact decodeAll?_congr fun x hx => h x (depth_lt_of_mem_arr hx)
  | null => rfl
  | bool b => rfl
  | num n => rfl
  | str s => rfl
  | obj ms => rfl

/-- A field is read alike by readers that agree on what is less deep than the record. -/
theorem Fields.required?_congr {names : List String} {j : Json} {fs : Fields}
    (hfields : j.record? names = some fs) (name : String)
    (h : ∀ x : Json, x.depth < j.depth → decode x = decode' x) :
    fs.required? name decode = fs.required? name decode' := by
  rw [required?, required?]
  cases hx : fs.lookup name with
  | none => rfl
  | some x =>
      obtain ⟨front, back, rfl, -⟩ := List.lookup_eq_some_iff.1 hx
      exact h x (depth_lt_of_mem_record hfields (List.mem_append_right _ (List.mem_cons_self ..)))

end Congruence

end Json

/-! ### Types without fuel -/

namespace TypeRef

/-- A variant is read alike by readers that agree on what is less deep. -/
theorem variantOfJson?_congr {inner inner' : Json → Option TypeRef} (variant : String)
    {content : Json} (h : ∀ x : Json, x.depth < content.depth → inner x = inner' x) :
    variantOfJson? inner variant content = variantOfJson? inner' variant content := by
  have hfield : ∀ {names : List String} {fs : Json.Fields}, content.record? names = some fs →
      ∀ name, fs.required? name inner = fs.required? name inner' :=
    fun hfs name => Json.Fields.required?_congr hfs name h
  have hlist : ∀ {names : List String} {fs : Json.Fields}, content.record? names = some fs →
      ∀ name, fs.required? name (Json.list? inner) = fs.required? name (Json.list? inner') :=
    fun hfs name => Json.Fields.required?_congr hfs name fun x hx =>
      Json.list?_congr fun y hy => h y (Nat.lt_trans hy hx)
  unfold variantOfJson?
  split
  · rfl
  · refine Option.bind_congr fun fs hfs => ?_
    rw [hlist hfs]
  · refine Option.bind_congr fun fs hfs => ?_
    rw [hfield hfs]
  · refine Option.bind_congr fun fs hfs => ?_
    simp only [hfield hfs]
  · refine Option.bind_congr fun fs hfs => ?_
    rw [hfield hfs]
  · refine Option.bind_congr fun fs hfs => ?_
    simp only [hfield hfs, hlist hfs]
  · refine Option.bind_congr fun fs hfs => ?_
    rw [hfield hfs]
  · rfl

/-- Fuel beyond the depth of a value changes nothing: the values inside are less deep. -/
theorem ofJsonWithin?_congr {fuel fuel' : Nat} {position : Json.Position} {j : Json}
    (h : j.depth ≤ fuel) (h' : j.depth ≤ fuel') :
    ofJsonWithin? fuel position j = ofJsonWithin? fuel' position j := by
  have hpos : 0 < j.depth := j.depth_pos
  induction fuel generalizing fuel' position j with
  | zero => omega
  | succ fuel ih =>
      cases fuel' with
      | zero => omega
      | succ fuel' =>
          rw [ofJsonWithin?, ofJsonWithin?]
          refine Option.bind_congr fun p hp => ?_
          have hcontent : p.2.depth ≤ j.depth := Json.depth_le_of_tagged? hp
          exact variantOfJson?_congr p.1 fun x hx => ih (by omega) (by omega) x.depth_pos

/-- **Reading a type, without fuel**: the variant comes first, and the types inside lie inside of a
tagged record. -/
theorem ofJson?_eq (position : Json.Position) (j : Json) :
    ofJson? position j =
      (j.tagged? position "kind" variants).bind fun p =>
        variantOfJson? (ofJson? .inside) p.1 p.2 := by
  rw [ofJson?, ofJsonWithin?_congr (Nat.le_refl _) (Nat.le_succ j.depth), ofJsonWithin?]
  refine Option.bind_congr fun p hp => ?_
  have hcontent : p.2.depth ≤ j.depth := Json.depth_le_of_tagged? hp
  exact variantOfJson?_congr p.1 fun x hx => ofJsonWithin?_congr (by omega) (Nat.le_refl _)

end TypeRef

/-! ### Values of fields -/

namespace Json

@[simp] theorem string?_str (s : String) : (str s).string? = some s := rfl

@[simp] theorem bool?_bool (b : Bool) : (bool b).bool? = some b := rfl

@[simp] theorem nullable?_str? (s : Option String) : (str? s).nullable? = some s := by
  cases s <;> rfl

theorem count?_nat {n : Nat} (h : n < Nat.pow 2 64) : (nat n).count? = some n := if_pos h

@[simp] theorem list?_map {α : Type} {encode : α → Json} {decode : Json → Option α} {xs : List α}
    (h : ∀ x ∈ xs, decode (encode x) = some x) : list? decode (arr (xs.map encode)) = some xs := by
  rw [list?]
  induction xs with
  | nil => rfl
  | cons x xs ih =>
      have htail := ih fun y hy => h y (List.mem_cons_of_mem x hy)
      rw [List.map_cons, decodeAll?, h x (List.mem_cons_self ..), htail]
      rfl

@[simp] theorem record?_obj (names : List String) (ms : List (String × Json)) :
    (obj ms).record? names = some ms := rfl

section Fields

variable {α : Type} (key name : String) (x : Json) (fs : Fields) (value : α)
  (decode : Json → Option α)

theorem lookup_cons_eq_ite :
    List.lookup name ((key, x) :: fs) = if name = key then some x else List.lookup name fs := by
  by_cases h : name = key
  · rw [if_pos h, h, List.lookup_cons_self]
  · rw [if_neg h, List.lookup_cons, beq_false_of_ne h]

@[simp] theorem Fields.required?_cons :
    required? ((key, x) :: fs) name decode =
      if name = key then decode x else required? fs name decode := by
  rw [required?, lookup_cons_eq_ite]
  split <;> rfl

@[simp] theorem Fields.withDefault?_cons :
    withDefault? ((key, x) :: fs) name value decode =
      if name = key then decode x else withDefault? fs name value decode := by
  rw [withDefault?, lookup_cons_eq_ite]
  by_cases h : name = key
  · rw [if_pos h, if_pos h]
  · rw [if_neg h, if_neg h, withDefault?]

end Fields

/-- An object that starts with its tag is the variant that the tag names. -/
theorem tagged?_obj (position : Position) {tag variant : String} {variants : List String}
    {ms : List (String × Json)} (hvariant : variant ∈ variants) (hms : ∀ m ∈ ms, m.1 ≠ tag) :
    (obj ((tag, str variant) :: ms)).tagged? position tag variants = some (variant, obj ms) := by
  have hrest : (ms.filter fun m => m.1 != tag) = ms :=
    List.filter_eq_self.2 fun m hm => by simpa using hms m hm
  simp [tagged?, variant?, hvariant, hrest]

@[simp] theorem list?_strs (ss : List String) : list? string? (strs ss) = some ss :=
  list?_map fun s _ => string?_str s

end Json

open Json (Fields)

/-! ### Types -/

namespace TypeRef

theorem toJsonAll_eq_map (ts : List TypeRef) : toJsonAll ts = ts.map toJson := by
  induction ts with
  | nil => rfl
  | cons t ts ih => rw [toJsonAll, ih, List.map_cons]

/-- A type is read by its variant. -/
theorem ofJson?_obj (position : Json.Position) {variant : String} (hvariant : variant ∈ variants)
    {ms : List (String × Json)} (hms : ∀ m ∈ ms, m.1 ≠ "kind") :
    ofJson? position (.obj (("kind", .str variant) :: ms)) =
      variantOfJson? (ofJson? .inside) variant (.obj ms) := by
  rw [ofJson?_eq, Json.tagged?_obj position hvariant hms, Option.bind_some]

/-- **Types are read back.** -/
@[simp] theorem ofJson?_toJson (position : Json.Position) (t : TypeRef) :
    ofJson? position t.toJson = some t := by
  induction t using TypeRef.induction generalizing position with
  | primitive name =>
      rw [toJson, ofJson?_obj position (by simp [variants]) (by simp)]
      simp [variantOfJson?]
  | named name args ih =>
      rw [toJson, toJsonAll_eq_map, ofJson?_obj position (by simp [variants]) (by simp)]
      simp [variantOfJson?, Json.list?_map fun t ht => ih t ht .inside]
  | sequence element ih =>
      rw [toJson, ofJson?_obj position (by simp [variants]) (by simp)]
      simp [variantOfJson?, ih]
  | mapping key value hkey hvalue =>
      rw [toJson, ofJson?_obj position (by simp [variants]) (by simp)]
      simp [variantOfJson?, hkey, hvalue]
  | optional wrapped ih =>
      rw [toJson, ofJson?_obj position (by simp [variants]) (by simp)]
      simp [variantOfJson?, ih]
  | function attributes params effects result hparams hresult =>
      rw [toJson, toJsonAll_eq_map, ofJson?_obj position (by simp [variants]) (by simp)]
      simp [variantOfJson?, Json.list?_map fun t ht => hparams t ht .inside, hresult]
  | existential constraint ih =>
      rw [toJson, ofJson?_obj position (by simp [variants]) (by simp)]
      simp [variantOfJson?, ih]

end TypeRef

/-! ### Members -/

@[simp] theorem Parameter.ofJson?_toJson (position : Json.Position) (p : Parameter) :
    ofJson? position p.toJson = some p := by
  simp [ofJson?, toJson]

@[simp] theorem Method.ofJson?_toJson (position : Json.Position) (m : Method) :
    ofJson? position m.toJson = some m := by
  simp [ofJson?, toJson]

@[simp] theorem Initializer.ofJson?_toJson (position : Json.Position) (i : Initializer) :
    ofJson? position i.toJson = some i := by
  simp [ofJson?, toJson]

@[simp] theorem Field.ofJson?_toJson (position : Json.Position) (f : Field) :
    ofJson? position f.toJson = some f := by
  simp [ofJson?, toJson]

/-! ### Shapes -/

@[simp] theorem ValueForm.ofJson?_str_keyword (form : ValueForm) :
    ofJson? (.str form.keyword) = some form := by
  cases form <;> rfl

/-- **Shapes of every kind are read back.** -/
@[simp] theorem Shape.ofJson?_toJson (s : Shape) : ofJson? s.toJson = some s := by
  cases s with
  | contract c =>
      rw [toJson, ofJson?, Json.tagged?_obj _ (by simp) (by simp)]
      simp [Contract.ofJson?]
  | value v =>
      rw [toJson, ofJson?, Json.tagged?_obj _ (by simp) (by simp)]
      simp [ValueType.ofJson?]
  | enumeration e =>
      rw [toJson, ofJson?, Json.tagged?_obj _ (by simp) (by simp)]
      simp [Enumeration.ofJson?]

/-! ### Declarations -/

/-- The place and the line of a declaration fit into 64 bits. -/
structure Declaration.IsCounted (d : Declaration) : Prop where
  /-- The place does. -/
  position : d.position < Nat.pow 2 64
  /-- The line does. -/
  line : d.line < Nat.pow 2 64

theorem Declaration.ofJson?_toJson {d : Declaration} (h : d.IsCounted) :
    ofJson? d.toJson = some d := by
  simp [ofJson?, toJson, Json.count?_nat h.position, Json.count?_nat h.line]

/-- **Declarations with their markers are read back.** -/
theorem Entry.ofJson?_toJson {e : Entry} (h : e.declaration.IsCounted) :
    ofJson? e.toJson = some e := by
  simp [ofJson?, toJson, Declaration.ofJson?_toJson h]

/-! ### What is read is counted -/

theorem Json.lt_of_count? {j : Json} {n : Nat} (h : j.count? = some n) : n < Nat.pow 2 64 := by
  cases j with
  | num number =>
      cases number with
      | integer negative magnitude =>
          cases negative with
          | true => cases h
          | false =>
              rw [count?, Number.count?, Option.ite_none_right_eq_some, Option.some.injEq] at h
              exact h.2 ▸ h.1
      | decimal negative mantissa exponent => cases h
  | null => cases h
  | bool b => cases h
  | str s => cases h
  | arr xs => cases h
  | obj ms => cases h

theorem Json.Fields.lt_of_withDefault? {fs : Fields} {name : String} {n : Nat}
    (h : fs.withDefault? name 0 Json.count? = some n) : n < Nat.pow 2 64 := by
  rw [withDefault?] at h
  split at h
  · exact lt_of_count? h
  · cases h
    exact Nat.two_pow_pos 64

theorem Declaration.isCounted_of_ofJson? {j : Json} {d : Declaration} (h : ofJson? j = some d) :
    d.IsCounted := by
  simp only [ofJson?, Option.bind_eq_bind, Option.bind_eq_some_iff, Option.pure_def,
    Option.some.injEq] at h
  obtain ⟨fs, -, name, -, parent, -, unit, -, position, hposition, line, hline, shape, -, rfl⟩ := h
  exact ⟨Fields.lt_of_withDefault? hposition, Fields.lt_of_withDefault? hline⟩

/-- Whatever is read fits into 64 bits. -/
theorem Entry.isCounted_of_ofJson? {j : Json} {e : Entry} (h : ofJson? j = some e) :
    e.declaration.IsCounted := by
  simp only [ofJson?, Option.bind_eq_bind, Option.bind_eq_some_iff, Option.pure_def,
    Option.some.injEq] at h
  obtain ⟨fs, -, declaration, hdeclaration, markers, -, rfl⟩ := h
  obtain ⟨x, -, hx⟩ := Option.bind_eq_some_iff.1 hdeclaration
  exact Declaration.isCounted_of_ofJson? hx

end Scaffold
