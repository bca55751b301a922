/-
**Type references.**

The types that occur in member signatures, in one normal form: `Optional<T>` and `T?` are the same
reference, and so are `Array<T>` and `[T]`, `Dictionary<K, V>` and `[K: V]`.

Main definitions:

* `Scaffold.Effects` — whether something is asynchronous and whether it throws;
* `Scaffold.TypeRef` — the references, with decidable equality;
* `Scaffold.TypeRef.ofName` — a bare name, which may be that of a primitive type;
* `Scaffold.TypeRef.mentions` — the declarations that a reference names.

Main results:

* `Scaffold.TypeRef.induction` — induction on references;
* `Scaffold.TypeRef.same_iff` — the structural comparison decides equality.
-/

import Scaffold.Name.Set

set_option relaxedAutoImplicit false
set_option autoImplicit false

namespace Scaffold

/-- What calling something may involve. -/
structure Effects where
  /-- Whether the call is asynchronous. -/
  isAsync : Bool := false
  /-- Whether the call may throw. -/
  isThrowing : Bool := false
deriving DecidableEq, Repr, Inhabited

/-- A reference to a type. -/
inductive TypeRef where
  /-- A built-in scalar or a value type of the standard library. -/
  | primitive (name : String)
  /-- A declared type, possibly with a dotted name and with generic arguments. -/
  | named (name : String) (args : List TypeRef)
  /-- The type `[T]`. -/
  | sequence (element : TypeRef)
  /-- The type `[K: V]`. -/
  | mapping (key value : TypeRef)
  /-- The type `T?`. -/
  | optional (wrapped : TypeRef)
  /-- A function type; its attributes are given without the at sign. -/
  | function (attributes : List String) (params : List TypeRef) (effects : Effects)
      (result : TypeRef)
  /-- The type `any P`. -/
  | existential (constraint : TypeRef)
deriving Repr, Inhabited

/-- Induction on types, with a hypothesis for every type of a list. -/
@[elab_as_elim]
theorem TypeRef.induction {motive : TypeRef → Prop}
    (primitive : ∀ name, motive (.primitive name))
    (named : ∀ name args, (∀ t ∈ args, motive t) → motive (.named name args))
    (sequence : ∀ element, motive element → motive (.sequence element))
    (mapping : ∀ key value, motive key → motive value → motive (.mapping key value))
    (optional : ∀ wrapped, motive wrapped → motive (.optional wrapped))
    (function : ∀ attributes params effects result, (∀ t ∈ params, motive t) → motive result →
      motive (.function attributes params effects result))
    (existential : ∀ constraint, motive constraint → motive (.existential constraint))
    (t : TypeRef) : motive t := by
  refine @TypeRef.rec motive (fun ts => ∀ t ∈ ts, motive t) primitive named sequence mapping
    optional function existential ?_ ?_ t
  · intro t ht
    exact absurd ht List.not_mem_nil
  · intro t ts ht hts u hu
    rcases List.mem_cons.1 hu with rfl | hu
    · exact ht
    · exact hts u hu

/-- The names of primitive types. -/
def primitiveNames : List String :=
  ["String", "Character", "Bool", "Int", "Int8", "Int16", "Int32", "Int64", "UInt", "UInt8",
   "UInt16", "UInt32", "UInt64", "Double", "Float", "CGFloat", "Decimal", "Void", "Date", "Data",
   "URL", "UUID"]

namespace TypeRef

/-- The type that a bare name refers to. -/
def ofName (name : String) : TypeRef :=
  if primitiveNames.contains name then .primitive name else .named name []

/-- The type without a value. -/
def void : TypeRef := .primitive "Void"

/-- Whether a reference is `void`. -/
def isVoid : TypeRef → Bool
  | .primitive name => name == "Void"
  | _ => false

/-! ### Equality -/

mutual

/-- Whether two references are built alike. -/
def same : TypeRef → TypeRef → Bool
  | .primitive n, .primitive m => n == m
  | .named n xs, .named m ys => n == m && sameAll xs ys
  | .sequence a, .sequence b => same a b
  | .mapping k v, .mapping l w => same k l && same v w
  | .optional a, .optional b => same a b
  | .function as xs e r, .function bs ys f s =>
    as == bs && sameAll xs ys && e == f && same r s
  | .existential a, .existential b => same a b
  | _, _ => false

/-- Whether two lists of references are built alike. -/
def sameAll : List TypeRef → List TypeRef → Bool
  | [], [] => true
  | x :: xs, y :: ys => same x y && sameAll xs ys
  | _, _ => false

end

mutual

theorem same_self : (a : TypeRef) → same a a = true
  | .primitive n => by simp [same]
  | .named n xs => by simp [same, sameAll_self xs]
  | .sequence a => by simp [same, same_self a]
  | .mapping k v => by simp [same, same_self k, same_self v]
  | .optional a => by simp [same, same_self a]
  | .function as xs e r => by simp [same, sameAll_self xs, same_self r]
  | .existential a => by simp [same, same_self a]

theorem sameAll_self : (xs : List TypeRef) → sameAll xs xs = true
  | [] => by simp [sameAll]
  | x :: xs => by simp [sameAll, same_self x, sameAll_self xs]

end

mutual

theorem eq_of_same : (a b : TypeRef) → same a b = true → a = b
  | .primitive n, b, h => by
      cases b <;> simp_all [same]
  | .named n xs, b, h => by
      cases b with
      | named m ys =>
          simp only [same, Bool.and_eq_true, beq_iff_eq] at h
          rw [h.1, eq_of_sameAll xs ys h.2]
      | _ => simp [same] at h
  | .sequence a, b, h => by
      cases b with
      | sequence b => rw [eq_of_same a b (by simpa [same] using h)]
      | _ => simp [same] at h
  | .mapping k v, b, h => by
      cases b with
      | mapping l w =>
          simp only [same, Bool.and_eq_true] at h
          rw [eq_of_same k l h.1, eq_of_same v w h.2]
      | _ => simp [same] at h
  | .optional a, b, h => by
      cases b with
      | optional b => rw [eq_of_same a b (by simpa [same] using h)]
      | _ => simp [same] at h
  | .function as xs e r, b, h => by
      cases b with
      | function bs ys f s =>
          simp only [same, Bool.and_eq_true, beq_iff_eq] at h
          rw [h.1.1.1, eq_of_sameAll xs ys h.1.1.2, h.1.2, eq_of_same r s h.2]
      | _ => simp [same] at h
  | .existential a, b, h => by
      cases b with
      | existential b => rw [eq_of_same a b (by simpa [same] using h)]
      | _ => simp [same] at h

theorem eq_of_sameAll : (xs ys : List TypeRef) → sameAll xs ys = true → xs = ys
  | [], ys, h => by
      cases ys with
      | nil => rfl
      | cons y ys => simp [sameAll] at h
  | x :: xs, ys, h => by
      cases ys with
      | nil => simp [sameAll] at h
      | cons y ys =>
          simp only [sameAll, Bool.and_eq_true] at h
          rw [eq_of_same x y h.1, eq_of_sameAll xs ys h.2]

end

/-- The structural comparison decides equality. -/
theorem same_iff {a b : TypeRef} : same a b = true ↔ a = b :=
  ⟨eq_of_same a b, fun h => h ▸ same_self a⟩

instance : DecidableEq TypeRef := fun _ _ => decidable_of_iff _ same_iff

/-! ### Names -/

mutual

/-- The declarations that a reference names, in the order of writing. -/
def mentions : TypeRef → List String
  | .primitive _ => []
  | .named name args => name :: mentionsAll args
  | .sequence element => mentions element
  | .mapping key value => mentions key ++ mentions value
  | .optional wrapped => mentions wrapped
  | .function _ params _ result => mentionsAll params ++ mentions result
  | .existential constraint => mentions constraint

/-- The declarations that the references of a list name. -/
def mentionsAll : List TypeRef → List String
  | [] => []
  | t :: ts => mentions t ++ mentionsAll ts

end

/-- The set of declarations that a reference names. -/
def names (t : TypeRef) : NameSet := NameSet.ofList t.mentions

end TypeRef

end Scaffold
