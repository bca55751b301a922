/-
**Taking values apart.**

A record is written as an object, in which unknown members are ignored, or as an array of its
fields in order, in which fields at the end may be left out.  A tagged record carries its variant
in a member of its own, or in front of the array.  The variant is given by its name, or, in a
tagged record that lies inside another one, also by its number.

Main definitions:

* `Scaffold.Json.depth` — how deeply a value is nested;
* `Scaffold.Json.record?` — the fields of a record;
* `Scaffold.Json.Position` — whether a value lies inside a tagged record;
* `Scaffold.Json.tagged?` — the variant and the fields of a tagged record;
* `Scaffold.Json.Fields.required?`, `Scaffold.Json.Fields.withDefault?` — reading a field;
* `Scaffold.Json.decodeAll?` — reading a list.
-/

import Scaffold.Json.Basic

set_option relaxedAutoImplicit false
set_option autoImplicit false

namespace Scaffold.Json

mutual

/-- How deeply a value is nested; a value without parts has depth one. -/
def depth : Json → Nat
  | .arr xs => depthItems xs + 1
  | .obj ms => depthMembers ms + 1
  | _ => 1

/-- The greatest depth among items. -/
def depthItems : List Json → Nat
  | [] => 0
  | x :: xs => max (depth x) (depthItems xs)

/-- The greatest depth among members. -/
def depthMembers : List (String × Json) → Nat
  | [] => 0
  | (_, x) :: ms => max (depth x) (depthMembers ms)

end

/-- A string. -/
def string? : Json → Option String
  | .str s => some s
  | _ => none

/-- A truth value. -/
def bool? : Json → Option Bool
  | .bool b => some b
  | _ => none

/-- A count of at most 64 bits. -/
def count? : Json → Option Nat
  | .num n => n.count?
  | _ => none

/-- A string, or nothing for `null`. -/
def nullable? : Json → Option (Option String)
  | .null => some none
  | .str s => some (some s)
  | _ => none

/-- The values of a list. -/
def decodeAll? {α : Type} (decode : Json → Option α) : List Json → Option (List α)
  | [] => some []
  | x :: xs => do
    let x ← decode x
    let xs ← decodeAll? decode xs
    return x :: xs

/-- An array of values. -/
def list? {α : Type} (decode : Json → Option α) : Json → Option (List α)
  | .arr xs => decodeAll? decode xs
  | _ => none

/-- The fields of a record by name. -/
abbrev Fields := List (String × Json)

/-- The fields of a record with the given field names. -/
def record? (names : List String) : Json → Option Fields
  | .obj ms => some ms
  | .arr xs => if xs.length ≤ names.length then some (names.zip xs) else none
  | _ => none

/-- Where a value lies. -/
inductive Position where
  /-- Inside no tagged record. -/
  | outside
  /-- Inside a tagged record. -/
  | inside
deriving DecidableEq, Repr

/-- The variant that a value gives, out of those named. -/
def variant? (position : Position) (variants : List String) : Json → Option String
  | .str s => if variants.contains s then some s else none
  | j =>
    match position with
    | .outside => none
    | .inside => j.count?.bind fun n => variants[n]?

/-- The variant of a tagged record, and what is left without it. -/
def tagged? (position : Position) (tag : String) (variants : List String) :
    Json → Option (String × Json)
  | .obj ms => do
    let variant ← (← ms.lookup tag).variant? position variants
    return (variant, .obj (ms.filter fun m => m.1 != tag))
  | .arr (x :: xs) => (x.variant? position variants).map fun variant => (variant, .arr xs)
  | _ => none

/-- A field that has to be there. -/
def Fields.required? {α : Type} (fs : Fields) (name : String) (decode : Json → Option α) :
    Option α :=
  (fs.lookup name).bind decode

/-- A field that may be left out. -/
def Fields.withDefault? {α : Type} (fs : Fields) (name : String) (value : α)
    (decode : Json → Option α) : Option α :=
  match fs.lookup name with
  | some j => decode j
  | none => some value

/-- A variant without contents: its name, or an object with its name and nothing in it. -/
def unitVariant? : Json → Option String
  | .str s => some s
  | .obj [(s, .null)] => some s
  | .obj [(s, .obj [])] => some s
  | _ => none

end Scaffold.Json
