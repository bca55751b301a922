/-
**Signatures in generated code.**

Main definitions:

* `Scaffold.Parameter.render`, `Scaffold.Method.render`, `Scaffold.Initializer.render` — members as
  they are declared;
* `Scaffold.storageKeys` — names for the stored properties that belong to methods.
-/

import Scaffold.Declaration.Basic
import Scaffold.Text.Case
import Scaffold.TypeRef.Printer

set_option relaxedAutoImplicit false
set_option autoImplicit false

namespace Scaffold

/-- The label and the name of a parameter; a label that equals the name is written once. -/
def Parameter.binding (p : Parameter) : String :=
  match p.label with
  | none => "_ " ++ p.name
  | some label => if label = p.name then p.name else label ++ " " ++ p.name

/-- A parameter as it is declared. -/
def Parameter.render (p : Parameter) : String :=
  p.binding ++ ": " ++ (if p.isInout then "inout " else "") ++ p.type.render ++
    match p.default with
    | some value => " = " ++ value
    | none => ""

/-- Parameters as they are declared. -/
def renderParameters (ps : List Parameter) : String :=
  ", ".intercalate (ps.map Parameter.render)

/-- A method as it is declared; no result is written where there is none. -/
def Method.render (m : Method) : String :=
  "func " ++ m.name ++ "(" ++ renderParameters m.params ++ ")" ++ m.effects.render ++
    (if m.returnsValue then " -> " ++ m.result.render else "")

/-- An initializer as it is declared. -/
def Initializer.render (i : Initializer) : String :=
  "init(" ++ renderParameters i.params ++ ")" ++ i.effects.render

/-! ### Storage keys -/

/-- Whether several methods have a name. -/
def isOverloaded (methods : List Method) (name : String) : Bool :=
  1 < methods.countP fun m => m.name == name

/-- The labels of a method in capitals, or its parameter names where it has no labels. -/
def Method.qualifier (m : Method) : String :=
  String.join (m.params.map fun p => Text.capitalize (p.label.getD p.name))

/-- The first choice for the key of a method: its name, with its labels if it is overloaded. -/
def plainKey (methods : List Method) (m : Method) : String :=
  if isOverloaded methods m.name then m.name ++ m.qualifier else m.name

/-- Keys from the given index on; one that is taken gets the number of its place behind it. -/
def numberKeys : (index : Nat) → (taken : List String) → List String → List String
  | _, _, [] => []
  | index, taken, k :: ks =>
    let key := if taken.contains k then k ++ toString (index + 1) else k
    key :: numberKeys (index + 1) (key :: taken) ks

@[simp] theorem length_numberKeys (index : Nat) (taken ks : List String) :
    (numberKeys index taken ks).length = ks.length := by
  induction ks generalizing index taken with
  | nil => rfl
  | cons k ks ih => simp [numberKeys, ih]

/-- Names for the stored properties that belong to methods, one for each method. -/
def storageKeys (methods : List Method) : List String :=
  numberKeys 0 [] (methods.map (plainKey methods))

/-- There is one key for each method. -/
@[simp] theorem length_storageKeys (methods : List Method) :
    (storageKeys methods).length = methods.length := by
  simp [storageKeys]

end Scaffold
