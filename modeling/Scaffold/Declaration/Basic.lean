/-
**Declarations.**

A declaration is a contract (a protocol), a value type (a struct, class or actor) or an
enumeration, with the members that generated code depends on.

Main definitions:

* `Scaffold.ValueForm`, `Scaffold.Form` — the keywords that open declarations;
* `Scaffold.Parameter`, `Scaffold.Method`, `Scaffold.Initializer`, `Scaffold.Field` — members;
* `Scaffold.Contract`, `Scaffold.ValueType`, `Scaffold.Enumeration`, `Scaffold.Declaration` — the
  declarations;
* `Scaffold.Entry` — a declaration with the markers written above it;
* `Scaffold.Declaration.mentionedNames` — the names that a declaration depends on.
-/

import Scaffold.Text.Affix
import Scaffold.TypeRef.Basic

set_option relaxedAutoImplicit false
set_option autoImplicit false

namespace Scaffold

/-! ### Forms -/

/-- The forms of value types. -/
inductive ValueForm where
  /-- A `struct`. -/
  | struct
  /-- A `class`. -/
  | classForm
  /-- An `actor`. -/
  | actor
deriving DecidableEq, Repr, Inhabited

/-- The keyword of a form of value type. -/
def ValueForm.keyword : ValueForm → String
  | .struct => "struct"
  | .classForm => "class"
  | .actor => "actor"

/-- The forms of declarations. -/
inductive Form where
  /-- A `protocol`. -/
  | contract
  /-- A `struct`, `class` or `actor`. -/
  | value (form : ValueForm)
  /-- An `enum`. -/
  | enumeration
deriving DecidableEq, Repr, Inhabited

/-- The keyword that opens a declaration of a form. -/
def Form.keyword : Form → String
  | .contract => "protocol"
  | .value form => form.keyword
  | .enumeration => "enum"

/-- The forms, in the order of their keywords' description. -/
def Form.all : List Form :=
  [.contract, .value .struct, .value .classForm, .value .actor, .enumeration]

/-- The form that a word opens, if it opens one. -/
def Form.ofKeyword? (word : String) : Option Form :=
  Form.all.find? fun form => form.keyword == word

/-! ### Members -/

/-- A parameter of a method or an initializer. -/
structure Parameter where
  /-- The label that callers write, if they write one. -/
  label : Option String
  /-- The name inside the body. -/
  name : String
  /-- The type. -/
  type : TypeRef
  /-- The default value, as it is written. -/
  default : Option String := none
  /-- Whether the argument is passed back. -/
  isInout : Bool := false
deriving DecidableEq, Repr, Inhabited

/-- A method signature. -/
structure Method where
  /-- The name. -/
  name : String
  /-- The parameters. -/
  params : List Parameter
  /-- What calling it may involve. -/
  effects : Effects
  /-- The type of the result. -/
  result : TypeRef
deriving DecidableEq, Repr, Inhabited

/-- An initializer signature. -/
structure Initializer where
  /-- The parameters. -/
  params : List Parameter
  /-- What calling it may involve. -/
  effects : Effects
deriving DecidableEq, Repr, Inhabited

/-- A stored property. -/
structure Field where
  /-- The name. -/
  name : String
  /-- The type. -/
  type : TypeRef
  /-- The default value, as it is written. -/
  default : Option String := none
  /-- Whether it can be assigned after initialization. -/
  isMutable : Bool := false
deriving DecidableEq, Repr, Inhabited

/-- The part of a selector that parameters contribute. -/
def labelText (params : List Parameter) : String :=
  String.join (params.map fun p => p.label.getD "_" ++ ":")

/-- The selector of a method, such as `load(from:)`. -/
def Method.selector (m : Method) : String :=
  m.name ++ "(" ++ labelText m.params ++ ")"

/-- Whether a method has a result. -/
def Method.returnsValue (m : Method) : Bool := !m.result.isVoid

/-- The selector of an initializer, such as `init(id:)`. -/
def Initializer.selector (i : Initializer) : String :=
  "init(" ++ labelText i.params ++ ")"

/-! ### Declarations -/

/-- The members of a protocol. -/
structure Contract where
  /-- The required methods. -/
  methods : List Method := []
  /-- The required initializers. -/
  initializers : List Initializer := []
  /-- The protocols it refines, as they are written. -/
  inherits : List String := []
deriving DecidableEq, Repr, Inhabited

/-- The members of a struct, class or actor. -/
structure ValueType where
  /-- Which of the three it is. -/
  form : ValueForm
  /-- The stored properties. -/
  fields : List Field := []
  /-- The methods. -/
  methods : List Method := []
  /-- The initializers. -/
  initializers : List Initializer := []
  /-- The conformances, as they are written. -/
  conformances : List String := []
deriving DecidableEq, Repr, Inhabited

/-- The first field of a given name. -/
def ValueType.field? (v : ValueType) (name : String) : Option Field :=
  v.fields.find? fun f => f.name == name

/-- The members of an enumeration. -/
structure Enumeration where
  /-- The names of the cases. -/
  cases : List String := []
  /-- Whether some case carries values. -/
  hasAssociatedValues : Bool := false
  /-- The conformances, as they are written. -/
  conformances : List String := []
deriving DecidableEq, Repr, Inhabited

/-- What a declaration declares. -/
inductive Shape where
  /-- A protocol. -/
  | contract (c : Contract)
  /-- A struct, class or actor. -/
  | value (v : ValueType)
  /-- An enumeration. -/
  | enumeration (e : Enumeration)
deriving DecidableEq, Repr, Inhabited

/-- A declaration found in a source unit. -/
structure Declaration where
  /-- The name; nested declarations have dotted names. -/
  name : String
  /-- The name of the declaration around it. -/
  parent : Option String := none
  /-- The name of the source unit. -/
  unit : String := ""
  /-- The place among all declarations. -/
  position : Nat := 0
  /-- The line of its keyword. -/
  line : Nat := 0
  /-- What it declares. -/
  shape : Shape
deriving DecidableEq, Repr, Inhabited

/-- A declaration with the markers written above it. -/
structure Entry where
  /-- The declaration. -/
  declaration : Declaration
  /-- The markers, as they are written. -/
  markers : List String
deriving DecidableEq, Repr, Inhabited

namespace Declaration

/-- The last part of a dotted name. -/
def simpleName (d : Declaration) : String := Text.lastSegment d.name

/-- The form of a declaration. -/
def form (d : Declaration) : Form :=
  match d.shape with
  | .contract _ => .contract
  | .value v => .value v.form
  | .enumeration _ => .enumeration

/-- The contract that a declaration is, if it is one. -/
def contract? (d : Declaration) : Option Contract :=
  match d.shape with
  | .contract c => some c
  | _ => none

/-- The value type that a declaration is, if it is one. -/
def value? (d : Declaration) : Option ValueType :=
  match d.shape with
  | .value v => some v
  | _ => none

/-- The enumeration that a declaration is, if it is one. -/
def enumeration? (d : Declaration) : Option Enumeration :=
  match d.shape with
  | .enumeration e => some e
  | _ => none

/-- The protocols that a declaration refines or conforms to. -/
def conformances (d : Declaration) : List String :=
  match d.shape with
  | .contract c => c.inherits
  | .value v => v.conformances
  | .enumeration e => e.conformances

/-- The names in the types of parameters. -/
def parameterMentions (params : List Parameter) : List String :=
  params.flatMap fun p => p.type.mentions

/-- The names in method signatures. -/
def methodMentions (methods : List Method) : List String :=
  methods.flatMap fun m => parameterMentions m.params ++ m.result.mentions

/-- The names in initializer signatures. -/
def initializerMentions (inits : List Initializer) : List String :=
  inits.flatMap fun i => parameterMentions i.params

/-- The names in the member signatures of a declaration. -/
def memberMentions (d : Declaration) : List String :=
  match d.shape with
  | .contract c => methodMentions c.methods ++ initializerMentions c.initializers
  | .value v =>
    methodMentions v.methods ++ initializerMentions v.initializers ++
      v.fields.flatMap fun f => f.type.mentions
  | .enumeration _ => []

/-- The names in the conformances and member signatures of a declaration. -/
def mentionedNames (d : Declaration) : NameSet :=
  NameSet.ofList (d.conformances ++ d.memberMentions)

end Declaration

end Scaffold
