/-
**Why a declaration cannot be read.**

Main definitions:

* `Scaffold.describe` — the next token as a message calls it;
* `Scaffold.Requirement` — the members that a protocol may not require;
* `Scaffold.Reason`, `Scaffold.Reason.message` — the reasons and their wording.
-/

import Scaffold.Declaration.Basic
import Scaffold.Token.Basic

set_option relaxedAutoImplicit false
set_option autoImplicit false

namespace Scaffold

/-- The next token as a message calls it. -/
def describe : Option TokenKind → String
  | none => "end of body"
  | some (.word w) => "`" ++ w ++ "`"
  | some (.mark c) => "`" ++ String.ofList [c] ++ "`"
  | some .arrow => "`->`"
  | some (.comment _) => "comment"
  | some .literal => "string literal"
  | some .number => "number"

/-- The members that a protocol may not require. -/
inductive Requirement where
  /-- A property. -/
  | property
  /-- An associated type. -/
  | associatedType
  /-- A subscript. -/
  | subscript
  /-- A static member. -/
  | static
  /-- A mutating method. -/
  | mutating
  /-- A type alias. -/
  | typeAlias
  /-- A word that opens no known member. -/
  | unknown
deriving DecidableEq, Repr

/-- The kind of member that a word opens. -/
def Requirement.ofWord (word : String) : Requirement :=
  if word = "var" ∨ word = "let" then .property
  else if word = "associatedtype" then .associatedType
  else if word = "subscript" then .subscript
  else if word = "static" ∨ word = "class" then .static
  else if word = "mutating" ∨ word = "nonmutating" then .mutating
  else if word = "typealias" then .typeAlias
  else .unknown

/-- Why a declaration, a member or a type cannot be read. -/
inductive Reason where
  /-- The source has no tokens. -/
  | unclosed (e : LexError)
  /-- A punctuation mark is missing. -/
  | expectedMark (mark : Char) (found : Option TokenKind)
  /-- A name is missing; `role` says what for. -/
  | expectedName (role : String) (found : Option TokenKind)
  /-- A type is missing. -/
  | expectedType (found : Option TokenKind)
  /-- Something follows a complete type. -/
  | trailing (found : Option TokenKind)
  /-- Types are nested too deeply. -/
  | typeNesting
  /-- Declarations are nested too deeply. -/
  | declarationNesting
  /-- An attribute stands before a type that is no function. -/
  | attributePlace (name : String)
  /-- An opaque type. -/
  | opaqueType
  /-- Effects without an arrow. -/
  | expectedArrow
  /-- A tuple. -/
  | tuple
  /-- A member that rethrows. -/
  | rethrowing
  /-- An equals sign without a value. -/
  | expectedDefault
  /-- A declaration with generic parameters. -/
  | genericDeclaration
  /-- A colon or comma without a conformance. -/
  | expectedConformance
  /-- A where clause on a declaration. -/
  | whereClause
  /-- A body that is not closed. -/
  | unbalancedBraces
  /-- A token that can open no member. -/
  | unexpectedMember (found : Option TokenKind) (form : Form)
  /-- A member that a protocol may not require. -/
  | requirement (r : Requirement)
  /-- A word that opens no member of a concrete type. -/
  | unclassified
  /-- A method with generic parameters. -/
  | genericMethod
  /-- An initializer that may fail. -/
  | failableInitializer
  /-- An initializer with generic parameters. -/
  | genericInitializer
  /-- A parameter that takes any number of arguments. -/
  | variadic (parameter : String)
  /-- Several properties in one declaration. -/
  | multipleBindings
  /-- A property without a type. -/
  | untypedProperty
  /-- A name that is taken; the first declaration is given by its unit and line. -/
  | duplicate (unit : String) (line : Nat)
deriving DecidableEq, Repr

/-- The wording of a member that a protocol may not require. -/
def Requirement.message : Requirement → String
  | .property => "property requirements are not supported"
  | .associatedType => "associated types are not supported"
  | .subscript => "subscript requirements are not supported"
  | .static => "static requirements are not supported"
  | .mutating => "mutating requirements are not supported"
  | .typeAlias => "type aliases in protocols are not supported"
  | .unknown => "cannot classify member"

/-- The wording of a reason. -/
def Reason.message : Reason → String
  | .unclosed e => e.message
  | .expectedMark mark found =>
    "expected `" ++ String.ofList [mark] ++ "`, found " ++ describe found
  | .expectedName role found => "expected " ++ role ++ " name, found " ++ describe found
  | .expectedType found => "expected type, found " ++ describe found
  | .trailing found => "unexpected " ++ describe found ++ " after type"
  | .typeNesting => "type nesting too deep"
  | .declarationNesting => "declaration nesting too deep"
  | .attributePlace name => "@" ++ name ++ " only applies to function types"
  | .opaqueType => "opaque `some` types are not supported"
  | .expectedArrow => "expected `->` in function type"
  | .tuple => "tuple types are not supported"
  | .rethrowing => "rethrowing members are not supported"
  | .expectedDefault => "expected default value"
  | .genericDeclaration => "generic declarations are not supported"
  | .expectedConformance => "expected conformance name"
  | .whereClause => "generic where clauses are not supported"
  | .unbalancedBraces => "unbalanced braces"
  | .unexpectedMember found form =>
    "unexpected " ++ describe found ++ " in " ++ form.keyword ++ " body"
  | .requirement r => r.message
  | .unclassified => "cannot classify member"
  | .genericMethod => "generic methods are not supported"
  | .failableInitializer => "failable initializers are not supported"
  | .genericInitializer => "generic initializers are not supported"
  | .variadic parameter => "variadic parameter `" ++ parameter ++ "` is not supported"
  | .multipleBindings => "multiple bindings in one declaration are not supported"
  | .untypedProperty => "stored properties need an explicit type annotation"
  | .duplicate unit line =>
    "duplicate declaration (first declared in `" ++ unit ++ "` at line " ++ toString line ++ ")"

end Scaffold
