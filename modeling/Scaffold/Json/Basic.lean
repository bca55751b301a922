/-
**JSON values.**

Main definitions:

* `Scaffold.Json` — the values; the members of an object keep their order;
* `Scaffold.Json.render`, `Scaffold.Json.pretty` — a value on one line, and spread over lines.
-/

import Scaffold.Json.Number

set_option relaxedAutoImplicit false
set_option autoImplicit false

namespace Scaffold

/-- A JSON value. -/
inductive Json where
  /-- The value `null`. -/
  | null
  /-- A truth value. -/
  | bool (b : Bool)
  /-- A number. -/
  | num (n : Json.Number)
  /-- A string. -/
  | str (s : String)
  /-- An array. -/
  | arr (items : List Json)
  /-- An object, whose members keep their order. -/
  | obj (members : List (String × Json))
deriving Repr

namespace Json

/-- A count as a JSON number. -/
def nat (n : Nat) : Json := .num (.integer false n)

/-- The strings of a list as an array. -/
def strs (ss : List String) : Json := .arr (ss.map .str)

/-- A string, or `null` where there is none. -/
def str? (s : Option String) : Json :=
  match s with
  | some s => .str s
  | none => .null

/-- The member of an object under a key. -/
def get? (j : Json) (key : String) : Option Json :=
  match j with
  | .obj ms => ms.lookup key
  | _ => none

/-- A hexadecimal digit. -/
def hexDigit (n : Nat) : Char :=
  if n < 10 then Char.ofNat (48 + n) else Char.ofNat (87 + n)

/-- A character as it is written inside a JSON string. -/
def escapeChar (c : Char) : List Char :=
  if c = '\x22' then ['\\', '\x22']
  else if c = '\\' then ['\\', '\\']
  else if c = '\n' then ['\\', 'n']
  else if c = '\r' then ['\\', 'r']
  else if c = '\t' then ['\\', 't']
  else if c.toNat = 8 then ['\\', 'b']
  else if c.toNat = 12 then ['\\', 'f']
  else if c.toNat < 32 then
    ['\\', 'u', '0', '0', hexDigit (c.toNat / 16), hexDigit (c.toNat % 16)]
  else [c]

/-- A string in quotes. -/
def quote (s : String) : String :=
  String.ofList ('\x22' :: (s.toList.flatMap escapeChar ++ ['\x22']))

/-- Texts between brackets, with commas between them. -/
def enclose (opening closing : String) (texts : List String) : String :=
  opening ++ ",".intercalate texts ++ closing

mutual

/-- A value on one line, without blanks. -/
def render : Json → String
  | .null => "null"
  | .bool b => if b then "true" else "false"
  | .num n => n.render
  | .str s => quote s
  | .arr xs => enclose "[" "]" (renderItems xs)
  | .obj ms => enclose "\x7b" "\x7d" (renderMembers ms)

/-- Items, each on its own. -/
def renderItems : List Json → List String
  | [] => []
  | x :: xs => render x :: renderItems xs

/-- Members, each on its own. -/
def renderMembers : List (String × Json) → List String
  | [] => []
  | (k, x) :: ms => (quote k ++ ":" ++ render x) :: renderMembers ms

end

/-- A line break with two blanks for each level of nesting. -/
def lineBreak (level : Nat) : String :=
  "\n" ++ String.join (List.replicate level "  ")

/-- Texts between brackets inside `level` others, each on a line of its own. -/
def encloseLines (level : Nat) (opening closing : String) (texts : List String) : String :=
  if texts.isEmpty then opening ++ closing
  else enclose opening (lineBreak level ++ closing) (texts.map (lineBreak (level + 1) ++ ·))

mutual

/-- A value spread over lines, inside `level` others. -/
def prettyAt (level : Nat) : Json → String
  | .null => "null"
  | .bool b => if b then "true" else "false"
  | .num n => n.render
  | .str s => quote s
  | .arr xs => encloseLines level "[" "]" (prettyItems (level + 1) xs)
  | .obj ms => encloseLines level "\x7b" "\x7d" (prettyMembers (level + 1) ms)

/-- Items spread over lines, each on its own. -/
def prettyItems (level : Nat) : List Json → List String
  | [] => []
  | x :: xs => prettyAt level x :: prettyItems level xs

/-- Members spread over lines, each on its own. -/
def prettyMembers (level : Nat) : List (String × Json) → List String
  | [] => []
  | (k, x) :: ms => (quote k ++ ": " ++ prettyAt level x) :: prettyMembers level ms

end

/-- A value spread over lines, with two blanks for each level of nesting. -/
def pretty (j : Json) : String := prettyAt 0 j

end Json

end Scaffold
