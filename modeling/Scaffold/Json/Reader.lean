/-
**Reading JSON.**

A text is first read as it is written: keys may repeat, numbers may be out of range, and a string
may hold escapes that spell no text, namely halves of surrogate pairs.  Which of these matter is
left to the reader of the tree.  `Json.Tree.value?` is the strict view, in which nothing of the kind is allowed and the last
of several equal keys counts.

Main definitions:

* `Scaffold.Json.Tree` — a text as it is written;
* `Scaffold.Json.Tree.read?` — the tree of a text, if it is JSON;
* `Scaffold.Json.Tree.value?` — the value of a tree;
* `Scaffold.Json.read?` — the value of a text.
-/

import Scaffold.Json.Basic

set_option relaxedAutoImplicit false
set_option autoImplicit false

namespace Scaffold.Json

/-- A JSON text as it is written.  A number that is out of range is `none`, and so is a string
whose escapes spell no text. -/
inductive Tree where
  /-- The word `null`. -/
  | null
  /-- The word `true` or `false`. -/
  | bool (b : Bool)
  /-- A number. -/
  | num (n : Option Number)
  /-- A string. -/
  | str (s : Option String)
  /-- An array. -/
  | arr (items : List Tree)
  /-- An object, repeated keys included. -/
  | obj (members : List (Option String × Tree))
deriving Repr

namespace Tree

/-! ### Words of the notation -/

/-- The blanks of JSON. -/
def isSpace (c : Char) : Bool :=
  c == ' ' || c == '\t' || c == '\n' || c == '\r'

/-- The text behind blanks. -/
def skipSpaces (cs : List Char) : List Char :=
  cs.dropWhile isSpace

/-- The value of a hexadecimal digit. -/
def hexValue? (c : Char) : Option Nat :=
  if c.isDigit then some (c.toNat - 48)
  else if 'a' ≤ c ∧ c ≤ 'f' then some (c.toNat - 87)
  else if 'A' ≤ c ∧ c ≤ 'F' then some (c.toNat - 55)
  else none

/-- Four hexadecimal digits as a number. -/
def hex4? (a b c d : Char) : Option Nat := do
  let a ← hexValue? a
  let b ← hexValue? b
  let c ← hexValue? c
  let d ← hexValue? d
  return ((a * 16 + b) * 16 + c) * 16 + d

/-- What a string literal is made of. -/
inductive Unit where
  /-- A character. -/
  | char (c : Char)
  /-- A sixteen-bit unit given by an escape. -/
  | code (n : Nat)

/-- The character of a letter escape. -/
def letterEscape? (c : Char) : Option Char :=
  if c = '\x22' ∨ c = '\\' ∨ c = '/' then some c
  else if c = 'b' then some (Char.ofNat 8)
  else if c = 'f' then some (Char.ofNat 12)
  else if c = 'n' then some '\n'
  else if c = 'r' then some '\r'
  else if c = 't' then some '\t'
  else none

/-- The units of a string up to its closing quote, and the text behind it. -/
def units? : List Char → Option (List Unit × List Char)
  | [] => none
  | '\x22' :: rest => some ([], rest)
  | '\\' :: 'u' :: a :: b :: c :: d :: rest => do
    let n ← hex4? a b c d
    let (us, rest) ← units? rest
    return (.code n :: us, rest)
  | '\\' :: c :: rest => do
    let e ← letterEscape? c
    let (us, rest) ← units? rest
    return (.char e :: us, rest)
  | c :: rest =>
    if c.toNat < 32 then none
    else do
      let (us, rest) ← units? rest
      return (.char c :: us, rest)

/-- The text that units spell; the halves of a surrogate pair must stand together. -/
def spell? : List Unit → Option (List Char)
  | [] => some []
  | .char c :: us => (spell? us).map (c :: ·)
  | .code n :: .code m :: us =>
    if 0xd800 ≤ n ∧ n < 0xdc00 then
      if 0xdc00 ≤ m ∧ m < 0xe000 then
        (spell? us).map (Char.ofNat (0x10000 + (n - 0xd800) * 0x400 + (m - 0xdc00)) :: ·)
      else none
    else if 0xdc00 ≤ n ∧ n < 0xe000 then none
    else (spell? (.code m :: us)).map (Char.ofNat n :: ·)
  | .code n :: us =>
    if 0xd800 ≤ n ∧ n < 0xe000 then none else (spell? us).map (Char.ofNat n :: ·)

/-- The string whose opening quote is taken, and the text behind it. -/
def string? (cs : List Char) : Option (Option String × List Char) := do
  let (us, rest) ← units? cs
  return ((spell? us).map String.ofList, rest)

/-- The digits of a fraction behind a point, if there is a point. -/
def fraction? (cs : List Char) : Option (Option (List Char) × List Char) :=
  match cs with
  | '.' :: rest =>
    let ds := rest.takeWhile Char.isDigit
    if ds.isEmpty then none else some (some ds, rest.dropWhile Char.isDigit)
  | _ => some (none, cs)

/-- The exponent behind an `e`, if there is one. -/
def exponent? (cs : List Char) : Option (Option Int × List Char) :=
  match cs with
  | c :: rest =>
    if c = 'e' ∨ c = 'E' then
      let (negative, rest) := match rest with
        | '+' :: r => (false, r)
        | '-' :: r => (true, r)
        | r => (false, r)
      let ds := rest.takeWhile Char.isDigit
      if ds.isEmpty then none
      else
        let n := Int.ofNat (digitsValue ds)
        some (some (if negative then -n else n), rest.dropWhile Char.isDigit)
    else some (none, cs)
  | [] => some (none, cs)

/-- The number that a sign, digits before and behind the point and an exponent make up. -/
def numberOf (negative : Bool) (whole : List Char) (fraction : Option (List Char))
    (exponent : Option Int) : Number :=
  match fraction, exponent with
  | none, none => .integer negative (digitsValue whole)
  | _, _ =>
    let fraction := fraction.getD []
    .decimal negative (digitsValue (whole ++ fraction))
      (exponent.getD 0 - Int.ofNat fraction.length)

/-- The number at the front, if it is in range, and the text behind it.  A leading zero stands
alone. -/
def number? (cs : List Char) : Option (Option Number × List Char) := do
  let (negative, cs) := match cs with
    | '-' :: r => (true, r)
    | r => (false, r)
  let whole := cs.takeWhile Char.isDigit
  if whole.isEmpty ∨ (whole.head? = some '0' ∧ 1 < whole.length) then none
  else
    let (fraction, rest) ← fraction? (cs.dropWhile Char.isDigit)
    let (exponent, rest) ← exponent? rest
    if digitsInRange whole (fraction.getD []) (exponent.getD 0) then
      return (some (numberOf negative whole fraction exponent), rest)
    else return (none, rest)

/-! ### Values -/

mutual

/-- The value at the front, and the text behind it. -/
def value? : Nat → List Char → Option (Tree × List Char)
  | 0, _ => none
  | fuel + 1, cs =>
    match skipSpaces cs with
    | 'n' :: 'u' :: 'l' :: 'l' :: rest => some (.null, rest)
    | 't' :: 'r' :: 'u' :: 'e' :: rest => some (.bool true, rest)
    | 'f' :: 'a' :: 'l' :: 's' :: 'e' :: rest => some (.bool false, rest)
    | '\x22' :: rest => (string? rest).map fun (s, r) => (.str s, r)
    | '[' :: rest =>
      match skipSpaces rest with
      | ']' :: r => some (.arr [], r)
      | r => (items? fuel r).map fun (xs, r) => (.arr xs, r)
    | '{' :: rest =>
      match skipSpaces rest with
      | '}' :: r => some (.obj [], r)
      | r => (members? fuel r).map fun (ms, r) => (.obj ms, r)
    | r => (number? r).map fun (n, r) => (.num n, r)

/-- The items of an array up to its closing bracket. -/
def items? : Nat → List Char → Option (List Tree × List Char)
  | 0, _ => none
  | fuel + 1, cs => do
    let (x, rest) ← value? fuel cs
    match skipSpaces rest with
    | ',' :: rest =>
      let (xs, rest) ← items? fuel rest
      return (x :: xs, rest)
    | ']' :: rest => return ([x], rest)
    | _ => none

/-- The members of an object up to its closing brace. -/
def members? : Nat → List Char → Option (List (Option String × Tree) × List Char)
  | 0, _ => none
  | fuel + 1, cs =>
    match skipSpaces cs with
    | '\x22' :: rest => do
      let (key, rest) ← string? rest
      match skipSpaces rest with
      | ':' :: rest =>
        let (x, rest) ← value? fuel rest
        match skipSpaces rest with
        | ',' :: rest =>
          let (ms, rest) ← members? fuel rest
          return ((key, x) :: ms, rest)
        | '}' :: rest => return ([(key, x)], rest)
        | _ => none
      | _ => none
    | _ => none

end

/-- The tree of a text: one value with nothing but blanks around it.  Every step of the reading
takes a character or enters a list, so twice the length of the text bounds the steps. -/
def read? (s : String) : Option Tree := do
  let cs := s.toList
  let (t, rest) ← value? (2 * cs.length + 2) cs
  if (skipSpaces rest).isEmpty then some t else none

mutual

/-- Whether all numbers in a tree are in range. -/
def isInRange : Tree → Bool
  | .num n => n.isSome
  | .arr xs => itemsInRange xs
  | .obj ms => membersInRange ms
  | _ => true

/-- Whether all numbers in items are in range. -/
def itemsInRange : List Tree → Bool
  | [] => true
  | x :: xs => isInRange x && itemsInRange xs

/-- Whether all numbers in members are in range. -/
def membersInRange : List (Option String × Tree) → Bool
  | [] => true
  | (_, x) :: ms => isInRange x && membersInRange ms

end

/-! ### The strict view -/

/-- How deeply values may be nested in the strict view. -/
def maxDepth : Nat := 127

/-- Members in which the last of several equal keys counts, each at the place of the first. -/
def lastWins (ms : List (String × Json)) : List (String × Json) :=
  ms.foldl (fun acc m =>
    if acc.any (·.1 == m.1) then acc.map fun a => if a.1 == m.1 then m else a
    else acc ++ [m]) []

mutual

/-- The value of a tree with room for `room` levels of nesting. -/
def valueWithin? (room : Nat) : Tree → Option Json
  | .null => some .null
  | .bool b => some (.bool b)
  | .num n => n.map .num
  | .str s => s.map .str
  | .arr xs => if room = 0 then none else (itemsWithin? (room - 1) xs).map .arr
  | .obj ms =>
    if room = 0 then none else (membersWithin? (room - 1) ms).map fun ms => .obj (lastWins ms)

/-- The values of the items of an array. -/
def itemsWithin? (room : Nat) : List Tree → Option (List Json)
  | [] => some []
  | x :: xs => do
    let x ← valueWithin? room x
    let xs ← itemsWithin? room xs
    return x :: xs

/-- The values of the members of an object. -/
def membersWithin? (room : Nat) : List (Option String × Tree) → Option (List (String × Json))
  | [] => some []
  | (k, x) :: ms => do
    let k ← k
    let x ← valueWithin? room x
    let ms ← membersWithin? room ms
    return (k, x) :: ms

end

mutual

/-- A value as it would be written. -/
def ofValue : Json → Tree
  | .null => .null
  | .bool b => .bool b
  | .num n => .num (some n)
  | .str s => .str (some s)
  | .arr xs => .arr (ofItems xs)
  | .obj ms => .obj (ofMembers ms)

/-- The items of an array as they would be written. -/
def ofItems : List Json → List Tree
  | [] => []
  | x :: xs => ofValue x :: ofItems xs

/-- The members of an object as they would be written. -/
def ofMembers : List (String × Json) → List (Option String × Tree)
  | [] => []
  | (k, x) :: ms => (some k, ofValue x) :: ofMembers ms

end

end Tree

/-- The value of a JSON text, if it is one and nests at most `Tree.maxDepth` deep. -/
def read? (s : String) : Option Json :=
  (Tree.read? s).bind (Tree.valueWithin? Tree.maxDepth)

end Scaffold.Json
