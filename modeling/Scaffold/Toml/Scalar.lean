/-
**Words of TOML.**

Numbers, truth values, dates and strings, each as the text of TOML 1.1 spells them.

Main definitions:

* `Scaffold.Toml.scalar?` — the value of a word without quotes;
* `Scaffold.Toml.quoted?` — a string in any of the four kinds of quotes;
* `Scaffold.Toml.key?` — one part of a dotted key.
-/

import Scaffold.Toml.Basic

set_option relaxedAutoImplicit false
set_option autoImplicit false

namespace Scaffold.Toml

/-! ### Numbers -/

/-- The digits of a number, between any two of which an underscore may stand. -/
def digits? (isDigit : Char → Bool) : List Char → Option (List Char)
  | [] => none
  | [d] => if isDigit d then some [d] else none
  | d :: '_' :: ds => if isDigit d then (digits? isDigit ds).map (d :: ·) else none
  | d :: ds => if isDigit d then (digits? isDigit ds).map (d :: ·) else none

/-- The number that digits spell in a base. -/
def digitsIn (base : Nat) (ds : List Char) : Nat :=
  ds.foldl (fun n d => n * base + (Json.Tree.hexValue? d).getD 0) 0

/-- The digits of a decimal integer, which has no zero in front. -/
def wholeDigits? (cs : List Char) : Option (List Char) :=
  match digits? Char.isDigit cs with
  | some ['0'] => some ['0']
  | some ('0' :: _) => none
  | ds => ds

/-- A sign and what stands behind it. -/
def sign (cs : List Char) : Bool × List Char :=
  match cs with
  | '+' :: rest => (false, rest)
  | '-' :: rest => (true, rest)
  | rest => (false, rest)

/-- Gives a number its sign. -/
def signed (negative : Bool) (n : Nat) : Int := if negative then -(Int.ofNat n) else Int.ofNat n

/-- An integer, in base ten with a sign or in another base behind a prefix. -/
def integer? (cs : List Char) : Option Int :=
  match cs with
  | '0' :: 'x' :: ds => (digits? (fun c => (Json.Tree.hexValue? c).isSome) ds).map
      fun ds => Int.ofNat (digitsIn 16 ds)
  | '0' :: 'o' :: ds => (digits? (fun c => '0' ≤ c && c ≤ '7') ds).map
      fun ds => Int.ofNat (digitsIn 8 ds)
  | '0' :: 'b' :: ds => (digits? (fun c => c == '0' || c == '1') ds).map
      fun ds => Int.ofNat (digitsIn 2 ds)
  | cs =>
    let (negative, rest) := sign cs
    (wholeDigits? rest).map fun ds => signed negative (digitsIn 10 ds)

/-- An exponent behind its letter. -/
def exponent? (cs : List Char) : Option Int :=
  let (negative, rest) := sign cs
  (digits? Char.isDigit rest).map fun ds => signed negative (digitsIn 10 ds)

/-- Whether a character marks an exponent. -/
def isExponentMark (c : Char) : Bool := c == 'e' || c == 'E'

/-- A decimal number with a fraction, an exponent, or both, behind its sign. -/
def decimal? (negative : Bool) (cs : List Char) : Option Json.Number := do
  let mantissa := cs.takeWhile fun c => !isExponentMark c
  let exponent ← match cs.dropWhile fun c => !isExponentMark c with
    | [] => some 0
    | _ :: rest => exponent? rest
  let whole ← wholeDigits? (mantissa.takeWhile (· != '.'))
  match mantissa.dropWhile (· != '.') with
  | [] =>
    if mantissa.length = cs.length then none
    else return .decimal negative (digitsIn 10 whole) exponent
  | _ :: fraction =>
    let fraction ← digits? Char.isDigit fraction
    return .decimal negative (digitsIn 10 (whole ++ fraction))
      (exponent - Int.ofNat fraction.length)

/-- A number that is not an integer. -/
def float? (cs : List Char) : Option (Option Json.Number) :=
  let (negative, rest) := sign cs
  if rest = ['i', 'n', 'f'] ∨ rest = ['n', 'a', 'n'] then some none
  else (decimal? negative rest).map some

/-! ### Dates -/

/-- The number that two digits spell, if it is between two bounds. -/
def twoDigits? (lo hi : Nat) (a b : Char) : Option Nat :=
  if a.isDigit && b.isDigit then
    let n := digitsIn 10 [a, b]
    if lo ≤ n ∧ n ≤ hi then some n else none
  else none

/-- The days of a month. -/
def daysIn (year month : Nat) : Nat :=
  if month = 2 then
    if (year % 4 = 0 ∧ year % 100 ≠ 0) ∨ year % 400 = 0 then 29 else 28
  else if [4, 6, 9, 11].contains month then 30
  else 31

/-- A calendar date at the front, and what stands behind it. -/
def calendarDate? (cs : List Char) : Option (String × List Char) :=
  match cs with
  | y1 :: y2 :: y3 :: y4 :: '-' :: m1 :: m2 :: '-' :: d1 :: d2 :: rest => do
    if [y1, y2, y3, y4].all Char.isDigit then
      let month ← twoDigits? 1 12 m1 m2
      let _ ← twoDigits? 1 (daysIn (digitsIn 10 [y1, y2, y3, y4]) month) d1 d2
      return (String.ofList [y1, y2, y3, y4, '-', m1, m2, '-', d1, d2], rest)
    else none
  | _ => none

/-- The fraction of a second without the zeros at its end, at most nine digits of it. -/
def secondFraction (ds : List Char) : String :=
  match ((ds.take 9).reverse.dropWhile (· == '0')).reverse with
  | [] => ""
  | ds => "." ++ String.ofList ds

/-- The seconds at the front with their fraction, and what stands behind them.  Where no seconds
are given they are zero. -/
def seconds? (cs : List Char) : Option (String × List Char) :=
  match cs with
  | ':' :: s1 :: s2 :: rest => do
    let _ ← twoDigits? 0 60 s1 s2
    let text := String.ofList [':', s1, s2]
    match rest with
    | '.' :: rest =>
      let ds := rest.takeWhile Char.isDigit
      if ds.isEmpty then none
      else return (text ++ secondFraction ds, rest.dropWhile Char.isDigit)
    | rest => return (text, rest)
  | ':' :: _ => none
  | rest => some (":00", rest)

/-- A time of day at the front, and what stands behind it. -/
def timeOfDay? (cs : List Char) : Option (String × List Char) :=
  match cs with
  | h1 :: h2 :: ':' :: m1 :: m2 :: rest => do
    let _ ← twoDigits? 0 23 h1 h2
    let _ ← twoDigits? 0 59 m1 m2
    let (seconds, rest) ← seconds? rest
    return (String.ofList [h1, h2, ':', m1, m2] ++ seconds, rest)
  | _ => none

/-- The offset of a time zone, which is all that is left.  No offset is positive. -/
def offset? (cs : List Char) : Option String :=
  match cs with
  | [] => some ""
  | ['Z'] => some "Z"
  | ['z'] => some "Z"
  | [s, h1, h2, ':', m1, m2] => do
    if s = '+' ∨ s = '-' then
      let hours ← twoDigits? 0 23 h1 h2
      let minutes ← twoDigits? 0 59 m1 m2
      let s := if hours = 0 ∧ minutes = 0 then '+' else s
      return String.ofList [s, h1, h2, ':', m1, m2]
    else none
  | _ => none

/-- A date, a time, or both. -/
def date? (cs : List Char) : Option String :=
  match calendarDate? cs with
  | some (day, []) => some day
  | some (day, t :: rest) => do
    if t = 'T' ∨ t = 't' ∨ t = ' ' then
      let (time, rest) ← timeOfDay? rest
      let zone ← offset? rest
      return day ++ "T" ++ time ++ zone
    else none
  | none =>
    match timeOfDay? cs with
    | some (time, []) => some time
    | _ => none

/-- The value of a word without quotes. -/
def scalar? (cs : List Char) : Option Toml :=
  if cs = ['t', 'r', 'u', 'e'] then some (.bool true)
  else if cs = ['f', 'a', 'l', 's', 'e'] then some (.bool false)
  else
    match integer? cs with
    | some n => some (.int n)
    | none =>
      match float? cs with
      | some n => some (.float n)
      | none => (date? cs).map .date

/-- The characters of words without quotes. -/
def isWordChar (c : Char) : Bool :=
  c.isAlphanum || c == '_' || c == '+' || c == '-' || c == '.' || c == ':'

/-- The word at the front, and what stands behind it.  A blank may stand between a date and a
time. -/
def word (cs : List Char) : List Char × List Char :=
  let first := cs.takeWhile isWordChar
  match cs.dropWhile isWordChar with
  | ' ' :: d :: rest =>
    if d.isDigit && (calendarDate? first).any (fun p => p.2.isEmpty) then
      (first ++ ' ' :: (d :: rest).takeWhile isWordChar, (d :: rest).dropWhile isWordChar)
    else (first, ' ' :: d :: rest)
  | rest => (first, rest)

/-! ### Strings -/

/-- Whether a character may stand in a comment or a string on one line. -/
def isPlain (c : Char) : Bool := c == '\t' || (32 ≤ c.toNat && c.toNat != 127)

/-- The character of a code point given in hexadecimal digits. -/
def codePoint? (ds : List Char) : Option Char :=
  if ds.all fun d => (Json.Tree.hexValue? d).isSome then
    let n := digitsIn 16 ds
    if n < 0xd800 ∨ (0xe000 ≤ n ∧ n < 0x110000) then some (Char.ofNat n) else none
  else none

/-- The character of a code point given in `n` hexadecimal digits, and what stands behind it. -/
def codeEscape? (n : Nat) (cs : List Char) : Option (Char × List Char) :=
  if cs.length < n then none else (codePoint? (cs.take n)).map fun c => (c, cs.drop n)

/-- The character of an escape whose backslash is taken, and what stands behind it. -/
def escape? (cs : List Char) : Option (Char × List Char) :=
  match cs with
  | 'b' :: rest => some (Char.ofNat 8, rest)
  | 't' :: rest => some ('\t', rest)
  | 'n' :: rest => some ('\n', rest)
  | 'f' :: rest => some (Char.ofNat 12, rest)
  | 'r' :: rest => some ('\r', rest)
  | '\x22' :: rest => some ('\x22', rest)
  | '\\' :: rest => some ('\\', rest)
  | 'e' :: rest => some (Char.ofNat 27, rest)
  | 'x' :: rest => codeEscape? 2 rest
  | 'u' :: rest => codeEscape? 4 rest
  | 'U' :: rest => codeEscape? 8 rest
  | _ => none

/-- A string on one line up to its closing quote; escapes count where `escapes` is set. -/
def lineString? (escapes : Bool) (quote : Char) :
    (fuel : Nat) → List Char → Option (List Char × List Char)
  | 0, _ => none
  | _, [] => none
  | fuel + 1, c :: cs =>
    if c = quote then some ([], cs)
    else if c = '\\' ∧ escapes then do
      let (e, rest) ← escape? cs
      let (text, rest) ← lineString? escapes quote fuel rest
      return (e :: text, rest)
    else if isPlain c then do
      let (text, rest) ← lineString? escapes quote fuel cs
      return (c :: text, rest)
    else none

/-- The text without the blanks and line ends at its front. -/
def skipBreaks : List Char → List Char
  | ' ' :: cs => skipBreaks cs
  | '\t' :: cs => skipBreaks cs
  | '\n' :: cs => skipBreaks cs
  | '\r' :: '\n' :: cs => skipBreaks cs
  | cs => cs

/-- The text behind a backslash that ends a line, if it does: all blanks and line ends are
passed over. -/
def lineEnd? (cs : List Char) : Option (List Char) :=
  match cs.dropWhile fun c => c == ' ' || c == '\t' with
  | '\n' :: rest => some (skipBreaks rest)
  | '\r' :: '\n' :: rest => some (skipBreaks rest)
  | _ => none

/-- A string over several lines up to its three closing quotes; escapes count where `escapes` is
set.  Of up to five quotes the last three close it. -/
def blockString? (escapes : Bool) (quote : Char) :
    (fuel : Nat) → List Char → Option (List Char × List Char)
  | 0, _ => none
  | _, [] => none
  | fuel + 1, c :: cs =>
    if c = quote ∧ cs.take 2 = [quote, quote] then
      let more := ((cs.drop 2).take 2).takeWhile (· == quote)
      some (more, (cs.drop 2).drop more.length)
    else if c = '\\' ∧ escapes then
      match lineEnd? cs with
      | some rest => blockString? escapes quote fuel rest
      | none => do
        let (e, rest) ← escape? cs
        let (text, rest) ← blockString? escapes quote fuel rest
        return (e :: text, rest)
    else if isPlain c || c == '\n' || (c == '\r' && cs.head? == some '\n') then do
      let (text, rest) ← blockString? escapes quote fuel cs
      return (c :: text, rest)
    else none

/-- The text without a line end at its front. -/
def skipLineEnd (cs : List Char) : List Char :=
  match cs with
  | '\n' :: rest => rest
  | '\r' :: '\n' :: rest => rest
  | rest => rest

/-- The string in quotes at the front, and what stands behind it. -/
def quoted? (multiline : Bool) (cs : List Char) : Option (String × List Char) :=
  let done := Option.map fun (p : List Char × List Char) => (String.ofList p.1, p.2)
  match cs with
  | q :: rest =>
    if q = '\x22' ∨ q = '\x27' then
      let escapes := q == '\x22'
      if rest.take 2 = [q, q] then
        if multiline then done (blockString? escapes q cs.length (skipLineEnd (rest.drop 2)))
        else none
      else done (lineString? escapes q cs.length rest)
    else none
  | [] => none

/-- The characters of keys without quotes. -/
def isKeyChar (c : Char) : Bool := c.isAlphanum || c == '_' || c == '-'

/-- One part of a key, with or without quotes, and what stands behind it. -/
def key? (cs : List Char) : Option (String × List Char) :=
  match cs.head? with
  | none => none
  | some c =>
    if c = '\x22' ∨ c = '\x27' then quoted? false cs
    else
      let name := cs.takeWhile isKeyChar
      if name.isEmpty then none else some (String.ofList name, cs.dropWhile isKeyChar)

end Scaffold.Toml
