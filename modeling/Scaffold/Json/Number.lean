/-
**Numbers of JSON.**

A number is kept as it is written.  Numbers beyond the range of double precision count as out of
range.  A reader of JSON finds this out from no more digits than fit into 64 bits: it rounds them
to a double, and multiplies by the double nearest to a power of ten for the digits that are left.
Near the end of the range this is not the same as asking for the exact value, which
`Json.Number.isFinite` does.

Main definitions:

* `Scaffold.Json.Number` — a number as it is written;
* `Scaffold.Json.Number.isFinite` — whether the exact value is in the range of double precision;
* `Scaffold.Json.roundDouble` — the double nearest to a whole number;
* `Scaffold.Json.digitsInRange` — whether digits and an exponent are in range for a reader.
-/

set_option relaxedAutoImplicit false
set_option autoImplicit false

namespace Scaffold

/-- A number of a JSON text: an integer, or a decimal with a point or an exponent. -/
inductive Json.Number where
  /-- An integer; a minus sign before a zero is kept. -/
  | integer (negative : Bool) (magnitude : Nat)
  /-- The number `mantissa * 10 ^ exponent`. -/
  | decimal (negative : Bool) (mantissa : Nat) (exponent : Int)
deriving DecidableEq, Repr

namespace Json

namespace Number

/-- The number as a count of at most 64 bits.  A decimal is none, and neither is minus zero. -/
def count? : Number → Option Nat
  | .integer false n => if n < Nat.pow 2 64 then some n else none
  | _ => none

/-- The number in JSON. -/
def render : Number → String
  | .integer negative n => (if negative then "-" else "") ++ toString n
  | .decimal negative m e => (if negative then "-" else "") ++ toString m ++ "e" ++ toString e

/-- The least magnitude that no longer rounds to a finite double. -/
def overflow : Nat := Nat.pow 2 1024 - Nat.pow 2 970

/-- Whether `mantissa * 10 ^ exponent` stays below `overflow`.  Only at 309 digits before the
point does it depend on more than their number. -/
def belowOverflow (mantissa : Nat) (exponent : Int) : Bool :=
  let places : Int := Int.ofNat (toString mantissa).length + exponent
  if mantissa = 0 then true
  else if places < 309 then true
  else if 309 < places then false
  else if 0 ≤ exponent then mantissa * Nat.pow 10 exponent.toNat < overflow
  else mantissa < overflow * Nat.pow 10 (-exponent).toNat

/-- Whether the exact value is in the range of double precision. -/
def isFinite : Number → Bool
  | .integer _ n => belowOverflow n 0
  | .decimal _ m e => belowOverflow m e

end Number

/-! ### Rounding -/

/-- The double nearest to a whole number, of two the one whose last bit is zero. -/
def roundDouble (n : Nat) : Nat :=
  let dropped := n.log2 + 1 - 53
  let unit := Nat.pow 2 dropped
  let quotient := n / unit
  let rest := n % unit
  if 2 * rest < unit then quotient * unit
  else if unit < 2 * rest then (quotient + 1) * unit
  else (quotient + quotient % 2) * unit

/-- Whether `significand * 10 ^ exponent` is finite when both factors are doubles. -/
def productInRange (significand : Nat) (exponent : Int) : Bool :=
  if significand = 0 ∨ exponent < 0 then true
  else if 308 < exponent then false
  else roundDouble significand * roundDouble (Nat.pow 10 exponent.toNat) < Number.overflow

/-! ### Digits -/

/-- The number that decimal digits spell. -/
def digitsValue (ds : List Char) : Nat :=
  ds.foldl (fun n d => n * 10 + (d.toNat - 48)) 0

/-- Digits are read into a number as long as it fits into 64 bits: the number, and the digits that
are left. -/
def takeDigits (n : Nat) : List Char → Nat × List Char
  | [] => (n, [])
  | d :: ds =>
    let next := n * 10 + (d.toNat - 48)
    if next < Nat.pow 2 64 then takeDigits next ds else (n, d :: ds)

/-- Whether a number with digits before and behind the point and an exponent is in range.  Digits
before the point that are left count as places; those behind the point count for nothing. -/
def digitsInRange (whole fraction : List Char) (exponent : Int) : Bool :=
  let front := takeDigits 0 whole
  let back := takeDigits front.1 fraction
  let places := Int.ofNat front.2.length - Int.ofNat (fraction.length - back.2.length)
  productInRange back.1 (places + exponent)

end Json

end Scaffold
