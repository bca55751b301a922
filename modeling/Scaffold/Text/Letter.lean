/-
**Letters, numbers and identifiers.**

An identifier starts with a letter or an underscore and goes on with letters, numbers and
underscores.  Letters are the characters with the Unicode property *Alphabetic*, numbers those of
the categories `Nd`, `Nl` and `No`.

Main definitions:

* `Scaffold.Text.isLetter`, `Scaffold.Text.isNumber` — the two classes;
* `Scaffold.Text.startsName`, `Scaffold.Text.continuesName` — the characters of identifiers;
* `Scaffold.Text.isPlainName` — whether a text is an identifier.

Main results:

* `Scaffold.Text.startsName_of_isAlpha`, `Scaffold.Text.continuesName_of_isAlphanum` — the ASCII
  letters and digits are among them;
* `Scaffold.Text.continuesName_of_startsName` — what may start an identifier may continue it.
-/

import Scaffold.Text.LetterTable

set_option relaxedAutoImplicit false
set_option autoImplicit false

namespace Scaffold.Text

/-- The characters with the property *Alphabetic*. -/
def isLetter (c : Char) : Bool :=
  if c.toNat < 128 then c.isAlpha else inRuns alphabeticRuns c

/-- The characters of the categories `Nd`, `Nl` and `No`. -/
def isNumber (c : Char) : Bool :=
  if c.toNat < 128 then c.isDigit else inRuns numericRuns c

/-- Whether an identifier may start with the character. -/
def startsName (c : Char) : Bool :=
  c == '_' || isLetter c

/-- Whether an identifier may go on with the character. -/
def continuesName (c : Char) : Bool :=
  c == '_' || isLetter c || isNumber c

/-- Whether the text is an identifier. -/
def isPlainName (s : String) : Bool :=
  match s.toList with
  | [] => false
  | c :: cs => startsName c && cs.all continuesName

/-- What may start an identifier may continue it. -/
theorem continuesName_of_startsName {c : Char} (h : startsName c = true) :
    continuesName c = true := by
  simp only [startsName, Bool.or_eq_true] at h
  simp only [continuesName, Bool.or_eq_true]
  exact Or.inl h

/-- The ASCII letters start identifiers. -/
theorem startsName_of_isAlpha {c : Char} (hc : c.toNat < 128) (h : c.isAlpha = true) :
    startsName c = true := by
  simp [startsName, isLetter, hc, h]

/-- The ASCII letters and digits continue identifiers. -/
theorem continuesName_of_isAlphanum {c : Char} (hc : c.toNat < 128) (h : c.isAlphanum = true) :
    continuesName c = true := by
  simp only [Char.isAlphanum, Bool.or_eq_true] at h
  rcases h with h | h <;> simp [continuesName, isLetter, isNumber, hc, h]

end Scaffold.Text
