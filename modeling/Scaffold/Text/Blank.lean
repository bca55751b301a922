/-
**White space.**

The characters with the Unicode property *White_Space*, and cutting them off both ends of a text.

Main definitions:

* `Scaffold.Text.isBlank` — the property;
* `Scaffold.Text.trim` — a text without the white space around it.

Main results:

* `Scaffold.Text.isBlank_of_isWhitespace` — the ASCII blanks are blanks;
* `Scaffold.Text.trimChars_of_ends` — a text that neither starts nor ends with a blank is left
  as it is.
-/

set_option relaxedAutoImplicit false
set_option autoImplicit false

namespace Scaffold.Text

/-- The characters with the property *White_Space*. -/
def isBlank (c : Char) : Bool :=
  let n := c.toNat
  (9 ≤ n && n ≤ 13) || n == 0x20 || n == 0x85 || n == 0xa0 || n == 0x1680 ||
    (0x2000 ≤ n && n ≤ 0x200a) || n == 0x2028 || n == 0x2029 || n == 0x202f || n == 0x205f ||
    n == 0x3000

/-- The ASCII blanks are blanks. -/
theorem isBlank_of_isWhitespace {c : Char} (h : c.isWhitespace = true) : isBlank c = true := by
  simp only [Char.isWhitespace, Bool.or_eq_true, decide_eq_true_eq] at h
  rcases h with ((rfl | rfl) | rfl) | rfl <;> decide

/-- A list of characters without the blanks at its end. -/
def trimEndChars (cs : List Char) : List Char :=
  (cs.reverse.dropWhile isBlank).reverse

/-- A list of characters without the blanks at either end. -/
def trimChars (cs : List Char) : List Char :=
  trimEndChars (cs.dropWhile isBlank)

/-- A text without the white space around it. -/
def trim (s : String) : String :=
  String.ofList (trimChars s.toList)

@[simp] theorem trimChars_nil : trimChars [] = [] := rfl

/-- A text that neither starts nor ends with a blank is left as it is. -/
theorem trimChars_of_ends {cs : List Char} (hd : ∀ c ∈ cs.head?, isBlank c = false)
    (hl : ∀ c ∈ cs.getLast?, isBlank c = false) : trimChars cs = cs := by
  have hfirst : cs.dropWhile isBlank = cs := by
    cases cs with
    | nil => rfl
    | cons c cs => simp [hd c (by simp)]
  have hlast : cs.reverse.dropWhile isBlank = cs.reverse := by
    rw [List.getLast?_eq_head?_reverse] at hl
    cases hr : cs.reverse with
    | nil => rfl
    | cons c r => simp [hl c (by simp [hr])]
  rw [trimChars, hfirst, trimEndChars, hlast, List.reverse_reverse]

end Scaffold.Text
