/-
**Parts of a text by byte offset.**

Positions in a source text are counted in bytes of its UTF-8 form.  A part of the text exists only
if both its ends lie between two characters.

Main definitions:

* `Scaffold.Text.byteSize` — the bytes of a list of characters;
* `Scaffold.Text.dropBytes?`, `Scaffold.Text.takeBytes?` — cutting at a byte offset;
* `Scaffold.Text.slice?` — the part between two offsets.

Main results:

* `Scaffold.Text.slice?_append` — the part that starts after `xs` and is as long as `ys` is `ys`.
-/

set_option relaxedAutoImplicit false
set_option autoImplicit false

namespace Scaffold.Text

/-- The number of bytes that the characters take. -/
def byteSize : List Char → Nat
  | [] => 0
  | c :: cs => c.utf8Size + byteSize cs

/-- The characters from byte offset `n` on, if a character starts or the text ends there. -/
def dropBytes? (n : Nat) : List Char → Option (List Char)
  | [] => if n = 0 then some [] else none
  | c :: cs =>
    if n = 0 then some (c :: cs)
    else if c.utf8Size ≤ n then dropBytes? (n - c.utf8Size) cs else none

/-- The characters before byte offset `n`, if a character starts or the text ends there. -/
def takeBytes? (n : Nat) : List Char → Option (List Char)
  | [] => if n = 0 then some [] else none
  | c :: cs =>
    if n = 0 then some []
    else if c.utf8Size ≤ n then (takeBytes? (n - c.utf8Size) cs).map (c :: ·) else none

/-- The characters between two byte offsets, if the text can be cut at both. -/
def slice? (cs : List Char) (start stop : Nat) : Option (List Char) :=
  if start ≤ stop then (dropBytes? start cs).bind (takeBytes? (stop - start)) else none

@[simp] theorem byteSize_append (xs ys : List Char) :
    byteSize (xs ++ ys) = byteSize xs + byteSize ys := by
  induction xs with
  | nil => simp [byteSize]
  | cons c cs ih => simp [byteSize, ih]; omega

/-- Cutting after the first part of a text leaves the second. -/
theorem dropBytes?_append (xs ys : List Char) :
    dropBytes? (byteSize xs) (xs ++ ys) = some ys := by
  induction xs with
  | nil => cases ys <;> simp [dropBytes?, byteSize]
  | cons c cs ih =>
      have hc : c.utf8Size ≠ 0 := Nat.pos_iff_ne_zero.1 (Char.utf8Size_pos c)
      simp [dropBytes?, byteSize, hc, ih]

/-- Cutting after the first part of a text gives that part. -/
theorem takeBytes?_append (xs ys : List Char) :
    takeBytes? (byteSize xs) (xs ++ ys) = some xs := by
  induction xs with
  | nil => cases ys <;> simp [takeBytes?, byteSize]
  | cons c cs ih =>
      have hc : c.utf8Size ≠ 0 := Nat.pos_iff_ne_zero.1 (Char.utf8Size_pos c)
      simp [takeBytes?, byteSize, hc, ih]

/-- The part that starts after `xs` and is as long as `ys` is `ys`. -/
theorem slice?_append (xs ys zs : List Char) :
    slice? (xs ++ ys ++ zs) (byteSize xs) (byteSize xs + byteSize ys) = some ys := by
  simp [slice?, List.append_assoc, dropBytes?_append, takeBytes?_append]

end Scaffold.Text
