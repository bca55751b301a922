/-
**Prefixes, suffixes and dotted names.**

Main definitions:

* `Scaffold.Text.after?` — what comes after a start;
* `Scaffold.Text.dropPrefix?`, `Scaffold.Text.dropSuffix?` — a text without a given start or end;
* `Scaffold.Text.pieces` — the parts of a text between separators;
* `Scaffold.Text.lastSegment`, `Scaffold.Text.owner?` — the two halves of a dotted name.

Main results:

* `Scaffold.Text.dropPrefix?_append`, `Scaffold.Text.dropSuffix?_append` — what was put in front or
  at the end is taken off again.
-/

set_option relaxedAutoImplicit false
set_option autoImplicit false

namespace Scaffold.Text

/-- What comes after `start` in a list of characters that starts so. -/
def after? : (start cs : List Char) → Option (List Char)
  | [], cs => some cs
  | _ :: _, [] => none
  | x :: xs, c :: cs => if x = c then after? xs cs else none

/-- The text after `start`, if it starts so. -/
def dropPrefix? (start s : String) : Option String :=
  (after? start.toList s.toList).map String.ofList

/-- The text before `tail`, if it ends so. -/
def dropSuffix? (tail s : String) : Option String :=
  (after? tail.toList.reverse s.toList.reverse).map fun cs => String.ofList cs.reverse

/-- Whether a text starts with another. -/
def startsWith (start s : String) : Bool :=
  start.toList.isPrefixOf s.toList

/-- The parts of a text between the separators `c`; there is always one more than separators. -/
def pieces (c : Char) (s : String) : List String :=
  (s.toList.splitOn c).map String.ofList

/-- The part of a dotted name after its last dot, or the whole name. -/
def lastSegment (s : String) : String :=
  String.ofList (s.toList.reverse.takeWhile (· != '.')).reverse

/-- The part of a dotted name before its last dot, if it has a dot. -/
def owner? (s : String) : Option String :=
  match s.toList.reverse.dropWhile (· != '.') with
  | [] => none
  | _ :: cs => some (String.ofList cs.reverse)

/-- What was put behind a start comes after it. -/
@[simp] theorem after?_append (xs ys : List Char) : after? xs (xs ++ ys) = some ys := by
  induction xs with
  | nil => simp [after?]
  | cons x xs ih => simp [after?, ih]

/-- A start and what comes after it make up the list. -/
theorem append_of_after? {xs ys zs : List Char} (h : after? xs ys = some zs) : xs ++ zs = ys := by
  fun_induction after? xs ys with
  | case1 => simpa using h.symm
  | case2 => simp at h
  | case3 x xs ys ih => simp [ih h]
  | case4 => simp at h

/-- What is left of a text without its end is put back together with that end. -/
theorem append_of_dropSuffix? {tail w stem : String} (h : dropSuffix? tail w = some stem) :
    stem.toList ++ tail.toList = w.toList := by
  simp only [dropSuffix?, Option.map_eq_some_iff] at h
  obtain ⟨cs, hcs, rfl⟩ := h
  have := congrArg List.reverse (append_of_after? hcs)
  simpa using this

/-- What was put in front is taken off again. -/
@[simp] theorem dropPrefix?_append (p s : String) : dropPrefix? p (p ++ s) = some s := by
  simp [dropPrefix?]

/-- What was put at the end is taken off again. -/
@[simp] theorem dropSuffix?_append (p s : String) : dropSuffix? s (p ++ s) = some p := by
  simp [dropSuffix?]

end Scaffold.Text
