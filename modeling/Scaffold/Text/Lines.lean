/-
**Lines and indentation.**

A text is divided at line feeds; a carriage return before a line feed belongs to the line's end,
and a line feed at the very end opens no further line.

Main definitions:

* `Scaffold.Text.lines` — the lines of a text;
* `Scaffold.Text.indent` — a text with its non-empty lines moved to the right.
-/

set_option relaxedAutoImplicit false
set_option autoImplicit false

namespace Scaffold.Text

/-- The characters of a line that a line feed ends, given in reverse. -/
def endedLine : List Char → List Char
  | '\r' :: cs => cs.reverse
  | cs => cs.reverse

/-- The lines of the characters that follow the (reversed) part `acc` of the current line. -/
def linesFrom (acc : List Char) : List Char → List (List Char)
  | [] => if acc.isEmpty then [] else [acc.reverse]
  | c :: cs => if c = '\n' then endedLine acc :: linesFrom [] cs else linesFrom (c :: acc) cs

/-- The lines of a text. -/
def lines (s : String) : List String :=
  (linesFrom [] s.toList).map String.ofList

/-- One step of indentation in generated code. -/
def indentUnit : String := "    "

/-- The text of `level` steps of indentation. -/
def indentation (level : Nat) : String :=
  String.join (List.replicate level indentUnit)

/-- Moves every non-empty line of a text `level` steps to the right. -/
def indent (s : String) (level : Nat) : String :=
  "\n".intercalate ((lines s).map fun l => if l.isEmpty then "" else indentation level ++ l)

end Scaffold.Text
