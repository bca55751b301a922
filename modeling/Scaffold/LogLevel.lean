/-
**Log levels.**

Main definitions:

* `Scaffold.LogLevel`, `Scaffold.LogLevel.ofWord?` — the levels, named in any case of letters;
* `Scaffold.LogLevel.directive`, `Scaffold.LogLevel.display` — the two spellings of a level.
-/

set_option relaxedAutoImplicit false
set_option autoImplicit false

namespace Scaffold

/-- How much is logged. -/
inductive LogLevel where
  /-- Everything. -/
  | trace
  /-- What helps to find mistakes. -/
  | debug
  /-- What happens. -/
  | info
  /-- What may be a mistake. -/
  | warn
  /-- What is a mistake. -/
  | error
  /-- Nothing. -/
  | off
deriving DecidableEq, Repr

namespace LogLevel

/-- The levels in order. -/
def all : List LogLevel := [.trace, .debug, .info, .warn, .error, .off]

/-- The spelling in small letters. -/
def directive : LogLevel → String
  | .trace => "trace"
  | .debug => "debug"
  | .info => "info"
  | .warn => "warn"
  | .error => "error"
  | .off => "off"

/-- The spelling in capitals. -/
def display : LogLevel → String
  | .trace => "TRACE"
  | .debug => "DEBUG"
  | .info => "INFO"
  | .warn => "WARN"
  | .error => "ERROR"
  | .off => "OFF"

/-- A word with its ASCII letters small. -/
def small (word : String) : String := String.ofList (word.toList.map Char.toLower)

/-- The level that a word names, in any case of letters. -/
def ofWord? (word : String) : Option LogLevel :=
  if small word = "warning" then some .warn
  else all.find? fun l => l.directive == small word

/-- The wording of an unknown level. -/
def unknownMessage (word : String) : String := "unknown log level: " ++ small word

end LogLevel

end Scaffold
