/-
**Command lines.**

A command line names a command and gives its options, each by a letter or a word.  A value stands
behind an option, or is attached to it; an option that takes many values takes all that follow up
to the next option.

Main definitions:

* `Scaffold.Command` — the commands with their options;
* `Scaffold.OptionSpec`, `Scaffold.occurrences?` — the options of a command line in order;
* `Scaffold.Command.parse?` — the command of a command line, unless it is used wrongly.
-/

import Scaffold.Tag
import Scaffold.LogLevel
import Scaffold.Text.Affix

set_option relaxedAutoImplicit false
set_option autoImplicit false

namespace Scaffold

/-- The options of commands that read sources. -/
structure SourceOptions where
  /-- The files and directories to read. -/
  inputs : List String
  /-- The file with the settings. -/
  config : Option String := none
  /-- The number of workers. -/
  jobs : Option Nat := none
deriving DecidableEq, Repr

/-- The file with settings that is checked where none is named. -/
def defaultConfigPath : String := "annogen.toml"

/-- The commands with their options. -/
inductive Command where
  /-- Generates, into a directory or, where `toStdout` is set, onto standard output. -/
  | generate (sources : SourceOptions) (output : Option String) (strategies : List Strategy)
      (toStdout : Bool)
  /-- Shows declarations and resolutions. -/
  | inspect (sources : SourceOptions)
  /-- Checks settings. -/
  | checkConfig (config : Option String)
deriving DecidableEq, Repr

/-- The files and directories that a command reads. -/
def Command.inputs : Command → List String
  | .generate sources _ _ _ => sources.inputs ++ sources.config.toList
  | .inspect sources => sources.inputs ++ sources.config.toList
  | .checkConfig config => [config.getD defaultConfigPath]

/-- The directory that a command writes into. -/
def Command.output? : Command → Option String
  | .generate _ output _ toStdout => if toStdout then none else output
  | _ => none

/-! ### Options -/

/-- How many values an option takes. -/
inductive Arity where
  /-- None. -/
  | none
  /-- Exactly one. -/
  | one
  /-- One or more. -/
  | many
deriving DecidableEq, Repr

/-- An option of a command. -/
structure OptionSpec where
  /-- The word behind two dashes. -/
  long : String
  /-- The letter behind one dash. -/
  short : Option Char := none
  /-- How many values it takes. -/
  arity : Arity := .one
  /-- Whether it may be given several times. -/
  repeats : Bool := false
deriving DecidableEq, Repr

/-- An option as it was given, with its values. -/
structure Occurrence where
  /-- The option. -/
  spec : OptionSpec
  /-- Its values. -/
  values : List String := []
deriving DecidableEq, Repr

/-- An argument as far as its dashes tell. -/
inductive Argument where
  /-- Two dashes alone, behind which there are no options. -/
  | escape
  /-- An option by its word, with an attached value. -/
  | long (name : String) (value : Option String)
  /-- An option by its letter, with what is attached to it. -/
  | short (letter : Char) (attached : List Char)
  /-- Anything else. -/
  | plain (text : String)
deriving DecidableEq, Repr

/-- What an argument is as far as its dashes tell. -/
def Argument.classify (arg : String) : Argument :=
  match arg.toList with
  | ['-', '-'] => .escape
  | '-' :: '-' :: cs =>
    let name := String.ofList (cs.takeWhile (· != '='))
    match cs.dropWhile (· != '=') with
    | [] => .long name none
    | _ :: value => .long name (some (String.ofList value))
  | '-' :: c :: cs => .short c cs
  | _ => .plain arg

/-- The value attached to a letter, with or without an equals sign. -/
def attachedValue : List Char → Option String
  | [] => none
  | '=' :: cs => some (String.ofList cs)
  | cs => some (String.ofList cs)

/-- The values that follow an option. -/
def followingValues (arity : Arity) (args : List String) : List String × List String :=
  let isPlain := fun arg =>
    match Argument.classify arg with
    | .plain _ => true
    | _ => false
  match arity with
  | .none => ([], args)
  | .one => ((args.takeWhile isPlain).take 1, args.drop ((args.takeWhile isPlain).take 1).length)
  | .many => (args.takeWhile isPlain, args.dropWhile isPlain)

/-- An option with its values, and the arguments behind them.  A value is either attached or
follows; an option without values has none attached. -/
def occurrence? (spec : OptionSpec) (attached : Option String) (args : List String) :
    Option (Occurrence × List String) :=
  match spec.arity, attached with
  | .none, some _ => none
  | .none, none => some (⟨spec, []⟩, args)
  | _, some value => some (⟨spec, [value]⟩, args)
  | arity, none =>
    let (values, rest) := followingValues arity args
    if values.isEmpty then none else some (⟨spec, values⟩, rest)

/-- The options that a command line gives, in order; there may be nothing else on it.  `fuel`
bounds their number. -/
def occurrencesFrom? (specs : List OptionSpec) :
    (fuel : Nat) → List String → Option (List Occurrence)
  | 0, _ => some []
  | _, [] => some []
  | fuel + 1, arg :: args =>
    match Argument.classify arg with
    | .escape => if args.isEmpty then some [] else none
    | .plain _ => none
    | .long name value => do
      let spec ← specs.find? fun s => s.long == name
      let (o, rest) ← occurrence? spec value args
      let os ← occurrencesFrom? specs fuel rest
      return o :: os
    | .short letter attached => do
      let spec ← specs.find? fun s => s.short == some letter
      let (o, rest) ← occurrence? spec (attachedValue attached) args
      let os ← occurrencesFrom? specs fuel rest
      return o :: os

/-- Whether no option is given more often than it may be. -/
def repeatsRight (os : List Occurrence) : Bool :=
  os.all fun o => o.spec.repeats || (os.countP fun p => p.spec == o.spec) ≤ 1

/-- The options of a command line, if they are used rightly. -/
def occurrences? (specs : List OptionSpec) (args : List String) : Option (List Occurrence) := do
  let os ← occurrencesFrom? specs (args.length + 1) args
  if repeatsRight os then some os else none

/-- All values of an option. -/
def valuesOf (os : List Occurrence) (long : String) : List String :=
  (os.filter fun o => o.spec.long == long).flatMap Occurrence.values

/-- Whether an option is given. -/
def isGiven (os : List Occurrence) (long : String) : Bool := os.any fun o => o.spec.long == long

/-! ### Values -/

/-- A path, which is not empty. -/
def pathValue? (s : String) : Option String := if s.isEmpty then none else some s

/-- A count of at most 64 bits in decimal digits, with or without a plus sign. -/
def countValue? (s : String) : Option Nat :=
  let ds := match s.toList with
    | '+' :: ds => ds
    | ds => ds
  if ds.isEmpty || !ds.all Char.isDigit then none
  else
    let n := ds.foldl (fun n d => n * 10 + (d.toNat - 48)) 0
    if n < Nat.pow 2 64 then some n else none

/-- All values of a list, if all are right. -/
def allValues? {α : Type} (value : String → Option α) : List String → Option (List α)
  | [] => some []
  | s :: ss => do
    let x ← value s
    let xs ← allValues? value ss
    return x :: xs

/-- The value of an option that is given at most once, if it is right. -/
def singleValue? {α : Type} (os : List Occurrence) (long : String) (value : String → Option α) :
    Option (Option α) :=
  match valuesOf os long with
  | [] => some none
  | s :: _ => (value s).map some

/-! ### Commands -/

/-- The option for the log level, which every command takes. -/
def logLevelSpec : OptionSpec := { long := "log-level" }

/-- The options of commands that read sources. -/
def sourceSpecs : List OptionSpec :=
  [logLevelSpec, { long := "input", short := some 'i', arity := .many, repeats := true },
    { long := "config", short := some 'c' }, { long := "jobs", short := some 'j' }]

/-- The further options of generating. -/
def generateSpecs : List OptionSpec :=
  [{ long := "output", short := some 'o' },
    { long := "strategy", short := some 's', repeats := true },
    { long := "stdout", arity := .none }]

/-- Whether the log level is right, if one is given. -/
def checkLogLevel? (os : List Occurrence) : Option Unit :=
  (singleValue? os "log-level" LogLevel.ofWord?).map fun _ => ()

/-- The options of commands that read sources. -/
def sourceOptions? (os : List Occurrence) : Option SourceOptions := do
  checkLogLevel? os
  let inputs ← allValues? pathValue? (valuesOf os "input")
  let config ← singleValue? os "config" pathValue?
  let jobs ← singleValue? os "jobs" countValue?
  if inputs.isEmpty then none else some { inputs, config, jobs }

/-- The command of a name with its arguments. -/
def Command.ofName? (name : String) (args : List String) : Option Command :=
  match name with
  | "generate" => do
    let os ← occurrences? (sourceSpecs ++ generateSpecs) args
    let sources ← sourceOptions? os
    let output ← singleValue? os "output" pathValue?
    let strategies ← allValues? Strategy.ofWord? (valuesOf os "strategy")
    let toStdout := isGiven os "stdout"
    if output.isNone && !toStdout then none
    else some (.generate sources output strategies toStdout)
  | "inspect" => do
    let os ← occurrences? sourceSpecs args
    return .inspect (← sourceOptions? os)
  | "check-config" => do
    let os ← occurrences? [logLevelSpec, { long := "config", short := some 'c' }] args
    checkLogLevel? os
    return .checkConfig (← singleValue? os "config" pathValue?)
  | _ => none

/-- Divides a command line before the name of its command: a log level may stand in front. -/
def splitCommand? (args : List String) : Option (List String × List String) :=
  match args with
  | [] => none
  | arg :: rest =>
    match Argument.classify arg with
    | .plain _ => some ([], arg :: rest)
    | .long "log-level" (some _) => some ([arg], rest)
    | .long "log-level" none => some (arg :: rest.take 1, rest.drop 1)
    | _ => none

/-- The command of a command line, unless it is used wrongly. -/
def Command.parse? (args : List String) : Option Command := do
  let (front, rest) ← splitCommand? args
  let os ← occurrences? [logLevelSpec] front
  checkLogLevel? os
  match rest with
  | name :: args => Command.ofName? name args
  | [] => none

end Scaffold
