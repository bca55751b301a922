/-
**Running commands.**

A command is run on a value of the file system and yields what it prints, its exit status and the
files after it.

Main definitions:

* `Scaffold.CommandResult` — what running a command yields;
* `Scaffold.loadSettings?` — the settings of a file;
* `Scaffold.collectPaths` — the source files among inputs;
* `Scaffold.Command.run` — running a command;
* `Scaffold.runCommandLine` — running a command line.
-/

import Scaffold.Command.Arguments
import Scaffold.Command.FileTree
import Scaffold.Declaration.Json
import Scaffold.Problem.Json
import Scaffold.Run
import Scaffold.Settings.Toml

set_option relaxedAutoImplicit false
set_option autoImplicit false

namespace Scaffold

/-- What running a command yields. -/
structure CommandResult where
  /-- The exit status. -/
  exit : Nat
  /-- What it prints. -/
  stdout : String := ""
  /-- What it reports; a wrong use is reported in words of its own. -/
  stderr : Option String := some ""
  /-- The files after it. -/
  files : FileTree

/-! ### Settings -/

/-- The settings of a text, in the format that the suffix of its path names. -/
def settingsOfText? (path text : String) : Option Settings :=
  match Path.suffix? path with
  | some "toml" => Settings.ofToml? text
  | some "json" => Settings.ofJson? text
  | _ => none

/-- The settings of a file, if it can be read and they make sense. -/
def loadSettings? (t : FileTree) (path : String) : Option Settings := do
  let text ← t.read? path
  let settings ← settingsOfText? path text
  if settings.invalid?.isNone then some settings else none

/-- The settings of a file, or the defaults where none is named. -/
def settingsFor (t : FileTree) (config : Option String) : Except String Settings :=
  match config with
  | none => .ok {}
  | some path =>
    match loadSettings? t path with
    | some settings => .ok settings
    | none => .error ("Failed to load configuration: " ++ path)

/-! ### Sources -/

/-- The source files that an input stands for. -/
def expandInput (t : FileTree) (input : String) : Except String (List String) :=
  if t.hasDirectory input then
    .ok ((t.walk input).filter fun path => Path.suffix? path == some "swift")
  else if t.hasFile input then .ok [input]
  else .error ("Input not found: " ++ input)

/-- The first path of each identity. -/
def distinctPaths (seen : List (List String)) : List String → List String
  | [] => []
  | path :: rest =>
    if seen.contains (Path.identity path) then distinctPaths seen rest
    else path :: distinctPaths (Path.identity path :: seen) rest

/-- The source files that inputs stand for, each once. -/
def collectPaths (t : FileTree) (inputs : List String) : Except String (List String) := do
  let paths ← inputs.mapM (expandInput t)
  return distinctPaths [] paths.flatten

/-- The source unit of a path. -/
def readSource (t : FileTree) (path : String) : Except String Source :=
  match t.read? path with
  | some text => .ok ⟨path, text⟩
  | none => .error ("Failed to read " ++ path)

/-- The source units that inputs stand for; there has to be one. -/
def readSources (t : FileTree) (inputs : List String) : Except String (List Source) := do
  let paths ← collectPaths t inputs
  if paths.isEmpty then .error "No Swift sources found" else paths.mapM (readSource t)

/-- The settings and the source units of a command. -/
def prepare (t : FileTree) (options : SourceOptions) : Except String (Settings × List Source) := do
  let settings ← settingsFor t options.config
  let sources ← readSources t options.inputs
  return ({ settings with jobs := options.jobs.getD settings.jobs }, sources)

/-! ### Output -/

/-- Lines, each with a line feed at its end. -/
def unlines (ls : List String) : String := String.join (ls.map (· ++ "\n"))

/-- The number of a problem's kind in three digits. -/
def Problem.codeText (p : Problem) : String := "E00" ++ toString p.code

/-- The lines that report the remarks and the problems of a run. -/
def Report.lines (r : Report) : List String :=
  (r.notes.map fun n => "note: " ++ n) ++
    r.problems.map fun p =>
      "error[" ++ p.codeText ++ "] " ++ p.category.word ++ ": " ++ p.message

/-- The line that counts the problems of a run, if it has any. -/
def Report.summary (r : Report) : List String :=
  if r.isSuccess then [] else [toString r.problems.length ++ " error(s)"]

/-- The units of a run one behind the other, each with its name above it. -/
def Report.printed (r : Report) : String :=
  String.join (r.outputs.entries.map fun (name, text) => "// ---- " ++ name ++ " ----\n" ++ text)

/-- Writes units into a directory one by one: the files after it, and the path of the first that
cannot be written. -/
def writeUnits (directory : String) (l : Location) :
    List (String × String) → FileTree → FileTree × Option String
  | [], t => (t, none)
  | (name, text) :: rest, t =>
    let path := Path.join directory name
    match if Path.isLong path then none else t.write? (l ++ [name]) text with
    | some t => writeUnits directory l rest t
    | none => (t, some path)

/-- A resolution in JSON. -/
def Resolution.toJson (r : Resolution) : Json :=
  .obj ([("declaration", .str r.declaration),
      ("annotations", .strs (r.tags.map Tag.word)),
      ("strategies", .strs (r.strategies.map Strategy.word))] ++
    r.counterpart.toList.map fun c => ("counterpart", .str c))

/-- An inspection in JSON. -/
def Inspection.toJson (i : Inspection) : Json :=
  .obj [("declarations", .arr (i.entries.map Entry.toJson)),
    ("resolutions", .arr (i.resolutions.map Resolution.toJson)),
    ("errors", .arr (i.problems.map Problem.toJson))]

/-! ### Commands -/

/-- A command that stops with a message, after it reported some lines. -/
def failed (t : FileTree) (stdout : String) (reported : List String) (message : String) :
    CommandResult :=
  { exit := 1, stdout, stderr := some (unlines (reported ++ ["Error: " ++ message])), files := t }

/-- Puts the units of a run where they belong. -/
def deliver (t : FileTree) (output : Option String) (toStdout : Bool) (r : Report) :
    CommandResult :=
  let done := fun (stdout : String) (t : FileTree) =>
    { exit := r.exitCode, stdout, stderr := some (unlines (r.lines ++ r.summary)), files := t }
  if toStdout then done r.printed t
  else
    match output with
    | none => done "" t
    | some directory =>
      match t.makeDirectories directory with
      | (t, none) => failed t "" r.lines ("Failed to create output directory " ++ directory)
      | (t, some l) =>
        match writeUnits directory l r.outputs.entries t with
        | (t, some path) => failed t "" r.lines ("Failed to write " ++ path)
        | (t, none) =>
          done ("✓ Wrote " ++ toString r.outputs.size ++ " file(s) to " ++ directory ++ "\n") t

/-- The settings restricted to strategies, if any are named. -/
def restrict (settings : Settings) (strategies : List Strategy) : Settings :=
  if strategies.isEmpty then settings else settings.withStrategies strategies

/-- What checking settings prints. -/
def settingsSummary (s : Settings) : String :=
  unlines ["✓ Strategies: " ++ ", ".intercalate (s.strategies.map Strategy.word),
    "✓ Fixtures: " ++ toString s.fixtures.size,
    "✓ Marker prefix: " ++ s.markerPrefix,
    "✓ DTO suffixes: " ++ ", ".intercalate s.naming.dtoSuffixes,
    "\nConfiguration is valid!"]

/-- Runs a command on a number of processors. -/
def Command.run (processors : Nat) (t : FileTree) : Command → CommandResult
  | .generate sources output strategies toStdout =>
    match prepare t sources with
    | .error message => failed t "" [] message
    | .ok (settings, units) =>
      deliver t output toStdout
        (Scaffold.generate processors (restrict settings strategies) {} units)
  | .inspect sources =>
    match prepare t sources with
    | .error message => failed t "" [] message
    | .ok (settings, units) =>
      let inspection := Scaffold.inspect processors settings units
      { exit := if inspection.problems.isEmpty then 0 else 1
        stdout := inspection.toJson.pretty ++ "\n"
        files := t }
  | .checkConfig config =>
    let path := config.getD defaultConfigPath
    let opening := "Checking configuration: " ++ path ++ "\n"
    match settingsFor t (some path) with
    | .error message => failed t opening [] message
    | .ok settings => { exit := 0, stdout := opening ++ settingsSummary settings, files := t }

/-- Runs a command line; a wrong use has the exit status two. -/
def runCommandLine (processors : Nat) (t : FileTree) (args : List String) : CommandResult :=
  match Command.parse? args with
  | some command => command.run processors t
  | none => { exit := 2, stderr := none, files := t }

end Scaffold
