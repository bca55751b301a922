/-
**The command line.**

The files that a command needs are read into a value, the command is run on it, and what it prints
and changes is put into effect.

Main definitions:

* `Scaffold.Main.look`, `Scaffold.Main.gather` — reading files and directories;
* `Scaffold.Main.settle` — writing what a command has changed;
* `main` — the program.
-/

import Scaffold.Command.Execute

set_option relaxedAutoImplicit false
set_option autoImplicit false

namespace Scaffold.Main

/-- The file or directory at a path, without what it holds. -/
def look (path : String) (l : Location) : IO FileTree := do
  let place := (← IO.currentDir) / path
  if ← place.isDir then return { directories := [l] }
  else if ← place.pathExists then return { files := [(l, "")] }
  else return {}

/-- The files and directories on the way to a path. -/
def lookAlong (t : FileTree) (path : String) : IO FileTree :=
  (t.stops path).foldlM (fun t (front, l) => return t ++ (← look front l)) {}

/-- The file at a path, or the source files below a directory. -/
partial def gather (path : String) (l : Location) : IO FileTree := do
  let place := (← IO.currentDir) / path
  if ← place.isDir then
    let entries ← place.readDir
    entries.foldlM (fun t e => do
      if (← e.path.isDir) || Path.suffix? e.fileName == some "swift" then
        return t ++ (← gather (Path.join path e.fileName) (l ++ [e.fileName]))
      else return t) { directories := [l] }
  else if ← place.pathExists then return { files := [(l, ← IO.FS.readFile place)] }
  else return {}

/-- All that a command reads at a path. -/
def gatherInput (t : FileTree) (path : String) : IO FileTree := do
  match (t.stops path).getLast? with
  | some (_, l) => return (← gather path l) ++ (← lookAlong t path)
  | none => return {}

/-- All that a command sees of the directory it writes into. -/
def gatherOutput (t : FileTree) (path : String) : IO FileTree := do
  let units := Strategy.all.map fun s => Path.join path s.outputUnit
  units.foldlM (fun u unit => return u ++ (← lookAlong t unit)) {}

/-- All that a command sees. -/
def gatherAll (c : Command) : IO FileTree := do
  let here := (← IO.currentDir).toString
  let start : FileTree := { working := (Path.parts here).filter fun p => !Path.isIdle p }
  let inputs ← c.inputs.mapM (gatherInput start)
  let outputs ← c.output?.toList.mapM (gatherOutput start)
  return (inputs ++ outputs).foldl FileTree.append start

/-- The path of a location. -/
def pathOf (l : Location) : String := "/" ++ "/".intercalate l

/-- Makes the directories and writes the files that are new. -/
def settle (before after : FileTree) : IO Unit := do
  let here ← IO.currentDir
  for l in after.directories do
    unless before.directories.contains l do
      IO.FS.createDirAll (here / pathOf l)
  for (l, text) in after.files do
    unless before.files.contains (l, text) do
      IO.FS.writeFile (here / pathOf l) text

/-- How the program is used. -/
def usage : String :=
  "usage: annogen [--log-level LEVEL] COMMAND\n" ++
  "  generate -i PATH... [-c PATH] [-j N] [-o DIR] [-s NAME]... [--stdout]\n" ++
  "  inspect -i PATH... [-c PATH] [-j N]\n" ++
  "  check-config [-c PATH]\n"

/-- Runs a command line and yields its exit status. -/
def run (args : List String) : IO UInt32 := do
  let before ← match Command.parse? args with
    | some c => gatherAll c
    | none => pure {}
  let result := runCommandLine 1 before args
  settle before result.files
  IO.print result.stdout
  IO.eprint (result.stderr.getD usage)
  return UInt32.ofNat result.exit

end Scaffold.Main

/-- Runs the command line. -/
def main (args : List String) : IO UInt32 := Scaffold.Main.run args
