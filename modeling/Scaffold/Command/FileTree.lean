/-
**Files and directories.**

Commands see the file system as a value: the texts of files, the names of directories, and the
directory in which they run.  Paths are kept as they are written, since messages show them so.

Main definitions:

* `Scaffold.FileTree`, `Scaffold.FileTree.locate?` — the files, and where a path leads;
* `Scaffold.Path.join`, `Scaffold.Path.suffix?`, `Scaffold.Path.identity` — paths as they are
  written;
* `Scaffold.FileTree.walk` — the files below a directory, in order;
* `Scaffold.FileTree.makeDirectories`, `Scaffold.FileTree.write?` — changing files.
-/

import Scaffold.Name.Set
import Scaffold.Text.Affix

set_option relaxedAutoImplicit false
set_option autoImplicit false

namespace Scaffold

/-! ### Paths -/

namespace Path

/-- The parts of a path between slashes. -/
def parts (path : String) : List String := Text.pieces '/' path

/-- The path of an entry of a directory. -/
def join (path name : String) : String :=
  if path.toList.getLast? = some '/' then path ++ name else path ++ "/" ++ name

/-- Whether a part of a path says nothing by itself. -/
def isIdle (part : String) : Bool := part.isEmpty || part == "."

/-- The parts of a path that lead somewhere. -/
def names (path : String) : List String := (parts path).filter fun p => !isIdle p

/-- Whether the last part of a path is a dot, behind which slashes may stand. -/
def endsInDot (path : String) : Bool :=
  ((parts path).filter fun p => !p.isEmpty).getLast? == some "."

/-- Whether a name is too long for a file or a directory, which is from 256 bytes on. -/
def isLongName (name : String) : Bool := 255 < name.utf8ByteSize

/-- Whether a path is too long to lead anywhere, which is from 4096 bytes on. -/
def isLong (path : String) : Bool := 4095 < path.utf8ByteSize

/-- What makes paths equal: their parts without those that say nothing, but a dot in front and
whether they start at the root count. -/
def identity (path : String) : List String :=
  match parts path with
  | [] => []
  | first :: rest =>
    let front := if first.isEmpty then ["/"] else [first]
    front ++ rest.filter fun p => !isIdle p

/-- The last part of a path that is a name. -/
def name? (path : String) : Option String :=
  match (names path).getLast? with
  | some ".." => none
  | last => last

/-- The suffix of a name behind its last dot, unless the dot is in front. -/
def nameSuffix? (name : String) : Option String :=
  match Text.owner? name with
  | some "" => none
  | some _ => some (Text.lastSegment name)
  | none => none

/-- The suffix of the last part of a path. -/
def suffix? (path : String) : Option String := (name? path).bind nameSuffix?

end Path

/-! ### Files -/

/-- Where a file or a directory is: the names on the way to it from the root. -/
abbrev Location := List String

/-- The files and directories that a command sees. -/
structure FileTree where
  /-- The directory in which the command runs. -/
  working : Location := []
  /-- The files with their texts. -/
  files : List (Location × String) := []
  /-- Directories, besides those on the way to files and directories. -/
  directories : List Location := []
deriving DecidableEq, Repr

namespace FileTree

/-- What two views of the same files show together. -/
def append (t u : FileTree) : FileTree :=
  { t with files := t.files ++ u.files, directories := t.directories ++ u.directories }

instance : Append FileTree := ⟨append⟩

/-- The directories that are given. -/
def givenDirectories (t : FileTree) : List Location := t.working :: t.directories

/-- All locations that are given. -/
def locations (t : FileTree) : List Location := t.files.map Prod.fst ++ t.givenDirectories

/-- Whether a location is that of a file. -/
def isFile (t : FileTree) (l : Location) : Bool := t.files.any fun f => f.1 == l

/-- Whether a location is that of a directory. -/
def isDirectory (t : FileTree) (l : Location) : Bool :=
  l.isEmpty || t.givenDirectories.contains l ||
    t.locations.any fun m => l.isPrefixOf m && l.length < m.length

/-- The location one part of a path further, which has to start from a directory. -/
def step? (t : FileTree) (l : Location) (part : String) : Option Location :=
  if !t.isDirectory l then none
  else if Path.isIdle part then some l
  else if part = ".." then some l.dropLast
  else if Path.isLongName part then none
  else some (l ++ [part])

/-- Where the parts of a path start from: the root, or the directory in which the command runs. -/
def origin (t : FileTree) (path : String) : Location :=
  if path.toList.head? = some '/' then [] else t.working

/-- Where a path leads. -/
def locate? (t : FileTree) (path : String) : Option Location :=
  if Path.isLong path then none else (Path.parts path).foldlM t.step? (t.origin path)

/-- The paths on the way to a path and itself, each with the location that it spells. -/
def stops (t : FileTree) (path : String) : List (String × Location) :=
  let parts := Path.parts path
  (List.range parts.length).map fun n =>
    let front := parts.take (n + 1)
    ("/".intercalate front,
      front.foldl (fun l part =>
        if Path.isIdle part then l else if part = ".." then l.dropLast else l ++ [part])
        (t.origin path))

/-- Whether a path leads to a directory. -/
def hasDirectory (t : FileTree) (path : String) : Bool := (t.locate? path).any t.isDirectory

/-- Whether a path leads to a file. -/
def hasFile (t : FileTree) (path : String) : Bool := (t.locate? path).any t.isFile

/-- The text of a file. -/
def read? (t : FileTree) (path : String) : Option String :=
  (t.locate? path).bind fun l => t.files.lookup l

/-- The names in a directory, in order. -/
def children (t : FileTree) (l : Location) : List String :=
  (NameSet.ofList (t.locations.filterMap fun m =>
    if l.isPrefixOf m then m[l.length]? else none)).toList

/-- The paths of all files below a directory, depth first and by name; directories may be nested
`room` deep. -/
def walkFrom (t : FileTree) : (room : Nat) → (path : String) → Location → List String
  | 0, _, _ => []
  | room + 1, path, l =>
    (t.children l).flatMap fun name =>
      let inner := l ++ [name]
      if t.isFile inner then [Path.join path name]
      else walkFrom t room (Path.join path name) inner

/-- The greatest depth of a location. -/
def depth (t : FileTree) : Nat := t.locations.foldl (fun n l => max n l.length) 0

/-- The paths of all files below a directory, depth first and by name. -/
def walk (t : FileTree) (path : String) : List String :=
  match t.locate? path with
  | some l => t.walkFrom (t.depth + 1) path l
  | none => []

/-! ### Changes -/

/-- One part of a path further, making the directory that it names unless it is there. -/
def makeStep? (t : FileTree) (l : Location) (part : String) : Option (FileTree × Location) := do
  let next ← t.step? l part
  if t.isFile next then none
  else if t.isDirectory next then some (t, next)
  else some ({ t with directories := t.directories ++ [next] }, next)

/-- Makes the directories that parts of a path name: the files after it, and where the parts lead
unless a file is in the way. -/
def makeSteps : List String → FileTree → Location → FileTree × Option Location
  | [], t, l => (t, some l)
  | part :: parts, t, l =>
    match t.makeStep? l part with
    | some (t, l) => makeSteps parts t l
    | none => (t, none)

/-- Makes all directories of a path: the files after it, and where the path leads unless it cannot
be made.  Behind the last name a dot stands for a directory that is there already. -/
def makeDirectories (t : FileTree) (path : String) : FileTree × Option Location :=
  let names := Path.names path
  if Path.isLong path then (t, none)
  else if Path.endsInDot path && !names.isEmpty then
    match makeSteps names.dropLast t (t.origin path) with
    | (t, some l) => (t, (names.getLast?.bind (t.step? l)).filter t.isDirectory)
    | (t, none) => (t, none)
  else makeSteps names t (t.origin path)

/-- Writes a file, unless there is a directory in its place. -/
def write? (t : FileTree) (l : Location) (text : String) : Option FileTree :=
  if t.isDirectory l then none
  else some { t with files := t.files.filter (fun f => f.1 != l) ++ [(l, text)] }

end FileTree

end Scaffold
