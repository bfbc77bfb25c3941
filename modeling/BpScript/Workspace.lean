import BpScript.Path
import BpScript.Workspace.Disk

/-!
# Workspaces

Where scripts find libraries and files.  A workspace has a root directory and a library directory;
its files are on a disk, or only in memory.

* `resolveLib`, `resolveFile` — which path a library name or a file name means.
* `read`, `write`, `delete` — files by path.
* `memory` — a workspace in memory, whose files are told apart by the components of their paths.
-/

namespace BpScript

/-- The extension of scripts. -/
def scriptExtension : String := "bp"

/-- Where files are kept. -/
inductive Storage where
  | memory (files : Table (List Path.Component) String)
  | disk (disk : Disk)
  deriving Inhabited

/-- Why a file could not be used. -/
inductive FileError where
  /-- There is no such file in memory. -/
  | missing (path : String)
  | os (error : OsError)
  deriving DecidableEq, Repr, Inhabited

/-- How a file error is reported. -/
def FileError.message : FileError → String
  | missing path => s!"No such file: {path}"
  | os error => error.message

/-- Where a script's libraries and files are. -/
structure Workspace where
  root : String
  libDir : String
  storage : Storage
  deriving Inhabited

namespace Workspace

/-! ## Names -/

/-- Removes every `./` from the front of a text. -/
def dropCurrents : List Char → List Char
  | '.' :: '/' :: cs => dropCurrents cs
  | cs => cs

/-- The path of a library.  A name with the extension of scripts is taken from the root, any other
is looked for in the library directory. -/
def resolveLibFrom (root libDir lib : String) : String :=
  if Path.extension? lib = some scriptExtension then
    Path.join root (String.ofList (dropCurrents lib.toList))
  else Path.join libDir s!"{lib}.{scriptExtension}"

/-- The path of a file.  Relative names are taken from the root. -/
def resolveFileFrom (root file : String) : String :=
  if Path.isAbsolute file then file else Path.join root (Path.stripCurrent file)

/-- The path that a library name means here. -/
def resolveLib (w : Workspace) (lib : String) : String :=
  resolveLibFrom w.root w.libDir lib

/-- The path that a file name means here. -/
def resolveFile (w : Workspace) (file : String) : String :=
  resolveFileFrom w.root file

/-! ## Files -/

/-- The text of the file at a path. -/
def read (w : Workspace) (path : String) : Except FileError String :=
  match w.storage with
  | .memory files =>
    match files.get? (Path.components path) with
    | some text => .ok text
    | none => .error (.missing path)
  | .disk disk => (disk.read path).mapError .os

/-- Writes the file at a path. -/
def write (w : Workspace) (path text : String) : Except FileError Workspace :=
  match w.storage with
  | .memory files =>
    .ok { w with storage := .memory (files.set (Path.components path) text) }
  | .disk disk =>
    match disk.write path text with
    | .ok disk => .ok { w with storage := .disk disk }
    | .error e => .error (.os e)

/-- Deletes the file at a path. -/
def delete (w : Workspace) (path : String) : Except FileError Workspace :=
  match w.storage with
  | .memory files =>
    let key := Path.components path
    if files.has key then .ok { w with storage := .memory (files.erase key) }
    else .error (.missing path)
  | .disk disk =>
    match disk.delete path with
    | .ok disk => .ok { w with storage := .disk disk }
    | .error e => .error (.os e)

/-! ## In memory -/

/-- The root of a workspace in memory. -/
def memoryRoot : String := "/workspace"

/-- A workspace in memory without files. -/
def memory : Workspace :=
  { root := memoryRoot, libDir := "/workspace/lib", storage := .memory [] }

/-- Adds a file, by its path from the root. -/
def withFile (w : Workspace) (path text : String) : Workspace :=
  match w.write (Path.join w.root path) text with
  | .ok w => w
  | .error _ => w

/-- The text of a file, by its path from the root. -/
def file? (w : Workspace) (path : String) : Option String :=
  (w.read (Path.join w.root path)).toOption

end Workspace

end BpScript
