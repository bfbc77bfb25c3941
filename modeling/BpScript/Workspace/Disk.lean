import BpScript.Table

/-!
# A disk

Directories and files as an operating system keeps them.  A path is walked piece by piece from the
root or the working directory; every piece but the last has to be a directory.  The last piece is
the name of a file, and slashes after it ask for a directory of that name.

* `Disk.locate` — the directory and the name in it that a path means.
* `Disk.find` — what a directory has under a name.
* `Disk.read`, `Disk.write`, `Disk.delete` — files by path.
* `Disk.addFile` — a file with all directories it needs.
-/

namespace BpScript

/-- What an operating system refuses. -/
inductive OsError where
  | notFound
  | notADirectory
  | isADirectory
  | nameTooLong
  | nulByte
  deriving DecidableEq, Repr, Inhabited

/-- How the system says it. -/
def OsError.message : OsError → String
  | notFound => "No such file or directory (os error 2)"
  | notADirectory => "Not a directory (os error 20)"
  | isADirectory => "Is a directory (os error 21)"
  | nameTooLong => "File name too long (os error 36)"
  | nulByte => "file name contained an unexpected NUL byte"

/-- A place on a disk: the names that lead to it from the root. -/
abbrev Place := List String

/-- The directories and files of a disk, and the directory that relative paths start from. -/
structure Disk where
  working : Place
  directories : List Place
  files : Table Place String
  deriving Inhabited

/-- A name in a directory that exists. -/
structure DiskName where
  directory : Place
  name : String
  /-- The name is asked for as a directory, by a slash after it. -/
  hasSlash : Bool
  deriving DecidableEq, Repr, Inhabited

/-- The place that a name stands for. -/
def DiskName.place (n : DiskName) : Place :=
  n.directory ++ [n.name]

/-- What a directory has under a name. -/
inductive DiskEntry where
  | directory
  | file (text : String)
  | nothing
  deriving DecidableEq, Repr, Inhabited

namespace Disk

/-- The number of bytes that a name has at most. -/
def nameLimit : Nat := 255

/-- The number of bytes that no path reaches. -/
def pathLimit : Nat := 4096

/-- Whether there is a directory at a place.  The root always is one. -/
def hasDirectory (d : Disk) (place : Place) : Bool :=
  place.isEmpty || d.directories.contains place

/-- What a directory has under a name. -/
def find (d : Disk) (directory : Place) (name : String) : Except OsError DiskEntry :=
  let place := directory ++ [name]
  if nameLimit < name.utf8ByteSize then .error .nameTooLong
  else if d.hasDirectory place then .ok .directory
  else
    match d.files.get? place with
    | some text => .ok (.file text)
    | none => .ok .nothing

/-- Follows pieces of a path from a directory.  Each of them has to be a directory. -/
def follow (d : Disk) : (directory : Place) → (pieces : List String) → Except OsError Place
  | here, [] => .ok here
  | here, piece :: rest =>
    if piece = "" ∨ piece = "." then d.follow here rest
    else if piece = ".." then d.follow here.dropLast rest
    else
      match d.find here piece with
      | .ok .directory => d.follow (here ++ [piece]) rest
      | .ok (.file _) => .error .notADirectory
      | .ok .nothing => .error .notFound
      | .error e => .error e

/-- The name that a path ends in.  The root, `.` and `..` are directories whatever the disk holds,
so a path that ends in one of them has no name to offer. -/
def locate (d : Disk) (path : String) : Except OsError DiskName :=
  if path.isEmpty then .error .notFound
  else if path.toList.contains '\x00' then .error .nulByte
  else if pathLimit ≤ path.utf8ByteSize then .error .nameTooLong
  else
    let start := if path.toList.head? = some '/' then [] else d.working
    let backward := (path.splitOn "/").reverse
    match backward.dropWhile (· = "") with
    | [] => .error .isADirectory
    | name :: before =>
      match d.follow start before.reverse with
      | .error e => .error e
      | .ok directory =>
        if name = "." ∨ name = ".." then .error .isADirectory
        else .ok { directory, name, hasSlash := backward.head? = some "" }

/-- The file at a path: its place and its text. -/
def fileAt (d : Disk) (path : String) : Except OsError (Place × String) := do
  let target ← d.locate path
  match ← d.find target.directory target.name with
  | .file text => if target.hasSlash then .error .notADirectory else .ok (target.place, text)
  | .directory => .error .isADirectory
  | .nothing => .error .notFound

/-- The text of the file at a path. -/
def read (d : Disk) (path : String) : Except OsError String :=
  (d.fileAt path).map Prod.snd

/-- Writes the file at a path, which is made if there is none.  A slash at the end is refused before
the name is looked up: no file is ever made or opened for writing as a directory. -/
def write (d : Disk) (path text : String) : Except OsError Disk := do
  let target ← d.locate path
  if target.hasSlash then .error .isADirectory
  else
    match ← d.find target.directory target.name with
    | .directory => .error .isADirectory
    | .file _ | .nothing => .ok { d with files := d.files.set target.place text }

/-- Deletes the file at a path. -/
def delete (d : Disk) (path : String) : Except OsError Disk :=
  (d.fileAt path).map fun (place, _) => { d with files := d.files.erase place }

/-- The places on the way to a place, itself not included. -/
def ancestors (place : Place) : List Place :=
  (List.range place.length).map place.take

/-- Puts a file at a path from the working directory, with all directories on its way. -/
def addFile (d : Disk) (path text : String) : Disk :=
  let place := d.working ++ (path.splitOn "/").filter fun piece => piece ≠ "" ∧ piece ≠ "."
  { d with
    directories := d.directories ++ (ancestors place).filter fun a => !d.directories.contains a
    files := d.files.set place text }

/-- A disk with nothing on it but the working directory. -/
def bare (working : Place) : Disk :=
  { working, directories := ancestors working ++ [working], files := [] }

end Disk

end BpScript
