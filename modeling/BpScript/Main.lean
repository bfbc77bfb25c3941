import BpScript.CommandLine

/-!
# The program

Runs a command on the real disk.  The directories that a script works in are taken over before it
runs, and what it changed is written back afterwards; everything in between is `Command.run`.
-/

namespace BpScript

namespace Place

/-- The place that a path leads to from the root. -/
def ofPath (path : String) : Place :=
  (path.splitOn "/").filter fun piece => piece ≠ "" ∧ piece ≠ "."

/-- The path of a place. -/
def toPath (place : Place) : String :=
  "/" ++ "/".intercalate place

end Place

namespace Disk

/-- Takes a directory over, with all that is in it.  Files that hold no text are left out. -/
partial def takeOver (disk : Disk) (place : Place) : IO Disk := do
  match ← (IO.FS.realPath place.toPath).toBaseIO with
  | .error _ => return disk
  | .ok path =>
    unless ← path.isDir do return disk
    let mut disk : Disk := { disk with directories := place :: disk.directories }
    for entry in ← path.readDir do
      let next : Place := place ++ [entry.fileName]
      if ← entry.path.isDir then
        disk ← takeOver disk next
      else
        match ← (IO.FS.readFile entry.path).toBaseIO with
        | .ok text => disk := { disk with files := disk.files.set next text }
        | .error _ => pure ()
    return disk

/-- Writes back what changed since `before`. -/
def writeBack (before after : Disk) : IO Unit := do
  for (place, text) in after.files do
    unless before.files.get? place = some text do
      IO.FS.writeFile place.toPath text
  for (place, _) in before.files do
    unless after.files.has place do
      IO.FS.removeFile place.toPath

/-- The disk as far as a command may use it: the script's directory and the library directory. -/
def forCommand (args : List String) : IO Disk := do
  let working := (← IO.currentDir).toString
  let bare := Disk.bare (Place.ofPath working)
  match Options.parse? args with
  | none => return bare
  | some options =>
    let disk ← bare.takeOver (Place.ofPath (Path.join working (Command.rootOf options.file)))
    match options.libDir with
    | none => return disk
    | some dir => disk.takeOver (Place.ofPath (Path.join working dir))

end Disk

end BpScript

open BpScript in
/-- Runs a command.  A script asks for input by the name of a built-in function, so a command waits
for what is typed in only if one of its files holds that name. -/
def main (args : List String) : IO UInt32 := do
  let disk ← Disk.forCommand args
  let asks := disk.files.any fun file => Text.contains file.2 Global.input.name
  let stdin ← if asks then (← IO.getStdin).readToEnd else pure ""
  let result := Command.run disk args stdin
  (← IO.getStdout).putStr result.stdout
  (← IO.getStderr).putStr result.stderr
  if result.code = 2 then
    IO.eprintln "Usage: SCRIPT.bp [--lib-dir DIR] [--print-result] [--verbose]"
  disk.writeBack result.disk
  return result.code.toUInt32
