import BpScript.Session

/-!
# The command line

A command runs one script from a disk: `script.bp [--lib-dir DIR] [--print-result] [--verbose]`.

* `Options.parse?` — the options that arguments give, or none if they are not understood.
* `Command.run` — everything a command does, given the disk and what is typed in.
-/

namespace BpScript

/-- What a command is to do. -/
structure Options where
  file : String
  libDir : Option String
  printResult : Bool
  verbose : Bool
  deriving DecidableEq, Repr, Inhabited

/-- Options while they are being read: the file may still be missing. -/
structure PartialOptions where
  file : Option String
  libDir : Option String
  printResult : Bool
  verbose : Bool
  deriving DecidableEq, Repr, Inhabited

namespace PartialOptions

/-- No options yet. -/
def none : PartialOptions := ⟨.none, .none, false, false⟩

/-- Sets the script, of which there can only be one. -/
def setFile (o : PartialOptions) (file : String) : Option PartialOptions :=
  if o.file.isSome || file.isEmpty then .none else some { o with file := some file }

/-- Sets the library directory, which can only be given once. -/
def setLibDir (o : PartialOptions) (dir : String) : Option PartialOptions :=
  if o.libDir.isSome || dir.isEmpty then .none else some { o with libDir := some dir }

/-- Asks for the result, once. -/
def setPrintResult (o : PartialOptions) : Option PartialOptions :=
  if o.printResult then .none else some { o with printResult := true }

/-- Asks for a log, once. -/
def setVerbose (o : PartialOptions) : Option PartialOptions :=
  if o.verbose then .none else some { o with verbose := true }

end PartialOptions

/-- Whether an argument is an option and not a name.  A lone dash is a name. -/
def isOption (arg : String) : Bool :=
  arg.toList.head? = some '-' && arg ≠ "-"

/-- The text behind `--lib-dir=`, if an argument has that form. -/
def libDirValue? (arg : String) : Option String :=
  let marker := "--lib-dir=".toList
  if marker.isPrefixOf arg.toList then some (String.ofList (arg.toList.drop marker.length))
  else none

namespace Options

/-- Reads arguments one by one.  Behind `--` everything is a name; `onlyNames` says that it came. -/
def read : (onlyNames : Bool) → PartialOptions → List String → Option PartialOptions
  | _, o, [] => some o
  | true, o, arg :: rest => (o.setFile arg).bind (read true · rest)
  | false, o, "--" :: rest => read true o rest
  | false, o, "--print-result" :: rest => o.setPrintResult.bind (read false · rest)
  | false, o, "--verbose" :: rest => o.setVerbose.bind (read false · rest)
  | false, o, "-v" :: rest => o.setVerbose.bind (read false · rest)
  | false, o, "--lib-dir" :: dir :: rest =>
    if isOption dir then none else (o.setLibDir dir).bind (read false · rest)
  | false, o, arg :: rest =>
    match libDirValue? arg with
    | some dir => (o.setLibDir dir).bind (read false · rest)
    | none => if isOption arg then none else (o.setFile arg).bind (read false · rest)

/-- The options that arguments give. -/
def parse? (args : List String) : Option Options := do
  let o ← read false .none args
  let file ← o.file
  return ⟨file, o.libDir, o.printResult, o.verbose⟩

end Options

/-- What a command leaves: its exit status, what it wrote, and the disk. -/
structure CommandResult where
  code : Nat
  stdout : String
  stderr : String
  disk : Disk
  deriving Inhabited

namespace Command

/-- The directory of a script. -/
def rootOf (file : String) : String :=
  let dir := Path.parent file
  if dir.isEmpty then "." else dir

/-- A command that stops before it runs anything. -/
def refuse (disk : Disk) (code : Nat) (stderr : String) : CommandResult :=
  ⟨code, "", stderr, disk⟩

/-- The disk after a run that began on `disk`. -/
def diskOf (disk : Disk) (w : Workspace) : Disk :=
  match w.storage with
  | .disk after => after
  | .memory _ => disk

/-- Runs a script with the text `text`. -/
def runScript (disk : Disk) (options : Options) (text stdin : String) : CommandResult :=
  let root := rootOf options.file
  let libDir := options.libDir.getD (Path.join root "lib")
  let name := (Path.fileName? options.file).getD options.file
  let session := Session.start (.waiting (Console.linesOf stdin)) ⟨root, libDir, .disk disk⟩
  let (outcome, session) := session.run ⟨name, text⟩
  let console := session.machine.console
  let after := diskOf disk session.workspace
  match outcome with
  | .value v =>
    let result := if options.printResult then session.machine.store.render v ++ "\n" else ""
    ⟨0, console.screen ++ result, "", after⟩
  | .error e => ⟨1, console.screen ++ e.traceback ++ "\n", "", after⟩
  | .unfinished => ⟨1, console.screen, "", after⟩

/-- Runs a command.  Arguments that are not understood give the status 2, all other failures 1. -/
def run (disk : Disk) (args : List String) (stdin : String) : CommandResult :=
  match Options.parse? args with
  | none => refuse disk 2 ""
  | some options =>
    if Path.extension? options.file ≠ some scriptExtension then
      refuse disk 1 s!"Expected a .{scriptExtension} file, got {options.file}\n"
    else
      match disk.read options.file with
      | .error e => refuse disk 1 s!"Failed to read {options.file}: {e.message}\n"
      | .ok text => runScript disk options text stdin

end Command

end BpScript
