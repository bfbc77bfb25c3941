/-!
# The console

What a script shows and reads, as a record of what happened and the lines that are still to be read.

* `print`, `input`, `clear` — what scripts do with it.
* `lines` — what has been shown since the console was last cleared, line by line.
* `screen` — the same record as a terminal receives it.
* `linesOf` — the lines of a text that is typed in.
-/

namespace BpScript

/-- Something that happened on the console. -/
inductive ConsoleEvent where
  | printed (text : String)
  | prompted (text : String)
  | cleared
  deriving DecidableEq, Repr, Inhabited

/-- What happened so far, and the lines still to be read. -/
structure Console where
  events : Array ConsoleEvent
  pending : List String
  deriving Inhabited

namespace Console

/-- A console on which nothing happened yet. -/
def waiting (pending : List String) : Console := ⟨#[], pending⟩

/-- Shows a line. -/
def print (c : Console) (text : String) : Console :=
  { c with events := c.events.push (.printed text) }

/-- Clears the console. -/
def clear (c : Console) : Console :=
  { c with events := c.events.push .cleared }

/-- Shows a prompt and reads a line, which is empty when there is none left. -/
def input (c : Console) (prompt : String) : String × Console :=
  let events := c.events.push (.prompted prompt)
  match c.pending with
  | [] => ("", ⟨events, []⟩)
  | line :: rest => (line, ⟨events, rest⟩)

/-- The lines that an event leaves on the console. -/
def linesAfter (lines : Array String) : ConsoleEvent → Array String
  | .printed text => lines.push text
  | .prompted text => if text.isEmpty then lines else lines.push text
  | .cleared => #[]

/-- What has been shown since the console was last cleared.  An empty prompt shows nothing. -/
def lines (c : Console) : Array String :=
  c.events.foldl linesAfter #[]

/-- What a terminal receives for an event. -/
def transmitted : ConsoleEvent → String
  | .printed text => text ++ "\n"
  | .prompted text => text
  | .cleared => "\x1b[2J\x1b[1;1H"

/-- What a terminal receives. -/
def screen (c : Console) : String :=
  String.join (c.events.toList.map transmitted)

/-- The lines of a text, without the returns and newlines at their ends. -/
def linesOf (text : String) : List String :=
  let lines := text.splitOn "\n"
  let complete := if lines.getLast? = some "" then lines.dropLast else lines
  complete.map fun line => String.ofList ((line.toList.reverse.dropWhile (· = '\r')).reverse)

end Console

end BpScript
