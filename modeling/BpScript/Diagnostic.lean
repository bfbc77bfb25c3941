import BpScript.Source

/-!
# Diagnostics

Everything that can stop a script is reported in one form: a kind, a message, the span it is about,
and the calls it escaped from on its way out.

* `Diagnostic.render` — kind, message, location and underlined source.
* `Diagnostic.traceback` — the same, below the chain of calls with the outermost first.
-/

namespace BpScript

/-- The families of failures. -/
inductive ErrorKind where
  | illegalCharacter
  | expectedCharacter
  | invalidSyntax
  | name
  | type
  | tooManyArguments
  | tooFewArguments
  | divisionByZero
  | illegalOperation
  | indexOutOfBounds
  | importing
  | recursion
  | io
  deriving DecidableEq, Repr, Inhabited

namespace ErrorKind

/-- The heading under which a kind is reported. -/
def title : ErrorKind → String
  | illegalCharacter => "Illegal Character"
  | expectedCharacter => "Expected Character"
  | invalidSyntax => "Invalid Syntax"
  | name => "Name Error"
  | type => "Type Error"
  | tooManyArguments => "Too Many Arguments"
  | tooFewArguments => "Too Few Arguments"
  | divisionByZero => "Division By Zero"
  | illegalOperation => "Illegal Operation"
  | indexOutOfBounds => "Index Out Of Bounds"
  | importing => "Import Error"
  | recursion => "Recursion Error"
  | io => "IO Error"

end ErrorKind

/-- A call that an error left: the context the call was made from, and the call expression. -/
structure Frame where
  context : String
  span : Span
  deriving DecidableEq, Repr, Inhabited

/-- A failure with its place in the source.  `trace` lists the calls it left, innermost first. -/
structure Diagnostic where
  kind : ErrorKind
  message : String
  span : Span
  trace : Array Frame := #[]
  deriving DecidableEq, Repr, Inhabited

namespace Diagnostic

/-- Records that the error left a call. -/
def leaving (d : Diagnostic) (context : String) (call : Span) : Diagnostic :=
  { d with trace := d.trace.push ⟨context, call⟩ }

/-- Kind and message, then where, then the underlined source. -/
def render (d : Diagnostic) : String :=
  s!"{d.kind.title}: {d.message}\n{d.span.location}\n{d.span.underline}"

/-- One line of a traceback. -/
def frameLine (frame : Frame) : String :=
  s!"  {frame.span.location}, in {frame.context}\n"

/-- The rendered error below the calls it left, outermost first.  An error that left no call is
rendered alone. -/
def traceback (d : Diagnostic) : String :=
  if d.trace.isEmpty then d.render
  else
    "Traceback (most recent call last):\n" ++
      String.join (d.trace.toList.reverse.map frameLine) ++ d.render

end Diagnostic

end BpScript
