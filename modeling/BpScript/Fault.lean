import BpScript.Diagnostic
import BpScript.Value

/-!
# Faults

What can go wrong while a script runs, before it is known where: operators and built-in functions
raise faults, and the evaluator pins them to a stretch of source.

* `TypeFault`, `Fault` — the causes.
* `Fault.kind`, `Fault.message` — how they are reported.
* `Fault.locate` — the diagnostic at a place.
-/

namespace BpScript

/-- A value of the wrong type. -/
inductive TypeFault where
  | expectedNumber
  | expectedList
  | expectedObject
  | libraryName
  /-- A dotted assignment goes through something that is not an object. -/
  | notAnObject (name : String)
  /-- `role` says what was to be a text. -/
  | notAString (role : String) (found : ValueKind)
  | firstArgumentList
  | firstArgumentNumber
  | noLength
  | notANumeral
  | noNumber
  | noTruthValue
  deriving DecidableEq, Repr, Inhabited

/-- The text a type fault is reported with. -/
def TypeFault.message : TypeFault → String
  | expectedNumber => "Expected number"
  | expectedList => "Expected list"
  | expectedObject => "Expected object"
  | libraryName => "Lib name must be string"
  | notAnObject name => s!"'{name}' is not an object"
  | notAString role found => s!"{role} must be a string, found {found.name}"
  | firstArgumentList => "First argument must be list"
  | firstArgumentNumber => "First argument must be number"
  | noLength => "Argument must be list or string"
  | notANumeral => "A string argument must contain a number"
  | noNumber => "The argument must be a string or boolean"
  | noTruthValue => "The argument must be a string or number"

/-- What was to be done with the element at an index. -/
inductive ElementAccess where
  | retrieve
  | remove
  deriving DecidableEq, Repr, Inhabited

/-- How messages say what was to be done. -/
def ElementAccess.participle : ElementAccess → String
  | retrieve => "retrieved from list"
  | remove => "removed from list"

/-- Causes of failure. -/
inductive Fault where
  | undefined (name : String)
  | type (fault : TypeFault)
  /-- An operator does not take a value of this type. -/
  | illegalOperation (operand : ValueKind)
  | divisionByZero
  | divisionByNull
  | outOfBounds (index : Float) (access : ElementAccess)
  | tooManyArguments (function : String) (count : Nat)
  | tooFewArguments (function : String) (count : Nat)
  /-- `break` or `continue`, as spelled, outside of a loop. -/
  | outsideLoop (keyword : Keyword)
  | tooDeep (limit : Nat)
  | circularImport (path : String)
  | unreadableScript (path reason : String)
  | failedScript (path report : String)
  | io (reason : String)

namespace Fault

/-- The kind a fault is reported under. -/
def kind : Fault → ErrorKind
  | undefined _ => .name
  | type _ => .type
  | illegalOperation _ => .illegalOperation
  | divisionByZero | divisionByNull => .divisionByZero
  | outOfBounds _ _ => .indexOutOfBounds
  | tooManyArguments _ _ => .tooManyArguments
  | tooFewArguments _ _ => .tooFewArguments
  | outsideLoop _ => .invalidSyntax
  | tooDeep _ => .recursion
  | circularImport _ | unreadableScript _ _ | failedScript _ _ => .importing
  | io _ => .io

/-- The text a fault is reported with. -/
def message : Fault → String
  | undefined name => s!"'{name}' is not defined"
  | type fault => fault.message
  | illegalOperation operand => s!"Can't do this operation with the type {operand.name}"
  | divisionByZero => "Division by zero"
  | divisionByNull => "Division by null"
  | outOfBounds index access =>
    s!"Element at index {Number.render index} could not be {access.participle} " ++
      "because index is out of bounds"
  | tooManyArguments function count => s!"{count} too many args passed into '{function}'"
  | tooFewArguments function count => s!"{count} too few args passed into '{function}'"
  | outsideLoop keyword => s!"'{keyword.spelling}' outside of a loop"
  | tooDeep limit => s!"Maximum call depth of {limit} exceeded"
  | circularImport path => s!"Circular import of script \"{path}\""
  | unreadableScript path reason => s!"Failed to load script \"{path}\"\n{reason}"
  | failedScript path report => s!"Failed to finish executing script \"{path}\"\n{report}"
  | io reason => reason

/-- The fault at a place of the source. -/
def locate (fault : Fault) (span : Span) : Diagnostic :=
  { kind := fault.kind, message := fault.message, span }

end Fault

end BpScript
