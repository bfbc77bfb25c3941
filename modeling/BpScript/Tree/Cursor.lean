import BpScript.Diagnostic
import BpScript.Tree

/-!
# Walking along tokens

A cursor stands on one token of a list and moves forward over it.  `Parse` is the type of steps that
read something from a cursor: they move it, or fail.

* `SyntaxFault` — what can be wrong with the order of the tokens, and how it is said.
* `Cursor` — the current token, those after it, and where the token before it ended.
* `peek`, `advance`, `accept`, `expect`, `skipNewlines` — the elementary steps.
* `failExpecting` — the failure at the current token.  If a statement list has backtracked to this
  very token, the error it met there is reported instead.
-/

namespace BpScript

/-- What can be wrong with the order of the tokens. -/
inductive SyntaxFault where
  /-- None of these kinds of token stands here. -/
  | expected (kinds : List TokenKind)
  /-- A statement is followed by something that neither continues nor ends it. -/
  | expectedContinuation
  /-- A required parameter follows an optional one. -/
  | requiredAfterOptional
  /-- A `switch` has a second `default`. -/
  | secondDefault
  /-- A number token holds no number. -/
  | invalidNumber
  deriving DecidableEq, Repr, Inhabited

/-- Joins alternatives as in `a, b or c`. -/
def orList : List String → String
  | [] => ""
  | [last] => last
  | [first, last] => s!"{first} or {last}"
  | first :: rest => s!"{first}, {orList rest}"

/-- The text a syntax fault is reported with. -/
def SyntaxFault.message : SyntaxFault → String
  | expected kinds => s!"Expected {orList (kinds.map TokenKind.display)}"
  | expectedContinuation =>
    "Expected '+', '-', '*', '/', '^', '.', '(', a comparison, 'and', 'or' or newline"
  | requiredAfterOptional => "Expected '?': required parameters cannot follow optional ones"
  | secondDefault => "Expected 'case' or 'end': a switch can only have one 'default'"
  | invalidNumber => "Invalid number"

/-- A syntax fault at a place of the source. -/
def SyntaxFault.locate (fault : SyntaxFault) (span : Span) : Diagnostic :=
  { kind := .invalidSyntax, message := fault.message, span }

/-- A place in a list of tokens. -/
structure Cursor where
  /-- The number of tokens before the current one. -/
  index : Nat
  current : Token
  upcoming : List Token
  /-- Where the token before the current one ends; at the first token, where that one ends. -/
  lastStop : Position
  /-- The error at which a statement list gave up, with the index it went back to. -/
  deferred : Option (Nat × Diagnostic)
  deriving Repr, Inhabited

namespace Cursor

/-- The cursor on `first`, which `rest` follows. -/
def start (first : Token) (rest : List Token) : Cursor :=
  { index := 0, current := first, upcoming := rest, lastStop := first.span.stop, deferred := none }

/-- Moves past the current token.  The last token, which is `eof`, is never left. -/
def advance (c : Cursor) : Cursor :=
  match c.upcoming with
  | [] => c
  | next :: rest =>
    { c with
      index := c.index + 1
      current := next
      upcoming := rest
      lastStop := c.current.span.stop }

/-- Moves past `n` tokens. -/
def advanceBy : Nat → Cursor → Cursor
  | 0, c => c
  | n + 1, c => advanceBy n c.advance

/-- The number of newline tokens from here on. -/
def newlines (c : Cursor) : Nat :=
  ((c.current :: c.upcoming).takeWhile (·.kind = .newline)).length

/-- The stretch from `first` to the end of the token before the current one.  If nothing has been
read since then, it is `first` alone. -/
def spanFrom (c : Cursor) (first : Span) : Span :=
  if c.lastStop.index < first.start.index then first else { first with stop := c.lastStop }

/-- The error to report when `fault` is found at the current token. -/
def failure (c : Cursor) (fault : SyntaxFault) : Diagnostic :=
  match c.deferred with
  | some (index, e) => if index = c.index then e else fault.locate c.current.span
  | none => fault.locate c.current.span

end Cursor

/-- Why a parse stops. -/
inductive ParseFailure where
  | report (error : Diagnostic)
  /-- The bound on nesting and repetition, computed from the number of tokens, was too low. -/
  | exhausted
  deriving Repr, Inhabited

/-- A step that reads an `α` from a cursor, and moves it. -/
abbrev Parse (α : Type) := StateT Cursor (Except ParseFailure) α

namespace Parse

variable {α : Type}

/-- Gives up for lack of a bound. -/
def exhausted : Parse α :=
  throw .exhausted

/-- Fails with an error of its own. -/
def fail (error : Diagnostic) : Parse α :=
  throw (.report error)

/-- Fails at the current token. -/
def failHere (fault : SyntaxFault) : Parse α := do
  fail ((← get).failure fault)

/-- Fails because none of `kinds` stands here. -/
def failExpecting (kinds : List TokenKind) : Parse α :=
  failHere (.expected kinds)

/-- The current token. -/
def peek : Parse Token :=
  return (← get).current

/-- The kind of the current token. -/
def peekKind : Parse TokenKind :=
  return (← get).current.kind

/-- Moves past the current token and gives it back. -/
def advance : Parse Token := do
  let cursor ← get
  set cursor.advance
  return cursor.current

/-- Moves past the current token if it is a `kind`, and says whether it was. -/
def accept (kind : TokenKind) : Parse Bool := do
  if (← peekKind) = kind then
    discard advance
    return true
  else return false

/-- Moves past a token of `kind`.  If another stands here, the failure names `kinds`. -/
def expectAmong (kind : TokenKind) (kinds : List TokenKind) : Parse Token := do
  if (← peekKind) = kind then advance
  else failExpecting kinds

/-- Moves past a token of `kind`, which has to stand here. -/
def expect (kind : TokenKind) : Parse Token :=
  expectAmong kind [kind]

/-- Moves past all newlines here and says how many there were. -/
def skipNewlines : Parse Nat := do
  let cursor ← get
  set (cursor.advanceBy cursor.newlines)
  return cursor.newlines

/-- The stretch from `first` to here. -/
def spanFrom (first : Span) : Parse Span :=
  return (← get).spanFrom first

end Parse

end BpScript
