/-!
# Source text and places in it

A script is a named text.  Diagnostics point into it with zero-based lines and columns, where a
column counts characters, and with an index that counts the bytes of the text's UTF-8 form.

* `Position.advance` — the place after one more character; `Position.after` iterates it.
* `Source.line` — one line of the text, without its newline.
* `Span.underline` — the lines a span covers, each above a line of carets.
-/

namespace BpScript

/-- A named piece of source text. -/
structure Source where
  name : String
  text : String
  deriving DecidableEq, Repr, Inhabited

/-- A place in a text, reached by reading the characters before it. -/
structure Position where
  line : Nat
  column : Nat
  index : Nat
  deriving DecidableEq, Repr, Inhabited

namespace Position

/-- The place before the first character. -/
def origin : Position := ⟨0, 0, 0⟩

/-- The place after reading `c` here: a newline opens the next line, any other character moves one
column on. -/
def advance (p : Position) (c : Char) : Position :=
  if c = '\n' then ⟨p.line + 1, 0, p.index + c.utf8Size⟩
  else ⟨p.line, p.column + 1, p.index + c.utf8Size⟩

/-- The place after reading all of `cs` here. -/
def after (p : Position) (cs : List Char) : Position :=
  cs.foldl advance p

@[simp] theorem after_nil (p : Position) : p.after [] = p := rfl

@[simp] theorem after_cons (p : Position) (c : Char) (cs : List Char) :
    p.after (c :: cs) = (p.advance c).after cs := rfl

/-- Reading two stretches of text one after the other is reading their concatenation. -/
theorem after_append (p : Position) (cs ds : List Char) :
    p.after (cs ++ ds) = (p.after cs).after ds := by
  simp [after]

end Position

namespace Source

/-- The characters after the first newline of `cs`; none when there is no newline. -/
def belowFirstLine (cs : List Char) : List Char :=
  (cs.dropWhile (· ≠ '\n')).drop 1

/-- Line `n` of a text, counted from zero.  A line past the end is empty. -/
def lineOf : Nat → List Char → List Char
  | _, [] => []
  | 0, c :: cs => (c :: cs).takeWhile (· ≠ '\n')
  | n + 1, c :: cs => lineOf n (belowFirstLine (c :: cs))

/-- Line `n` of the source, counted from zero and without its newline. -/
def line (source : Source) (n : Nat) : String :=
  String.ofList (lineOf n source.text.toList)

end Source

/-- A stretch of a source, from `start` up to `stop`. -/
structure Span where
  source : Source
  start : Position
  stop : Position
  deriving DecidableEq, Repr, Inhabited

namespace Span

/-- The stretch from the start of `first` to the end of `last`. -/
def through (first last : Span) : Span :=
  { first with stop := last.stop }

/-- Where the span begins, as diagnostics say it: people count lines from one. -/
def location (span : Span) : String :=
  s!"File {span.source.name}, line {span.start.line + 1}"

/-- Removes the carriage returns at the end of a line. -/
def chompReturns (line : List Char) : List Char :=
  (line.reverse.dropWhile (· = '\r')).reverse

/-- The two rows that show what the span covers of line `n`: the line itself, and carets under the
covered columns.  A caret is always shown, even if nothing of the line is covered. -/
def underlineRows (span : Span) (n : Nat) : List (List Char) :=
  let text := chompReturns (Source.lineOf n span.source.text.toList)
  let left := if n = span.start.line then min span.start.column text.length else 0
  let right := if n = span.stop.line then min span.stop.column text.length else text.length
  [text, List.replicate left ' ' ++ List.replicate (max (right - left) 1) '^']

/-- The lines that the span touches, in order.  A span that ends before it starts touches the line
it starts on. -/
def lineNumbers (span : Span) : List Nat :=
  List.range' span.start.line (span.stop.line - span.start.line + 1)

/-- The source lines under the span, each followed by its row of carets. -/
def underline (span : Span) : String :=
  "\n".intercalate ((span.lineNumbers.flatMap span.underlineRows).map String.ofList)

end Span

end BpScript
