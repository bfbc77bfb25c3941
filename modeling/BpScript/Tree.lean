import BpScript.Token

/-!
# Script trees

A script is read into a tree.  Every node says what it is (`Form`) and which stretch of source it
was read from.  Statements and expressions are one sort: `if`, loops and declarations have values,
and may stand wherever an expression may.

* `Form` — the sorts of nodes.
* `Body` — what an arm of an `if` or a loop runs, and whether it was written as a block.
* `BinaryOp.ofToken?`, `UnaryOp.ofToken?`, `AssignOp.ofToken?` — the operators tokens stand for.
-/

namespace BpScript

/-- A name with the place it was written at. -/
structure Ident where
  name : String
  span : Span
  deriving DecidableEq, Repr, Inhabited

/-- Operators in front of their operand. -/
inductive UnaryOp where
  | plus
  | minus
  | not
  deriving DecidableEq, Repr, Inhabited

/-- The unary operator a token stands for. -/
def UnaryOp.ofToken? : TokenKind → Option UnaryOp
  | .symbol .plus => some .plus
  | .symbol .minus => some .minus
  | .keyword .not_ => some .not
  | _ => none

/-- Operators between two operands. -/
inductive BinaryOp where
  | add
  | subtract
  | multiply
  | divide
  | power
  | equal
  | notEqual
  | less
  | greater
  | lessEqual
  | greaterEqual
  | and
  | or
  deriving DecidableEq, Repr, Inhabited

namespace BinaryOp

/-- How the operator is written. -/
def spelling : BinaryOp → String
  | add => "+"
  | subtract => "-"
  | multiply => "*"
  | divide => "/"
  | power => "^"
  | equal => "=="
  | notEqual => "!="
  | less => "<"
  | greater => ">"
  | lessEqual => "<="
  | greaterEqual => ">="
  | and => "and"
  | or => "or"

/-- The binary operator a token stands for. -/
def ofToken? : TokenKind → Option BinaryOp
  | .symbol .plus => some add
  | .symbol .minus => some subtract
  | .symbol .star => some multiply
  | .symbol .slash => some divide
  | .symbol .caret => some power
  | .symbol .equalEqual => some equal
  | .symbol .bangEqual => some notEqual
  | .symbol .less => some less
  | .symbol .greater => some greater
  | .symbol .lessEqual => some lessEqual
  | .symbol .greaterEqual => some greaterEqual
  | .keyword .and_ => some and
  | .keyword .or_ => some or
  | _ => none

end BinaryOp

/-- The ways to assign: `=`, `+=` and `-=`. -/
inductive AssignOp where
  | set
  | add
  | subtract
  deriving DecidableEq, Repr, Inhabited

/-- The assignment a token stands for. -/
def AssignOp.ofToken? : TokenKind → Option AssignOp
  | .symbol .equal => some .set
  | .symbol .plusEqual => some .add
  | .symbol .minusEqual => some .subtract
  | _ => none

/-- A parameter of a function.  An optional one may be left out of a call. -/
structure Param where
  ident : Ident
  optional : Bool
  deriving DecidableEq, Repr, Inhabited

mutual

/-- A piece of a script, with the stretch of source it was read from. -/
inductive Node where
  | mk (form : Form) (span : Span)

/-- What an arm of an `if` or a loop runs.  One written as a block has no value of its own. -/
inductive Body where
  | mk (node : Node) (isBlock : Bool)

/-- A function as it is written.  With `autoReturn` the value of the body is the value of a call;
otherwise only a `return` gives one. -/
inductive Function where
  | mk (name : Option Ident) (params : List Param) (body : Node) (autoReturn isPublic : Bool)

/-- The sorts of nodes. -/
inductive Form where
  | number (value : Float)
  | text (value : String)
  | boolean (value : Bool)
  | null
  | list (items : List Node)
  | object (entries : List (Ident × Node))
  /-- A variable. -/
  | access (ident : Ident)
  /-- `target.member`, where the member is a name and never an expression. -/
  | member (target : Node) (member : Ident)
  /-- `let x = v` declares, `x = v` gives a new value to a name that is already bound. -/
  | assign (ident : Ident) (op : AssignOp) (value : Node) (declares isPublic : Bool)
  /-- `a.b.c = v` -/
  | memberAssign (path : List Ident) (op : AssignOp) (value : Node)
  | binary (lhs : Node) (op : BinaryOp) (rhs : Node)
  | unary (op : UnaryOp) (operand : Node)
  /-- Conditions with their bodies, in order, and what runs if none of them holds. -/
  | ifElse (arms : List (Node × Body)) (otherwise : Option Body)
  /-- Patterns with what they run, in order, and what runs if none of them matches. -/
  | switch (subject : Node) (cases : List (Node × Node)) (otherwise : Option Node)
  | forCount (ident : Ident) (first last : Node) (step : Option Node) (body : Body)
  | forList (ident : Ident) (list : Node) (body : Body)
  | forObject (key value : Ident) (object : Node) (body : Body)
  | whileLoop (condition : Node) (body : Body)
  | function (definition : Function)
  | call (callee : Node) (args : List Node)
  | importAs (lib : Node) (name : Ident)
  | returnValue (value : Option Node)
  | breakLoop
  | continueLoop
  /-- A statement list.  Its value is the list of its statements' values. -/
  | block (statements : List Node)

end

namespace Node

/-- What the node is. -/
def form : Node → Form
  | mk form _ => form

/-- The stretch of source the node was read from. -/
def span : Node → Span
  | mk _ span => span

@[simp] theorem form_mk (form : Form) (span : Span) : (mk form span).form = form := rfl

@[simp] theorem span_mk (form : Form) (span : Span) : (mk form span).span = span := rfl

instance : Inhabited Node := ⟨mk .null default⟩

/-- The same node, read from another stretch of source. -/
def withSpan (node : Node) (span : Span) : Node :=
  mk node.form span

end Node

namespace Body

/-- What runs. -/
def node : Body → Node
  | mk node _ => node

/-- Whether it was written as a block. -/
def isBlock : Body → Bool
  | mk _ isBlock => isBlock

end Body

namespace Function

/-- The name the function was given, if any. -/
def ident : Function → Option Ident
  | mk name _ _ _ _ => name

/-- The parameters, in order. -/
def params : Function → List Param
  | mk _ params _ _ _ => params

/-- What a call runs. -/
def body : Function → Node
  | mk _ _ body _ _ => body

/-- Whether the value of the body is the value of a call. -/
def autoReturn : Function → Bool
  | mk _ _ _ autoReturn _ => autoReturn

/-- Whether a module exports the function. -/
def isPublic : Function → Bool
  | mk _ _ _ _ isPublic => isPublic

/-- What calls are listed under in a traceback. -/
def name (f : Function) : String :=
  match f.ident with
  | some ident => ident.name
  | none => "<anonymous>"

end Function

end BpScript
