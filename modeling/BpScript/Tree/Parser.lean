import BpScript.Number
import BpScript.Token.Scanner
import BpScript.Tree.Cursor

/-!
# Reading trees

The grammar, as steps that read nodes from tokens.  Only five rules are recursive (`Rule`); every
production reaches them through `sub : Rule → Parse Node`, and always after it has read a token.
`Rule.parse` ties the knot, with a bound on the nesting that the number of tokens supplies.

From loosest to tightest: `or`, `and`, prefix `not`, comparisons, `+ -`, `* /`, prefix `+ -`, `^`,
and then `.name` and calls.  All chains group to the left, except that the right side of `^` is
again a signed power.

* `Production.*` — one definition per construct.
* `statements` — a list of statements.  When a statement fails after a newline, the list ends in
  front of it, and the error is reported if nothing else can go on there.  With `rewinds` switched
  off the error is reported at once.
* `Node.parse` — a whole program.
-/

namespace BpScript

/-- The rules that nest. -/
inductive Rule where
  | expr
  | statement
  | statements
  | negation
  | signed
  deriving DecidableEq, Repr, Inhabited

/-- The groups of binary operators that bind equally tightly, loosest first. -/
inductive Level where
  | disjunction
  | conjunction
  | comparison
  | sum
  | product
  deriving DecidableEq, Repr, Inhabited

/-- The group an operator belongs to.  Powers do not form chains. -/
def BinaryOp.level? : BinaryOp → Option Level
  | .or => some .disjunction
  | .and => some .conjunction
  | .equal | .notEqual | .less | .greater | .lessEqual | .greaterEqual => some .comparison
  | .add | .subtract => some .sum
  | .multiply | .divide => some .product
  | .power => none

/-- The operator of this level that a token stands for. -/
def Level.operator? (level : Level) (kind : TokenKind) : Option BinaryOp :=
  (BinaryOp.ofToken? kind).filter (·.level? = some level)

/-- The tokens an expression can start with, as messages name them. -/
def expressionStarts : List TokenKind :=
  [.int, .float, .string, .ident, .keyword .let_, .keyword .if_, .keyword .for_, .keyword .while_,
   .keyword .func_, .keyword .switch_, .keyword .import_, .keyword .not_, .symbol .plus,
   .symbol .minus, .symbol .leftParen, .symbol .leftSquare, .symbol .leftBrace]

/-- Whether a token of this kind closes a statement list. -/
def TokenKind.closesList : TokenKind → Bool
  | .eof => true
  | .keyword .end_ | .keyword .elif_ | .keyword .else_ => true
  | .keyword .case_ | .keyword .default_ => true
  | _ => false

/-- Whether a token of this kind ends a statement. -/
def TokenKind.endsStatement (kind : TokenKind) : Bool :=
  kind = .newline || kind.closesList

namespace Production

open Parse

/-! ## Names -/

/-- The name that a token holds. -/
def identOf (token : Token) : Ident :=
  ⟨token.lexeme, token.span⟩

/-- A name. -/
def ident : Parse Ident :=
  return identOf (← expect .ident)

/-- The `.name` segments from here on.  A point that no name follows is left alone. -/
def segments : (bound : Nat) → Parse (List Ident)
  | 0 => exhausted
  | bound + 1 => do
    let cursor ← get
    match cursor.current.kind, cursor.upcoming with
    | .symbol .dot, next :: _ =>
      if next.kind = .ident then
        discard advance
        discard advance
        return identOf next :: (← segments bound)
      else return []
    | _, _ => return []

/-! ## Repetition -/

/-- Items between commas, up to and including `close`.  Newlines around items mean nothing. -/
def itemsUntil {α : Type} (close : Symbol) (item : Parse α) : (bound : Nat) → Parse (List α)
  | 0 => exhausted
  | bound + 1 => do
    let first ← item
    discard skipNewlines
    if ← accept (.symbol .comma) then
      discard skipNewlines
      return first :: (← itemsUntil close item bound)
    else
      discard <| expectAmong (.symbol close) [.symbol .comma, .symbol close]
      return [first]

/-- A bracketed sequence, from behind its opening bracket. -/
def sequence {α : Type} (bound : Nat) (close : Symbol) (item : Parse α) : Parse (List α) := do
  discard skipNewlines
  if ← accept (.symbol close) then return []
  else itemsUntil close item bound

/-- Operators of one level with the operands that follow them, grouped to the left. -/
def chainFrom (level : Level) (operand : Parse Node) : (bound : Nat) → Node → Parse Node
  | 0, _ => exhausted
  | bound + 1, lhs => do
    match level.operator? (← peekKind) with
    | none => return lhs
    | some op =>
      discard advance
      let rhs ← operand
      chainFrom level operand bound (.mk (.binary lhs op rhs) (lhs.span.through rhs.span))

/-- Operands with operators of one level between them. -/
def chain (bound : Nat) (level : Level) (operand : Parse Node) : Parse Node := do
  chainFrom level operand bound (← operand)

/-- The statements after the first one of a list. -/
def furtherStatements (rewinds : Bool) (statement : Parse Node) : (bound : Nat) → Parse (List Node)
  | 0 => exhausted
  | bound + 1 => do
    if (← skipNewlines) = 0 then return []
    else if (← peekKind).closesList then return []
    else
      let checkpoint ← get
      match statement checkpoint with
      | .ok (first, cursor) =>
        set cursor
        return first :: (← furtherStatements rewinds statement bound)
      | .error (.report e) =>
        if rewinds then
          -- leave the tokens to whoever reads on from here
          set { checkpoint with deferred := some (checkpoint.index, e) }
          return []
        else fail e
      | .error .exhausted => exhausted

/-! ## Literals and brackets -/

/-- A one-token literal. -/
def literal (form : Form) : Parse Node := do
  return .mk form (← advance).span

/-- A number. -/
def number : Parse Node := do
  let token ← advance
  match Number.parse? token.lexeme with
  | some value => return .mk (.number value) token.span
  | none => fail (SyntaxFault.invalidNumber.locate token.span)

section Constructs

variable (bound : Nat) (sub : Rule → Parse Node)

/-- An expression in parentheses, which leave no trace in the tree. -/
def group : Parse Node := do
  discard advance
  let inner ← sub .expr
  discard <| expect (.symbol .rightParen)
  return inner

/-- A list in square brackets. -/
def list : Parse Node := do
  let first ← advance
  let items ← sequence bound .rightSquare (sub .expr)
  return .mk (.list items) (← spanFrom first.span)

/-- One `key: value` of an object; the key is a name or a string. -/
def entry : Parse (Ident × Node) := do
  match ← peekKind with
  | .ident | .string =>
    let key ← advance
    discard <| expect (.symbol .colon)
    return (identOf key, ← sub .expr)
  | _ => failExpecting [.ident, .string]

/-- An object in braces. -/
def object : Parse Node := do
  let first ← advance
  let entries ← sequence bound .rightBrace (entry sub)
  return .mk (.object entries) (← spanFrom first.span)

/-! ## Names and assignments -/

/-- `let x = v`, from the `let` on. -/
def declaration (isPublic : Bool) : Parse Node := do
  let first ← advance
  let name ← ident
  discard <| expect (.symbol .equal)
  let value ← sub .expr
  return .mk (.assign name .set value true isPublic) (← spanFrom first.span)

/-- A variable, `x = v` or `a.b.c = v`.  Dotted names that are not assigned to are left for the
suffixes behind the variable. -/
def nameOrAssignment : Parse Node := do
  let name ← ident
  match AssignOp.ofToken? (← peekKind) with
  | some op =>
    discard advance
    let value ← sub .expr
    return .mk (.assign name op value false false) (name.span.through value.span)
  | none =>
    let checkpoint ← get
    let path ← segments bound
    match path, AssignOp.ofToken? (← peekKind) with
    | _ :: _, some op =>
      discard advance
      let value ← sub .expr
      return .mk (.memberAssign (name :: path) op value) (name.span.through value.span)
    | _, _ =>
      set checkpoint
      return .mk (.access name) name.span

/-! ## Bodies -/

/-- A block behind its newline, up to and including its `end`. -/
def blockUntilEnd : Parse Node := do
  let block ← sub .statements
  discard <| expect (.keyword .end_)
  return block

/-- A newline, statements and `end`; or a single statement. -/
def body : Parse Body := do
  if ← accept .newline then
    return .mk (← blockUntilEnd sub) true
  else
    return .mk (← sub .statement) false

/-- The body behind an `else`. -/
def elseBody : Parse Body := do
  discard advance
  body sub

/-- Conditions with their bodies, up to the end of the `if`.  Block arms need an `end` unless
another arm follows; inline arms end by themselves. -/
def arms : (bound : Nat) → Parse (List (Node × Body) × Option Body)
  | 0 => exhausted
  | bound + 1 => do
    let condition ← sub .expr
    discard <| expect (.keyword .then_)
    if ← accept .newline then
      let block ← sub .statements
      let arm := (condition, Body.mk block true)
      if ← accept (.keyword .end_) then return ([arm], none)
      else if ← accept (.keyword .elif_) then
        let (further, otherwise) ← arms bound
        return (arm :: further, otherwise)
      else if (← peekKind) = .keyword .else_ then return ([arm], some (← elseBody sub))
      else failExpecting [.keyword .end_, .keyword .elif_, .keyword .else_]
    else
      let statement ← sub .statement
      let arm := (condition, Body.mk statement false)
      if ← accept (.keyword .elif_) then
        let (further, otherwise) ← arms bound
        return (arm :: further, otherwise)
      else if (← peekKind) = .keyword .else_ then return ([arm], some (← elseBody sub))
      else return ([arm], none)

/-- `if … then … elif … else … end` -/
def conditional : Parse Node := do
  let first ← advance
  let (further, otherwise) ← arms sub bound
  return .mk (.ifElse further otherwise) (← spanFrom first.span)

/-! ## Loops -/

/-- What a loop runs, from its `then` on. -/
def loopBody : Parse Body := do
  discard <| expect (.keyword .then_)
  body sub

/-- `for k, v of object then …`, from behind the comma. -/
def forObject (first : Span) (key : Ident) : Parse Node := do
  let value ← ident
  discard <| expect (.keyword .of_)
  let object ← sub .expr
  let body ← loopBody sub
  return .mk (.forObject key value object body) (← spanFrom first)

/-- `for x of list then …`, from behind the `of`. -/
def forList (first : Span) (name : Ident) : Parse Node := do
  let list ← sub .expr
  let body ← loopBody sub
  return .mk (.forList name list body) (← spanFrom first)

/-- `for i = a to b step c then …`, from the equals sign on. -/
def forCount (first : Span) (name : Ident) : Parse Node := do
  discard <| expectAmong (.symbol .equal) [.symbol .equal, .symbol .comma, .keyword .of_]
  let start ← sub .expr
  discard <| expect (.keyword .to_)
  let stop ← sub .expr
  let step ← if ← accept (.keyword .step_) then some <$> sub .expr else pure none
  let body ← loopBody sub
  return .mk (.forCount name start stop step body) (← spanFrom first)

/-- The loops that start with `for`. -/
def forLoop : Parse Node := do
  let first ← advance
  let name ← ident
  if ← accept (.symbol .comma) then forObject sub first.span name
  else if ← accept (.keyword .of_) then forList sub first.span name
  else forCount sub first.span name

/-- `while … then …` -/
def whileLoop : Parse Node := do
  let first ← advance
  let condition ← sub .expr
  let body ← loopBody sub
  return .mk (.whileLoop condition body) (← spanFrom first.span)

/-! ## Functions -/

/-- Parameters between commas.  `seenOptional` says that an optional one came before. -/
def params : (bound : Nat) → (seenOptional : Bool) → Parse (List Param)
  | 0, _ => exhausted
  | bound + 1, seenOptional => do
    let name ← ident
    let optional ← accept (.symbol .question)
    if seenOptional && !optional then fail (SyntaxFault.requiredAfterOptional.locate name.span)
    else
      let param : Param := ⟨name, optional⟩
      if ← accept (.symbol .comma) then
        return param :: (← params bound (seenOptional || optional))
      else return [param]

/-- A parameter list, from behind its opening parenthesis. -/
def paramList : Parse (List Param) := do
  if (← peekKind) = .ident then
    let names ← params bound false
    discard <| expectAmong (.symbol .rightParen) [.symbol .comma, .symbol .rightParen]
    return names
  else
    discard <| expectAmong (.symbol .rightParen) [.ident, .symbol .rightParen]
    return []

/-- The body of a function, and whether its value is the value of a call. -/
def functionBody : Parse (Node × Bool) := do
  if ← accept (.symbol .arrow) then return (← sub .expr, true)
  else if ← accept .newline then return (← blockUntilEnd sub, false)
  else failExpecting [.symbol .arrow, .newline]

/-- A function, from the `func` on. -/
def function (isPublic : Bool) : Parse Node := do
  let first ← advance
  let name ← if (← peekKind) = .ident then some <$> ident else pure none
  discard <| expectAmong (.symbol .leftParen) <|
    if name.isSome then [.symbol .leftParen] else [.ident, .symbol .leftParen]
  let names ← paramList bound
  let (body, autoReturn) ← functionBody sub
  return .mk (.function (.mk name names body autoReturn isPublic)) (← spanFrom first.span)

/-- A declaration or function behind `public` or `private`. -/
def visible : Parse Node := do
  let modifier ← advance
  let isPublic := modifier.kind = .keyword .public_
  let node ← match ← peekKind with
    | .keyword .let_ => declaration sub isPublic
    | .keyword .func_ => function bound sub isPublic
    | _ => failExpecting [.keyword .let_, .keyword .func_]
  return node.withSpan (modifier.span.through node.span)

/-! ## Choices and imports -/

/-- What a case runs: the statements in front of the next case or `end`, or a single statement. -/
def caseBody : Parse Node := do
  discard <| expect (.keyword .then_)
  if (← peekKind) = .newline then sub .statements else sub .statement

/-- The cases of a `switch`, up to and including its `end`; `otherwise` is the default so far. -/
def cases : (bound : Nat) → (otherwise : Option Node) → Parse (List (Node × Node) × Option Node)
  | 0, _ => exhausted
  | bound + 1, otherwise => do
    match ← peekKind with
    | .keyword .case_ =>
      discard advance
      let pattern ← sub .expr
      let body ← caseBody sub
      discard skipNewlines
      let (further, otherwise) ← cases bound otherwise
      return ((pattern, body) :: further, otherwise)
    | .keyword .default_ =>
      if otherwise.isSome then fail (SyntaxFault.secondDefault.locate (← peek).span)
      else
        discard advance
        let body ← caseBody sub
        discard skipNewlines
        cases bound (some body)
    | .keyword .end_ =>
      discard advance
      return ([], otherwise)
    | _ => failExpecting [.keyword .case_, .keyword .default_, .keyword .end_]

/-- `switch … case … default … end` -/
def switch : Parse Node := do
  let first ← advance
  let subject ← sub .expr
  if (← skipNewlines) = 0 then failExpecting [.newline]
  else
    let (further, otherwise) ← cases sub bound none
    return .mk (.switch subject further otherwise) (← spanFrom first.span)

/-- `import … as name` -/
def importAs : Parse Node := do
  let first ← advance
  let lib ← sub .expr
  discard <| expect (.keyword .as_)
  let name ← ident
  return .mk (.importAs lib name) (← spanFrom first.span)

/-! ## Expressions -/

/-- The constructs that operators apply to. -/
def atom : Parse Node := do
  match ← peekKind with
  | .int | .float => number
  | .string => literal (.text (← peek).lexeme)
  | .keyword .true_ => literal (.boolean true)
  | .keyword .false_ => literal (.boolean false)
  | .keyword .null_ => literal .null
  | .ident => nameOrAssignment bound sub
  | .symbol .leftParen => group sub
  | .symbol .leftSquare => list bound sub
  | .symbol .leftBrace => object bound sub
  | .keyword .if_ => conditional bound sub
  | .keyword .for_ => forLoop sub
  | .keyword .while_ => whileLoop sub
  | .keyword .func_ => function bound sub false
  | .keyword .switch_ => switch bound sub
  | .keyword .import_ => importAs sub
  | .keyword .public_ | .keyword .private_ => visible bound sub
  | _ => failExpecting expressionStarts

/-- The `.name` and argument lists behind an expression. -/
def suffixes : (bound : Nat) → Node → Parse Node
  | 0, _ => exhausted
  | rest + 1, target => do
    if ← accept (.symbol .dot) then
      let name ← ident
      suffixes rest (.mk (.member target name) (target.span.through name.span))
    else if ← accept (.symbol .leftParen) then
      let args ← sequence bound .rightParen (sub .expr)
      suffixes rest (.mk (.call target args) (← spanFrom target.span))
    else return target

/-- An atom with its suffixes. -/
def suffixed : Parse Node := do
  suffixes bound sub bound (← atom bound sub)

/-- `base ^ exponent`, where the exponent may carry signs and is read as far as it goes. -/
def power : Parse Node := do
  let base ← suffixed bound sub
  if ← accept (.symbol .caret) then
    let exponent ← sub .signed
    return .mk (.binary base .power exponent) (base.span.through exponent.span)
  else return base

/-- Signs in front of a power. -/
def signed : Parse Node := do
  let first ← peek
  match first.kind with
  | .symbol .plus =>
    discard advance
    let operand ← sub .signed
    return .mk (.unary .plus operand) (← spanFrom first.span)
  | .symbol .minus =>
    discard advance
    let operand ← sub .signed
    return .mk (.unary .minus operand) (← spanFrom first.span)
  | _ => power bound sub

/-- `not` in front of a comparison. -/
def negation : Parse Node := do
  let first ← peek
  if first.kind = .keyword .not_ then
    discard advance
    let operand ← sub .negation
    return .mk (.unary .not operand) (← spanFrom first.span)
  else
    chain bound .comparison <| chain bound .sum <| chain bound .product <| signed bound sub

/-- An expression. -/
def expr : Parse Node := do
  if (← peekKind) = .keyword .let_ then declaration sub false
  else chain bound .disjunction <| chain bound .conjunction <| negation bound sub

/-! ## Statements -/

/-- A statement. -/
def statement : Parse Node := do
  let first ← peek
  match first.kind with
  | .keyword .return_ =>
    discard advance
    if (← peekKind).endsStatement then
      return .mk (.returnValue none) (← spanFrom first.span)
    else
      let value ← expr bound sub
      return .mk (.returnValue (some value)) (← spanFrom first.span)
  | .keyword .continue_ => literal .continueLoop
  | .keyword .break_ => literal .breakLoop
  | _ => expr bound sub

/-- Statements with newlines between them, up to what closes the list. -/
def statements (rewinds : Bool) : Parse Node := do
  let first ← peek
  discard skipNewlines
  let leading ← if (← peekKind).closesList then pure [] else List.singleton <$> statement bound sub
  let further ← furtherStatements rewinds (statement bound sub) bound
  return .mk (.block (leading ++ further)) (← spanFrom first.span)

end Constructs

end Production

namespace Rule

/-- What a rule reads, when `sub` reads the rules it nests. -/
def produce (rewinds : Bool) (bound : Nat) (sub : Rule → Parse Node) : Rule → Parse Node
  | expr => Production.expr bound sub
  | statement => Production.statement bound sub
  | statements => Production.statements bound sub rewinds
  | negation => Production.negation bound sub
  | signed => Production.signed bound sub

/-- Reads a rule.  `bound` limits how deep rules nest and how often they repeat. -/
def parseWithin (rewinds : Bool) : (bound : Nat) → Rule → Parse Node
  | 0, _ => Parse.exhausted
  | bound + 1, rule => produce rewinds (bound + 1) (parseWithin rewinds bound) rule

/-- Reads a rule from a cursor.  Rules nest only behind a token they have read, so the number of
tokens bounds their nesting. -/
def parse (rewinds : Bool) (rule : Rule) : Parse Node := do
  parseWithin rewinds ((← get).upcoming.length + 2) rule

end Rule

/-- Runs a step on a list of tokens, which has to end in `eof`.  No tokens at all are read as an
empty source. -/
def Parse.run (step : Parse Node) : List Token → Except ParseFailure Node
  | [] => step.run' (.start ⟨.eof, default, ""⟩ [])
  | first :: rest => step.run' (.start first rest)

/-- A whole program: statements up to the end of the tokens. -/
def Rule.program (rewinds : Bool) : Parse Node := do
  let root ← Rule.statements.parse rewinds
  if (← Parse.peekKind) = .eof then return root
  else Parse.failHere .expectedContinuation

/-- Reads the program that a list of tokens makes. -/
def Node.parse (tokens : List Token) : Except ParseFailure Node :=
  (Rule.program true).run tokens

/-- Reads the program that a source holds. -/
def Node.ofSource (source : Source) : Except ParseFailure Node := do
  let tokens ← (tokenize source).mapError .report
  Node.parse tokens

end BpScript
