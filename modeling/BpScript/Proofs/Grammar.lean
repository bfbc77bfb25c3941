import BpScript.Proofs.Reading
import BpScript.Proofs.Word

/-!
# The grammar

What a stretch of tokens can be read as, said by rules and not by steps of a parser.  A rule relates
two cursors: the tokens from the first one up to the second one make up a phrase.  Chains of
operators and suffixes are grouped to the left by the rules themselves.

* `Category` — the places in the grammar where a node is read.
* `Phrase` — a node at such a place, or a part of a construct that is not a node.
* `Cursor.Step` — one token of a kind.
* **`Derives`** — the rules.  They are those of the productions, and every tree that a parser builds
  has a derivation.
-/

namespace BpScript

open Production

/-- The places in the grammar where a node is read. -/
inductive Category where
  | statements
  | statement
  | expr
  | chain (level : Level)
  | negation
  | signed
  | power
  | suffixed
  | atom
  /-- A declaration, from its `let` on, or a function, from its `func` on. -/
  | definition (isPublic : Bool)
  /-- What a case of a `switch` runs, from its `then` on. -/
  | caseBody
  deriving DecidableEq, Repr

/-- What stands between the operators of a level. -/
def Level.operand : Level → Category
  | disjunction => .chain .conjunction
  | conjunction => .negation
  | comparison => .chain .sum
  | sum => .chain .product
  | product => .signed

/-- What a rule reads. -/
def Rule.category : Rule → Category
  | expr => .expr
  | statement => .statement
  | statements => .statements
  | negation => .negation
  | signed => .signed

/-- One part of a `switch`: a pattern, or none for the default, with what it runs. -/
abbrev Clause := Option Node × Node

/-- The cases among the parts of a `switch`. -/
def Clause.cases (clauses : List Clause) : List (Node × Node) :=
  clauses.filterMap fun clause => clause.1.map (·, clause.2)

/-- The defaults among the parts of a `switch`. -/
def Clause.defaults (clauses : List Clause) : List Node :=
  (clauses.filter (·.1.isNone)).map (·.2)

/-- What a stretch of tokens can be read as. -/
inductive Phrase where
  | node (category : Category) (node : Node)
  /-- The statements behind the first one of a list. -/
  | further (statements : List Node)
  /-- The `.name` segments of a path that is assigned to. -/
  | segments (path : List Ident)
  /-- Items in brackets, from behind the opening bracket. -/
  | sequence (close : Symbol) (items : List Phrase)
  /-- At least one item, up to the closing bracket. -/
  | items (close : Symbol) (items : List Phrase)
  /-- One `key: value` of an object. -/
  | entry (entry : Ident × Node)
  | body (body : Body)
  /-- One arm of an `if`, without what closes it. -/
  | arm (arm : Node × Body)
  | arms (arms : List (Node × Body)) (otherwise : Option Body)
  /-- The name of a function, if it has one. -/
  | functionName (name : Option Ident)
  | param (param : Param)
  /-- Parameters between commas, behind an optional one or not. -/
  | params (seenOptional : Bool) (params : List Param)
  /-- A parameter list, from behind its opening parenthesis. -/
  | paramList (params : List Param)
  | functionBody (body : Node) (autoReturn : Bool)
  /-- The parts of a `switch`, up to and including its `end`. -/
  | clauses (clauses : List Clause)

/-- `c` stands on a token of `kind`, and `c'` behind it. -/
structure Cursor.Step (kind : TokenKind) (c c' : Cursor) : Prop where
  kind : c.current.kind = kind
  next : c' = c.advance

/-- The rules of the grammar: `Derives phrase c c'` says that the tokens from `c` up to `c'` make up
`phrase`.  In the names `c`, `c₁`, `c₂`, … cursors stand in the order of the text. -/
inductive Derives : Phrase → Cursor → Cursor → Prop where
  -- statements
  | noStatement {c c' : Cursor} {nodes : List Node} :
      c.behindNewlines.current.kind.closesList = true →
      Derives (.further nodes) c.behindNewlines c' →
      Derives (.node .statements (.mk (.block nodes) (c'.spanFrom c.current.span))) c c'
  | statements {c c₁ c' : Cursor} {first : Node} {nodes : List Node} :
      Derives (.node .statement first) c.behindNewlines c₁ → Derives (.further nodes) c₁ c' →
      Derives (.node .statements (.mk (.block (first :: nodes)) (c'.spanFrom c.current.span))) c c'
  | noFurther {c : Cursor} : Derives (.further []) c c.behindNewlines
  | further {c c₁ c' : Cursor} {first : Node} {nodes : List Node} :
      c.newlines ≠ 0 → Derives (.node .statement first) c.behindNewlines c₁ →
      Derives (.further nodes) c₁ c' → Derives (.further (first :: nodes)) c c'
  | bareReturn {c c' : Cursor} : c.Step (.keyword .return_) c' →
      c'.current.kind.endsStatement = true →
      Derives (.node .statement (.mk (.returnValue none) (c'.spanFrom c.current.span))) c c'
  | returnValue {c c₁ c' : Cursor} {value : Node} : c.Step (.keyword .return_) c₁ →
      Derives (.node .expr value) c₁ c' →
      Derives (.node .statement (.mk (.returnValue (some value)) (c'.spanFrom c.current.span))) c c'
  | continueLoop {c c' : Cursor} : c.Step (.keyword .continue_) c' →
      Derives (.node .statement (.mk .continueLoop c.current.span)) c c'
  | breakLoop {c c' : Cursor} : c.Step (.keyword .break_) c' →
      Derives (.node .statement (.mk .breakLoop c.current.span)) c c'
  | exprStatement {c c' : Cursor} {node : Node} : Derives (.node .expr node) c c' →
      Derives (.node .statement node) c c'
  -- expressions
  | letExpr {c c' : Cursor} {node : Node} : c.current.kind = .keyword .let_ →
      Derives (.node (.definition false) node) c c' → Derives (.node .expr node) c c'
  | expr {c c' : Cursor} {node : Node} : Derives (.node (.chain .disjunction) node) c c' →
      Derives (.node .expr node) c c'
  | operand {c c' : Cursor} {level : Level} {node : Node} :
      Derives (.node level.operand node) c c' → Derives (.node (.chain level) node) c c'
  | binary {c c₁ c' : Cursor} {level : Level} {lhs rhs : Node} {op : BinaryOp} :
      Derives (.node (.chain level) lhs) c c₁ → level.operator? c₁.current.kind = some op →
      Derives (.node level.operand rhs) c₁.advance c' →
      Derives (.node (.chain level) (.mk (.binary lhs op rhs) (lhs.span.through rhs.span))) c c'
  | not {c c₁ c' : Cursor} {operand : Node} : c.Step (.keyword .not_) c₁ →
      Derives (.node .negation operand) c₁ c' →
      Derives (.node .negation (.mk (.unary .not operand) (c'.spanFrom c.current.span))) c c'
  | negation {c c' : Cursor} {node : Node} : Derives (.node (.chain .comparison) node) c c' →
      Derives (.node .negation node) c c'
  | plus {c c₁ c' : Cursor} {operand : Node} : c.Step (.symbol .plus) c₁ →
      Derives (.node .signed operand) c₁ c' →
      Derives (.node .signed (.mk (.unary .plus operand) (c'.spanFrom c.current.span))) c c'
  | minus {c c₁ c' : Cursor} {operand : Node} : c.Step (.symbol .minus) c₁ →
      Derives (.node .signed operand) c₁ c' →
      Derives (.node .signed (.mk (.unary .minus operand) (c'.spanFrom c.current.span))) c c'
  | signed {c c' : Cursor} {node : Node} : Derives (.node .power node) c c' →
      Derives (.node .signed node) c c'
  | base {c c' : Cursor} {node : Node} : Derives (.node .suffixed node) c c' →
      Derives (.node .power node) c c'
  | power {c c₁ c₂ c' : Cursor} {base exponent : Node} : Derives (.node .suffixed base) c c₁ →
      c₁.Step (.symbol .caret) c₂ → Derives (.node .signed exponent) c₂ c' →
      Derives (.node .power
        (.mk (.binary base .power exponent) (base.span.through exponent.span))) c c'
  | atom {c c' : Cursor} {node : Node} : Derives (.node .atom node) c c' →
      Derives (.node .suffixed node) c c'
  | member {c c₁ c₂ c' : Cursor} {target : Node} : Derives (.node .suffixed target) c c₁ →
      c₁.Step (.symbol .dot) c₂ → c₂.Step .ident c' →
      Derives (.node .suffixed (.mk (.member target (identOf c₂.current))
        (target.span.through c₂.current.span))) c c'
  | call {c c₁ c₂ c' : Cursor} {callee : Node} {args : List Node} :
      Derives (.node .suffixed callee) c c₁ → c₁.Step (.symbol .leftParen) c₂ →
      Derives (.sequence .rightParen (args.map (.node .expr))) c₂ c' →
      Derives (.node .suffixed (.mk (.call callee args) (c'.spanFrom callee.span))) c c'
  -- literals, names and brackets
  | int {c c' : Cursor} {value : Float} : c.Step .int c' →
      Number.parse? c.current.lexeme = some value →
      Derives (.node .atom (.mk (.number value) c.current.span)) c c'
  | float {c c' : Cursor} {value : Float} : c.Step .float c' →
      Number.parse? c.current.lexeme = some value →
      Derives (.node .atom (.mk (.number value) c.current.span)) c c'
  | text {c c' : Cursor} : c.Step .string c' →
      Derives (.node .atom (.mk (.text c.current.lexeme) c.current.span)) c c'
  | true_ {c c' : Cursor} : c.Step (.keyword .true_) c' →
      Derives (.node .atom (.mk (.boolean true) c.current.span)) c c'
  | false_ {c c' : Cursor} : c.Step (.keyword .false_) c' →
      Derives (.node .atom (.mk (.boolean false) c.current.span)) c c'
  | null {c c' : Cursor} : c.Step (.keyword .null_) c' →
      Derives (.node .atom (.mk .null c.current.span)) c c'
  | access {c c' : Cursor} : c.Step .ident c' →
      Derives (.node .atom (.mk (.access (identOf c.current)) c.current.span)) c c'
  | assign {c c₁ c' : Cursor} {op : AssignOp} {value : Node} : c.Step .ident c₁ →
      AssignOp.ofToken? c₁.current.kind = some op → Derives (.node .expr value) c₁.advance c' →
      Derives (.node .atom (.mk (.assign (identOf c.current) op value false false)
        (c.current.span.through value.span))) c c'
  | memberAssign {c c₁ c₂ c' : Cursor} {path : List Ident} {op : AssignOp} {value : Node} :
      c.Step .ident c₁ → Derives (.segments path) c₁ c₂ → path ≠ [] →
      AssignOp.ofToken? c₂.current.kind = some op → Derives (.node .expr value) c₂.advance c' →
      Derives (.node .atom (.mk (.memberAssign (identOf c.current :: path) op value)
        (c.current.span.through value.span))) c c'
  | noSegment {c : Cursor} : Derives (.segments []) c c
  | segment {c c₁ c₂ c' : Cursor} {path : List Ident} : c.Step (.symbol .dot) c₁ →
      c₁.Step .ident c₂ → Derives (.segments path) c₂ c' →
      Derives (.segments (identOf c₁.current :: path)) c c'
  | group {c c₁ c₂ c' : Cursor} {node : Node} : c.Step (.symbol .leftParen) c₁ →
      Derives (.node .expr node) c₁ c₂ → c₂.Step (.symbol .rightParen) c' →
      Derives (.node .atom node) c c'
  | list {c c₁ c' : Cursor} {items : List Node} : c.Step (.symbol .leftSquare) c₁ →
      Derives (.sequence .rightSquare (items.map (.node .expr))) c₁ c' →
      Derives (.node .atom (.mk (.list items) (c'.spanFrom c.current.span))) c c'
  | object {c c₁ c' : Cursor} {entries : List (Ident × Node)} : c.Step (.symbol .leftBrace) c₁ →
      Derives (.sequence .rightBrace (entries.map .entry)) c₁ c' →
      Derives (.node .atom (.mk (.object entries) (c'.spanFrom c.current.span))) c c'
  | entry {c c₁ c₂ c' : Cursor} {kind : TokenKind} {value : Node} :
      kind = .ident ∨ kind = .string → c.Step kind c₁ → c₁.Step (.symbol .colon) c₂ →
      Derives (.node .expr value) c₂ c' → Derives (.entry (identOf c.current, value)) c c'
  | noItem {c c' : Cursor} {close : Symbol} : close.isClosing = true →
      c.behindNewlines.Step (.symbol close) c' → Derives (.sequence close []) c c'
  | sequence {c c' : Cursor} {close : Symbol} {items : List Phrase} :
      Derives (.items close items) c.behindNewlines c' → Derives (.sequence close items) c c'
  | lastItem {c c₁ c' : Cursor} {close : Symbol} {item : Phrase} : Derives item c c₁ →
      close.isClosing = true → c₁.behindNewlines.Step (.symbol close) c' →
      Derives (.items close [item]) c c'
  | item {c c₁ c₂ c' : Cursor} {close : Symbol} {item : Phrase} {items : List Phrase} :
      Derives item c c₁ → c₁.behindNewlines.Step (.symbol .comma) c₂ →
      Derives (.items close items) c₂.behindNewlines c' →
      Derives (.items close (item :: items)) c c'
  -- definitions
  | declaration {c c₁ c₂ c₃ c' : Cursor} {isPublic : Bool} {value : Node} :
      c.Step (.keyword .let_) c₁ → c₁.Step .ident c₂ → c₂.Step (.symbol .equal) c₃ →
      Derives (.node .expr value) c₃ c' →
      Derives (.node (.definition isPublic) (.mk
        (.assign (identOf c₁.current) .set value true isPublic) (c'.spanFrom c.current.span))) c c'
  | function {c c₁ c₂ c₃ c₄ c' : Cursor} {isPublic : Bool} {name : Option Ident}
      {params : List Param} {body : Node} {autoReturn : Bool} :
      c.Step (.keyword .func_) c₁ → Derives (.functionName name) c₁ c₂ →
      c₂.Step (.symbol .leftParen) c₃ → Derives (.paramList params) c₃ c₄ →
      Derives (.functionBody body autoReturn) c₄ c' →
      Derives (.node (.definition isPublic) (.mk
        (.function (.mk name params body autoReturn isPublic)) (c'.spanFrom c.current.span))) c c'
  | functionAtom {c c' : Cursor} {node : Node} : c.current.kind = .keyword .func_ →
      Derives (.node (.definition false) node) c c' → Derives (.node .atom node) c c'
  | visible {c c₁ c' : Cursor} {modifier : Keyword} {node : Node} :
      modifier = .public_ ∨ modifier = .private_ → c.Step (.keyword modifier) c₁ →
      Derives (.node (.definition (modifier = .public_)) node) c₁ c' →
      Derives (.node .atom (node.withSpan (c.current.span.through node.span))) c c'
  | anonymous {c : Cursor} : Derives (.functionName none) c c
  | functionName {c c' : Cursor} : c.Step .ident c' →
      Derives (.functionName (some (identOf c.current))) c c'
  | required {c c' : Cursor} : c.Step .ident c' → Derives (.param ⟨identOf c.current, false⟩) c c'
  | optional {c c₁ c' : Cursor} : c.Step .ident c₁ → c₁.Step (.symbol .question) c' →
      Derives (.param ⟨identOf c.current, true⟩) c c'
  | lastParam {c c' : Cursor} {seenOptional : Bool} {param : Param} : Derives (.param param) c c' →
      (seenOptional = true → param.optional = true) → Derives (.params seenOptional [param]) c c'
  | params {c c₁ c₂ c' : Cursor} {seenOptional : Bool} {param : Param} {params : List Param} :
      Derives (.param param) c c₁ → (seenOptional = true → param.optional = true) →
      c₁.Step (.symbol .comma) c₂ →
      Derives (.params (seenOptional || param.optional) params) c₂ c' →
      Derives (.params seenOptional (param :: params)) c c'
  | noParam {c c' : Cursor} : c.Step (.symbol .rightParen) c' → Derives (.paramList []) c c'
  | paramList {c c₁ c' : Cursor} {params : List Param} : Derives (.params false params) c c₁ →
      c₁.Step (.symbol .rightParen) c' → Derives (.paramList params) c c'
  | arrowBody {c c₁ c' : Cursor} {body : Node} : c.Step (.symbol .arrow) c₁ →
      Derives (.node .expr body) c₁ c' → Derives (.functionBody body true) c c'
  | blockBody {c c₁ c₂ c' : Cursor} {body : Node} : c.Step .newline c₁ →
      Derives (.node .statements body) c₁ c₂ → c₂.Step (.keyword .end_) c' →
      Derives (.functionBody body false) c c'
  -- bodies and arms
  | block {c c₁ c₂ c' : Cursor} {node : Node} : c.Step .newline c₁ →
      Derives (.node .statements node) c₁ c₂ → c₂.Step (.keyword .end_) c' →
      Derives (.body (.mk node true)) c c'
  | inline {c c' : Cursor} {node : Node} : Derives (.node .statement node) c c' →
      Derives (.body (.mk node false)) c c'
  | blockArm {c c₁ c₂ c₃ c' : Cursor} {condition node : Node} :
      Derives (.node .expr condition) c c₁ → c₁.Step (.keyword .then_) c₂ → c₂.Step .newline c₃ →
      Derives (.node .statements node) c₃ c' → Derives (.arm (condition, .mk node true)) c c'
  | inlineArm {c c₁ c₂ c' : Cursor} {condition node : Node} :
      Derives (.node .expr condition) c c₁ → c₁.Step (.keyword .then_) c₂ →
      Derives (.node .statement node) c₂ c' → Derives (.arm (condition, .mk node false)) c c'
  | lastBlockArm {c c₁ c' : Cursor} {condition node : Node} :
      Derives (.arm (condition, .mk node true)) c c₁ → c₁.Step (.keyword .end_) c' →
      Derives (.arms [(condition, .mk node true)] none) c c'
  | lastInlineArm {c c' : Cursor} {condition node : Node} :
      Derives (.arm (condition, .mk node false)) c c' →
      Derives (.arms [(condition, .mk node false)] none) c c'
  | elseArm {c c₁ c₂ c' : Cursor} {arm : Node × Body} {otherwise : Body} : Derives (.arm arm) c c₁ →
      c₁.Step (.keyword .else_) c₂ → Derives (.body otherwise) c₂ c' →
      Derives (.arms [arm] (some otherwise)) c c'
  | arms {c c₁ c₂ c' : Cursor} {arm : Node × Body} {arms : List (Node × Body)}
      {otherwise : Option Body} : Derives (.arm arm) c c₁ → c₁.Step (.keyword .elif_) c₂ →
      Derives (.arms arms otherwise) c₂ c' → Derives (.arms (arm :: arms) otherwise) c c'
  | conditional {c c₁ c' : Cursor} {arms : List (Node × Body)} {otherwise : Option Body} :
      c.Step (.keyword .if_) c₁ → Derives (.arms arms otherwise) c₁ c' →
      Derives (.node .atom (.mk (.ifElse arms otherwise) (c'.spanFrom c.current.span))) c c'
  -- loops
  | forObject {c c₁ c₂ c₃ c₄ c₅ c₆ c₇ c' : Cursor} {object : Node} {body : Body} :
      c.Step (.keyword .for_) c₁ → c₁.Step .ident c₂ → c₂.Step (.symbol .comma) c₃ →
      c₃.Step .ident c₄ → c₄.Step (.keyword .of_) c₅ → Derives (.node .expr object) c₅ c₆ →
      c₆.Step (.keyword .then_) c₇ → Derives (.body body) c₇ c' →
      Derives (.node .atom (.mk (.forObject (identOf c₁.current) (identOf c₃.current) object body)
        (c'.spanFrom c.current.span))) c c'
  | forList {c c₁ c₂ c₃ c₄ c₅ c' : Cursor} {list : Node} {body : Body} :
      c.Step (.keyword .for_) c₁ → c₁.Step .ident c₂ → c₂.Step (.keyword .of_) c₃ →
      Derives (.node .expr list) c₃ c₄ → c₄.Step (.keyword .then_) c₅ →
      Derives (.body body) c₅ c' →
      Derives (.node .atom (.mk (.forList (identOf c₁.current) list body)
        (c'.spanFrom c.current.span))) c c'
  | forCount {c c₁ c₂ c₃ c₄ c₅ c₆ c₇ c' : Cursor} {first last : Node} {body : Body} :
      c.Step (.keyword .for_) c₁ → c₁.Step .ident c₂ → c₂.Step (.symbol .equal) c₃ →
      Derives (.node .expr first) c₃ c₄ → c₄.Step (.keyword .to_) c₅ →
      Derives (.node .expr last) c₅ c₆ → c₆.Step (.keyword .then_) c₇ →
      Derives (.body body) c₇ c' →
      Derives (.node .atom (.mk (.forCount (identOf c₁.current) first last none body)
        (c'.spanFrom c.current.span))) c c'
  | forCountStep {c c₁ c₂ c₃ c₄ c₅ c₆ c₇ c₈ c₉ c' : Cursor} {first last step : Node} {body : Body} :
      c.Step (.keyword .for_) c₁ → c₁.Step .ident c₂ → c₂.Step (.symbol .equal) c₃ →
      Derives (.node .expr first) c₃ c₄ → c₄.Step (.keyword .to_) c₅ →
      Derives (.node .expr last) c₅ c₆ → c₆.Step (.keyword .step_) c₇ →
      Derives (.node .expr step) c₇ c₈ → c₈.Step (.keyword .then_) c₉ → Derives (.body body) c₉ c' →
      Derives (.node .atom (.mk (.forCount (identOf c₁.current) first last (some step) body)
        (c'.spanFrom c.current.span))) c c'
  | whileLoop {c c₁ c₂ c₃ c' : Cursor} {condition : Node} {body : Body} :
      c.Step (.keyword .while_) c₁ → Derives (.node .expr condition) c₁ c₂ →
      c₂.Step (.keyword .then_) c₃ → Derives (.body body) c₃ c' →
      Derives (.node .atom (.mk (.whileLoop condition body) (c'.spanFrom c.current.span))) c c'
  -- choices and imports
  | blockCase {c c₁ c' : Cursor} {node : Node} : c.Step (.keyword .then_) c₁ →
      c₁.current.kind = .newline → Derives (.node .statements node) c₁ c' →
      Derives (.node .caseBody node) c c'
  | inlineCase {c c₁ c' : Cursor} {node : Node} : c.Step (.keyword .then_) c₁ →
      Derives (.node .statement node) c₁ c' → Derives (.node .caseBody node) c c'
  | noClause {c c' : Cursor} : c.Step (.keyword .end_) c' → Derives (.clauses []) c c'
  | caseClause {c c₁ c₂ c₃ c' : Cursor} {pattern body : Node} {clauses : List Clause} :
      c.Step (.keyword .case_) c₁ → Derives (.node .expr pattern) c₁ c₂ →
      Derives (.node .caseBody body) c₂ c₃ → Derives (.clauses clauses) c₃.behindNewlines c' →
      Derives (.clauses ((some pattern, body) :: clauses)) c c'
  | defaultClause {c c₁ c₂ c' : Cursor} {body : Node} {clauses : List Clause} :
      c.Step (.keyword .default_) c₁ → Derives (.node .caseBody body) c₁ c₂ →
      Derives (.clauses clauses) c₂.behindNewlines c' →
      Derives (.clauses ((none, body) :: clauses)) c c'
  | switch {c c₁ c₂ c' : Cursor} {subject : Node} {clauses : List Clause}
      {otherwise : Option Node} : c.Step (.keyword .switch_) c₁ →
      Derives (.node .expr subject) c₁ c₂ → c₂.newlines ≠ 0 →
      Derives (.clauses clauses) c₂.behindNewlines c' →
      Clause.defaults clauses = otherwise.toList →
      Derives (.node .atom (.mk (.switch subject (Clause.cases clauses) otherwise)
        (c'.spanFrom c.current.span))) c c'
  | importAs {c c₁ c₂ c₃ c' : Cursor} {lib : Node} : c.Step (.keyword .import_) c₁ →
      Derives (.node .expr lib) c₁ c₂ → c₂.Step (.keyword .as_) c₃ → c₃.Step .ident c' →
      Derives (.node .atom (.mk (.importAs lib (identOf c₃.current)) (c'.spanFrom c.current.span)))
        c c'

end BpScript
