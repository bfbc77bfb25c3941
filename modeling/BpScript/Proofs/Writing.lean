import BpScript.Proofs.Word
import BpScript.Tree.Parser

/-!
# Writing trees

How a tree is written down in words.  Parentheses are needed where a form is looser than the place
it stands at, and may be written anywhere else; a style says where they are.

* `Node.erase` — a tree without the places it was read from.
* `Grade` — how tightly a form holds together, and how tightly a place wants it to.
* `Style` — where parentheses are written.  `Style.full` writes them around every part,
  `Style.sparing` only where a grade requires them.
* `Node.words` — the words of a tree.
* `WellFormed` — the trees of the language.
* `WellFormed.sayable` — there are tokens for all of their words.
-/

namespace BpScript

/-! ## Trees without places -/

/-- The name alone. -/
def Ident.erase (ident : Ident) : Ident :=
  ⟨ident.name, default⟩

/-- The parameter without the place of its name. -/
def Param.erase (param : Param) : Param :=
  ⟨param.ident.erase, param.optional⟩

mutual

/-- The node, with nothing left of where it was read from. -/
def Node.erase : Node → Node
  | .mk form _ => .mk form.erase default

/-- The body without places. -/
def Body.erase : Body → Body
  | .mk node isBlock => .mk node.erase isBlock

/-- The form without places. -/
def Form.erase : Form → Form
  | .number value => .number value
  | .text value => .text value
  | .boolean value => .boolean value
  | .null => .null
  | .list items => .list (eraseNodes items)
  | .object entries => .object (eraseEntries entries)
  | .access ident => .access ident.erase
  | .member target name => .member target.erase name.erase
  | .assign ident op value declares isPublic =>
    .assign ident.erase op value.erase declares isPublic
  | .memberAssign path op value => .memberAssign (path.map Ident.erase) op value.erase
  | .binary lhs op rhs => .binary lhs.erase op rhs.erase
  | .unary op operand => .unary op operand.erase
  | .ifElse arms none => .ifElse (eraseArms arms) none
  | .ifElse arms (some otherwise) => .ifElse (eraseArms arms) (some otherwise.erase)
  | .switch subject cases none => .switch subject.erase (eraseCases cases) none
  | .switch subject cases (some otherwise) =>
    .switch subject.erase (eraseCases cases) (some otherwise.erase)
  | .forCount ident first last none body =>
    .forCount ident.erase first.erase last.erase none body.erase
  | .forCount ident first last (some step) body =>
    .forCount ident.erase first.erase last.erase (some step.erase) body.erase
  | .forList ident list body => .forList ident.erase list.erase body.erase
  | .forObject key value object body =>
    .forObject key.erase value.erase object.erase body.erase
  | .whileLoop condition body => .whileLoop condition.erase body.erase
  | .function (.mk name params body autoReturn isPublic) =>
    .function (.mk (name.map Ident.erase) (params.map Param.erase) body.erase autoReturn isPublic)
  | .call callee args => .call callee.erase (eraseNodes args)
  | .importAs lib name => .importAs lib.erase name.erase
  | .returnValue none => .returnValue none
  | .returnValue (some value) => .returnValue (some value.erase)
  | .breakLoop => .breakLoop
  | .continueLoop => .continueLoop
  | .block statements => .block (eraseNodes statements)

/-- The nodes without places. -/
def eraseNodes : List Node → List Node
  | [] => []
  | node :: nodes => node.erase :: eraseNodes nodes

/-- The entries without places. -/
def eraseEntries : List (Ident × Node) → List (Ident × Node)
  | [] => []
  | (key, value) :: entries => (key.erase, value.erase) :: eraseEntries entries

/-- The arms without places. -/
def eraseArms : List (Node × Body) → List (Node × Body)
  | [] => []
  | (condition, body) :: arms => (condition.erase, body.erase) :: eraseArms arms

/-- The cases without places. -/
def eraseCases : List (Node × Node) → List (Node × Node)
  | [] => []
  | (pattern, body) :: cases => (pattern.erase, body.erase) :: eraseCases cases

end

theorem eraseNodes_eq_map : ∀ nodes : List Node, eraseNodes nodes = nodes.map Node.erase
  | [] => rfl
  | node :: nodes => congrArg (node.erase :: ·) (eraseNodes_eq_map nodes)

theorem eraseEntries_eq_map : ∀ entries : List (Ident × Node),
    eraseEntries entries = entries.map fun entry => (entry.1.erase, entry.2.erase)
  | [] => rfl
  | entry :: entries =>
    congrArg ((entry.1.erase, entry.2.erase) :: ·) (eraseEntries_eq_map entries)

theorem eraseArms_eq_map : ∀ arms : List (Node × Body),
    eraseArms arms = arms.map fun arm => (arm.1.erase, arm.2.erase)
  | [] => rfl
  | arm :: arms => congrArg ((arm.1.erase, arm.2.erase) :: ·) (eraseArms_eq_map arms)

theorem eraseCases_eq_map : ∀ cases : List (Node × Node),
    eraseCases cases = cases.map fun case => (case.1.erase, case.2.erase)
  | [] => rfl
  | case :: cases => congrArg ((case.1.erase, case.2.erase) :: ·) (eraseCases_eq_map cases)

/-! Parts that may be missing keep their places in the form. -/

namespace Form

theorem erase_ifElse (arms : List (Node × Body)) (otherwise : Option Body) :
    (ifElse arms otherwise).erase = .ifElse (eraseArms arms) (otherwise.map Body.erase) := by
  cases otherwise <;> simp only [Form.erase, Option.map]

theorem erase_switch (subject : Node) (cases : List (Node × Node)) (otherwise : Option Node) :
    (switch subject cases otherwise).erase =
      .switch subject.erase (eraseCases cases) (otherwise.map Node.erase) := by
  cases otherwise <;> simp only [Form.erase, Option.map]

theorem erase_forCount (ident : Ident) (first last : Node) (step : Option Node) (body : Body) :
    (forCount ident first last step body).erase =
      .forCount ident.erase first.erase last.erase (step.map Node.erase) body.erase := by
  cases step <;> simp only [Form.erase, Option.map]

end Form

/-! ## Grades -/

/-- How tightly a form holds together, and how tightly a place wants it to, loosest first. -/
inductive Grade where
  /-- Forms that a statement may consist of: declarations, conditionals, loops and so on. -/
  | loose
  /-- Expressions that an `else` may follow. -/
  | whole
  | chain (level : Level)
  | negation
  | sign
  | power
  | suffix
  | atom
  deriving DecidableEq, Repr

namespace Grade

/-- The place of a grade among the others. -/
def rank : Grade → Nat
  | .loose => 0
  | .whole => 1
  | .chain .disjunction => 2
  | .chain .conjunction => 3
  | .negation => 4
  | .chain .comparison => 5
  | .chain .sum => 6
  | .chain .product => 7
  | .sign => 8
  | .power => 9
  | .suffix => 10
  | .atom => 11

instance : LE Grade := ⟨fun g h => g.rank ≤ h.rank⟩

instance : LT Grade := ⟨fun g h => g.rank < h.rank⟩

instance (g h : Grade) : Decidable (g ≤ h) := Nat.decLe g.rank h.rank

instance (g h : Grade) : Decidable (g < h) := Nat.decLt g.rank h.rank

theorem rank_injective : Function.Injective rank := by
  intro g h
  rcases g with _ | _ | (_ | _ | _ | _ | _) | _ | _ | _ | _ | _ <;>
    rcases h with _ | _ | (_ | _ | _ | _ | _) | _ | _ | _ | _ | _ <;> simp [rank]

end Grade

/-- What has to stand between the operators of a level. -/
def Level.tighter : Level → Grade
  | disjunction => .chain .conjunction
  | conjunction => .negation
  | comparison => .chain .sum
  | sum => .chain .product
  | product => .sign

namespace BinaryOp

/-- How tightly the operator holds its operands together. -/
def grade (op : BinaryOp) : Grade :=
  match op.level? with
  | some level => .chain level
  | none => .power

/-- The place in front of the operator.  Chains group to the left. -/
def left (op : BinaryOp) : Grade :=
  match op.level? with
  | some level => .chain level
  | none => .suffix

/-- The place behind the operator. -/
def right (op : BinaryOp) : Grade :=
  match op.level? with
  | some level => level.tighter
  | none => .sign

end BinaryOp

/-- How tightly the operator holds its operand.  The place behind it wants as much. -/
def UnaryOp.grade : UnaryOp → Grade
  | plus | minus => .sign
  | not => .negation

/-- How tightly a form holds together. -/
def Form.grade : Form → Grade
  | .number _ | .text _ | .boolean _ | .null | .list _ | .object _ | .access _ => .atom
  | .member _ _ | .call _ _ => .suffix
  | .binary _ op _ => op.grade
  | .unary op _ => op.grade
  | _ => .loose

/-- Whether a form leaves a loop or a function.  Parentheses cannot be written around it. -/
def Form.isSignal : Form → Bool
  | .returnValue _ | .breakLoop | .continueLoop => true
  | _ => false

/-- Whether a node is a statement list. -/
def Node.isBlock (node : Node) : Bool :=
  match node.form with
  | .block _ => true
  | _ => false

/-! ## Styles -/

/-- A way to write trees: around which nodes parentheses stand at which places, and whether a
newline follows the last statement of a list. -/
structure Style where
  wraps : Grade → Node → Bool
  trailing : Bool
  /-- A form that is looser than its place has parentheses. -/
  covers {place : Grade} {node : Node} : node.form.grade < place → wraps place node = true
  /-- Between a statement and what closes its list there is a newline or a parenthesis, so an `else`
  is not read as a part of the statement. -/
  closes : trailing = true ∨ ∀ node, wraps .loose node = true

namespace Style

/-- Parentheses around every part. -/
def full : Style where
  wraps _ _ := true
  trailing := false
  covers _ := rfl
  closes := .inr fun _ => rfl

/-- Parentheses only where they are required. -/
def sparing : Style where
  wraps place node := node.form.grade < place
  trailing := true
  covers h := decide_eq_true h
  closes := .inl rfl

/-- The words of a node at a place. -/
def enclose (style : Style) (place : Grade) (node : Node) (words : List Word) : List Word :=
  if !node.form.isSignal && style.wraps place node then
    .symbol .leftParen :: words ++ [.symbol .rightParen]
  else words

/-- The words of a body: a block on lines of its own, or a single statement. -/
def layOut (style : Style) (body : Node) (words : List Word) : List Word :=
  if body.isBlock then .newline :: words else style.enclose .whole body words

/-- Statements on lines of their own. -/
def lines (style : Style) (statements : List (List Word)) : List Word :=
  [.newline].intercalate statements ++ if style.trailing then [.newline] else []

end Style

/-! ## Words -/

/-- What closes a body. -/
def Body.closing (body : Body) : List Word :=
  if body.isBlock then [.keyword .end_] else []

/-- The words of a parameter. -/
def Param.words (param : Param) : List Word :=
  .ident param.ident.name :: if param.optional then [.symbol .question] else []

/-- Items between commas. -/
def commas (items : List (List Word)) : List Word :=
  [.symbol .comma].intercalate items

mutual

/-- The words of a tree. -/
def Node.words (style : Style) : Node → List Word
  | .mk form _ => form.words style

/-- The words of a body, without what closes it. -/
def Body.words (style : Style) : Body → List Word
  | .mk node _ => style.layOut node (node.words style)

/-- The words of a form. -/
def Form.words (style : Style) : Form → List Word
  | .number value => [.number value]
  | .text value => [.text value]
  | .boolean value => [.keyword (if value then .true_ else .false_)]
  | .null => [.keyword .null_]
  | .list items =>
    .symbol .leftSquare :: commas (wordsOf style .whole items) ++ [.symbol .rightSquare]
  | .object entries =>
    .symbol .leftBrace :: commas (entryWords style entries) ++ [.symbol .rightBrace]
  | .access ident => [.ident ident.name]
  | .member target name =>
    style.enclose .suffix target (target.words style) ++ [.symbol .dot, .ident name.name]
  | .assign ident op value declares isPublic =>
    (if isPublic then [.keyword .public_] else []) ++ (if declares then [.keyword .let_] else []) ++
      .ident ident.name :: op.word :: style.enclose .whole value (value.words style)
  | .memberAssign path op value =>
    [.symbol .dot].intercalate (path.map fun ident => [.ident ident.name]) ++
      op.word :: style.enclose .whole value (value.words style)
  | .binary lhs op rhs =>
    style.enclose op.left lhs (lhs.words style) ++
      op.word :: style.enclose op.right rhs (rhs.words style)
  | .unary op operand => op.word :: style.enclose op.grade operand (operand.words style)
  | .ifElse arms none =>
    .keyword .if_ :: [.keyword .elif_].intercalate (armWords style arms) ++
      match arms.getLast? with
      | some arm => arm.2.closing
      | none => []
  | .ifElse arms (some otherwise) =>
    .keyword .if_ :: [.keyword .elif_].intercalate (armWords style arms) ++
      .keyword .else_ :: otherwise.words style ++ otherwise.closing
  | .switch subject cases none =>
    .keyword .switch_ :: style.enclose .whole subject (subject.words style) ++
      .newline :: caseWords style cases ++ [.keyword .end_]
  | .switch subject cases (some otherwise) =>
    .keyword .switch_ :: style.enclose .whole subject (subject.words style) ++
      .newline :: caseWords style cases ++
      .keyword .default_ :: .keyword .then_ :: style.layOut otherwise (otherwise.words style) ++
      [.keyword .end_]
  | .forCount ident first last none body =>
    .keyword .for_ :: .ident ident.name :: .symbol .equal ::
      style.enclose .whole first (first.words style) ++
      .keyword .to_ :: style.enclose .whole last (last.words style) ++
      .keyword .then_ :: body.words style ++ body.closing
  | .forCount ident first last (some step) body =>
    .keyword .for_ :: .ident ident.name :: .symbol .equal ::
      style.enclose .whole first (first.words style) ++
      .keyword .to_ :: style.enclose .whole last (last.words style) ++
      .keyword .step_ :: style.enclose .whole step (step.words style) ++
      .keyword .then_ :: body.words style ++ body.closing
  | .forList ident list body =>
    .keyword .for_ :: .ident ident.name :: .keyword .of_ ::
      style.enclose .whole list (list.words style) ++
      .keyword .then_ :: body.words style ++ body.closing
  | .forObject key value object body =>
    .keyword .for_ :: .ident key.name :: .symbol .comma :: .ident value.name :: .keyword .of_ ::
      style.enclose .whole object (object.words style) ++
      .keyword .then_ :: body.words style ++ body.closing
  | .whileLoop condition body =>
    .keyword .while_ :: style.enclose .whole condition (condition.words style) ++
      .keyword .then_ :: body.words style ++ body.closing
  | .function (.mk name params body autoReturn isPublic) =>
    (if isPublic then [.keyword .public_] else []) ++
      .keyword .func_ :: name.toList.map (fun ident => .ident ident.name) ++
      .symbol .leftParen :: commas (params.map Param.words) ++
      .symbol .rightParen ::
      if autoReturn then .symbol .arrow :: style.enclose .whole body (body.words style)
      else .newline :: body.words style ++ [.keyword .end_]
  | .call callee args =>
    style.enclose .suffix callee (callee.words style) ++
      .symbol .leftParen :: commas (wordsOf style .whole args) ++ [.symbol .rightParen]
  | .importAs lib name =>
    .keyword .import_ :: style.enclose .whole lib (lib.words style) ++
      [.keyword .as_, .ident name.name]
  | .returnValue none => [.keyword .return_]
  | .returnValue (some value) =>
    .keyword .return_ :: style.enclose .whole value (value.words style)
  | .breakLoop => [.keyword .break_]
  | .continueLoop => [.keyword .continue_]
  | .block statements => style.lines (wordsOf style .loose statements)

/-- The words of each of the nodes, at a place. -/
def wordsOf (style : Style) (place : Grade) : List Node → List (List Word)
  | [] => []
  | node :: nodes => style.enclose place node (node.words style) :: wordsOf style place nodes

/-- The words of each of the entries of an object. -/
def entryWords (style : Style) : List (Ident × Node) → List (List Word)
  | [] => []
  | (key, value) :: entries =>
    (.key key.name :: .symbol .colon :: style.enclose .whole value (value.words style)) ::
      entryWords style entries

/-- The words of each of the arms of an `if`, without what closes it. -/
def armWords (style : Style) : List (Node × Body) → List (List Word)
  | [] => []
  | (condition, body) :: arms =>
    (style.enclose .whole condition (condition.words style) ++
      .keyword .then_ :: body.words style) :: armWords style arms

/-- The words of the cases of a `switch`. -/
def caseWords (style : Style) : List (Node × Node) → List Word
  | [] => []
  | (pattern, body) :: cases =>
    .keyword .case_ :: style.enclose .whole pattern (pattern.words style) ++
      .keyword .then_ :: style.layOut body (body.words style) ++ caseWords style cases

end

/-! ## The trees of the language -/

/-- What a node stands for where it stands. -/
inductive Role where
  | expr
  /-- One of the statements of a block. -/
  | statement
  /-- What an arm, a loop or a case runs: a block or a single statement. -/
  | body

/-- The trees of the language. -/
inductive WellFormed : Role → Node → Prop where
  | number {value : Float} {span : Span} : (∃ token, (Word.number value).Fits token) →
      WellFormed .expr (.mk (.number value) span)
  | text {value : String} {span : Span} : WellFormed .expr (.mk (.text value) span)
  | boolean {value : Bool} {span : Span} : WellFormed .expr (.mk (.boolean value) span)
  | null {span : Span} : WellFormed .expr (.mk .null span)
  | list {items : List Node} {span : Span} : (∀ item ∈ items, WellFormed .expr item) →
      WellFormed .expr (.mk (.list items) span)
  | object {entries : List (Ident × Node)} {span : Span} :
      (∀ entry ∈ entries, WellFormed .expr entry.2) → WellFormed .expr (.mk (.object entries) span)
  | access {ident : Ident} {span : Span} : WellFormed .expr (.mk (.access ident) span)
  | member {target : Node} {name : Ident} {span : Span} : WellFormed .expr target →
      WellFormed .expr (.mk (.member target name) span)
  | declaration {ident : Ident} {value : Node} {isPublic : Bool} {span : Span} :
      WellFormed .expr value →
      WellFormed .expr (.mk (.assign ident .set value true isPublic) span)
  | assign {ident : Ident} {op : AssignOp} {value : Node} {span : Span} :
      WellFormed .expr value → WellFormed .expr (.mk (.assign ident op value false false) span)
  | memberAssign {path : List Ident} {op : AssignOp} {value : Node} {span : Span} :
      2 ≤ path.length → WellFormed .expr value →
      WellFormed .expr (.mk (.memberAssign path op value) span)
  | binary {lhs rhs : Node} {op : BinaryOp} {span : Span} : WellFormed .expr lhs →
      WellFormed .expr rhs → WellFormed .expr (.mk (.binary lhs op rhs) span)
  | unary {op : UnaryOp} {operand : Node} {span : Span} : WellFormed .expr operand →
      WellFormed .expr (.mk (.unary op operand) span)
  | ifElse {arms : List (Node × Body)} {otherwise : Option Body} {span : Span} : arms ≠ [] →
      (∀ arm ∈ arms, WellFormed .expr arm.1) →
      (∀ arm ∈ arms, WellFormed .body arm.2.node) →
      (∀ arm ∈ arms, arm.2.isBlock = arm.2.node.isBlock) →
      (∀ body ∈ otherwise, WellFormed .body body.node) →
      (∀ body ∈ otherwise, body.isBlock = body.node.isBlock) →
      WellFormed .expr (.mk (.ifElse arms otherwise) span)
  | switch {subject : Node} {cases : List (Node × Node)} {otherwise : Option Node} {span : Span} :
      WellFormed .expr subject → (∀ case ∈ cases, WellFormed .expr case.1) →
      (∀ case ∈ cases, WellFormed .body case.2) → (∀ body ∈ otherwise, WellFormed .body body) →
      WellFormed .expr (.mk (.switch subject cases otherwise) span)
  | forCount {ident : Ident} {first last : Node} {step : Option Node} {body : Body} {span : Span} :
      WellFormed .expr first → WellFormed .expr last → (∀ node ∈ step, WellFormed .expr node) →
      WellFormed .body body.node → body.isBlock = body.node.isBlock →
      WellFormed .expr (.mk (.forCount ident first last step body) span)
  | forList {ident : Ident} {list : Node} {body : Body} {span : Span} : WellFormed .expr list →
      WellFormed .body body.node → body.isBlock = body.node.isBlock →
      WellFormed .expr (.mk (.forList ident list body) span)
  | forObject {key value : Ident} {object : Node} {body : Body} {span : Span} :
      WellFormed .expr object → WellFormed .body body.node →
      body.isBlock = body.node.isBlock →
      WellFormed .expr (.mk (.forObject key value object body) span)
  | whileLoop {condition : Node} {body : Body} {span : Span} : WellFormed .expr condition →
      WellFormed .body body.node → body.isBlock = body.node.isBlock →
      WellFormed .expr (.mk (.whileLoop condition body) span)
  | arrow {name : Option Ident} {params : List Param} {body : Node} {isPublic : Bool}
      {span : Span} : params.Pairwise (fun p q => p.optional = true → q.optional = true) →
      WellFormed .expr body →
      WellFormed .expr (.mk (.function (.mk name params body true isPublic)) span)
  | function {name : Option Ident} {params : List Param} {body : Node} {isPublic : Bool}
      {span : Span} : params.Pairwise (fun p q => p.optional = true → q.optional = true) →
      WellFormed .body body → body.isBlock = true →
      WellFormed .expr (.mk (.function (.mk name params body false isPublic)) span)
  | call {callee : Node} {args : List Node} {span : Span} : WellFormed .expr callee →
      (∀ arg ∈ args, WellFormed .expr arg) → WellFormed .expr (.mk (.call callee args) span)
  | importAs {lib : Node} {name : Ident} {span : Span} : WellFormed .expr lib →
      WellFormed .expr (.mk (.importAs lib name) span)
  | expr {node : Node} : WellFormed .expr node → WellFormed .statement node
  | bareReturn {span : Span} : WellFormed .statement (.mk (.returnValue none) span)
  | returnValue {value : Node} {span : Span} : WellFormed .expr value →
      WellFormed .statement (.mk (.returnValue (some value)) span)
  | breakLoop {span : Span} : WellFormed .statement (.mk .breakLoop span)
  | continueLoop {span : Span} : WellFormed .statement (.mk .continueLoop span)
  /-- A single statement runs in place of a block, unless it is a `return` without a value. -/
  | inline {node : Node} : WellFormed .statement node → node.form ≠ .returnValue none →
      WellFormed .body node
  | block {statements : List Node} {span : Span} :
      (∀ node ∈ statements, WellFormed .statement node) →
      WellFormed .body (.mk (.block statements) span)

/-- A whole program is a block. -/
structure IsProgram (root : Node) : Prop where
  isBlock : root.isBlock = true
  wellFormed : WellFormed .body root

theorem wordsOf_eq_map {style : Style} {place : Grade} : ∀ nodes : List Node,
    wordsOf style place nodes = nodes.map fun node => style.enclose place node (node.words style)
  | [] => rfl
  | _ :: nodes => congrArg (_ :: ·) (wordsOf_eq_map nodes)

theorem entryWords_eq_map {style : Style} : ∀ entries : List (Ident × Node),
    entryWords style entries = entries.map fun entry => .key entry.1.name :: .symbol .colon ::
      style.enclose .whole entry.2 (entry.2.words style)
  | [] => rfl
  | _ :: entries => congrArg (_ :: ·) (entryWords_eq_map entries)

theorem armWords_eq_map {style : Style} : ∀ arms : List (Node × Body),
    armWords style arms = arms.map fun arm =>
      style.enclose .whole arm.1 (arm.1.words style) ++ .keyword .then_ :: arm.2.words style
  | [] => rfl
  | _ :: arms => congrArg (_ :: ·) (armWords_eq_map arms)

/-! ## Tokens for words -/

/-- Each of the words is said by some token. -/
def Sayable (words : List Word) : Prop :=
  ∀ word ∈ words, ∃ token, word.Fits token

section Sayable

variable {style : Style} {node : Node} {place : Grade} {word : Word} {words words' : List Word}

/-- Only numerals may be missing: there are none for negative numbers. -/
@[simp] theorem Word.exists_fits (h : ∀ value, word ≠ .number value) :
    ∃ token, word.Fits token := by
  have hfits (kind : TokenKind) (lexeme : String) (h : word.Fits ⟨kind, default, lexeme⟩) :
      ∃ token, word.Fits token := ⟨_, h⟩
  cases word with
  | symbol symbol => exact hfits (.symbol symbol) "" rfl
  | keyword keyword => exact hfits (.keyword keyword) "" rfl
  | number value => exact absurd rfl (h value)
  | text value => exact hfits .string value ⟨rfl, rfl⟩
  | ident name => exact hfits .ident name ⟨rfl, rfl⟩
  | key name => exact hfits .ident name ⟨.inl rfl, rfl⟩
  | newline => exact hfits .newline "" rfl
  | eof => exact hfits .eof "" rfl

@[simp] theorem BinaryOp.exists_fits (op : BinaryOp) : ∃ token, op.word.Fits token := by
  cases op <;> simp [word]

@[simp] theorem UnaryOp.exists_fits (op : UnaryOp) : ∃ token, op.word.Fits token := by
  cases op <;> simp [word]

@[simp] theorem AssignOp.exists_fits (op : AssignOp) : ∃ token, op.word.Fits token := by
  cases op <;> simp [word]

namespace Sayable

@[simp] theorem nil : Sayable [] := by
  simp [Sayable]

@[simp] theorem cons_iff : Sayable (word :: words) ↔ (∃ token, word.Fits token) ∧ Sayable words :=
  List.forall_mem_cons

@[simp] theorem append_iff : Sayable (words ++ words') ↔ Sayable words ∧ Sayable words' :=
  List.forall_mem_append

theorem intercalate (hword : ∃ token, word.Fits token) : ∀ {parts : List (List Word)},
    (∀ part ∈ parts, Sayable part) → Sayable ([word].intercalate parts)
  | [], _ => by simp
  | [part], h => by simpa using h
  | part :: part' :: parts, h => by
    have hrest := intercalate hword fun p hp => h p (List.mem_cons_of_mem _ hp)
    simp [List.intercalate_cons_cons, hword, hrest, h part List.mem_cons_self]

@[simp] theorem enclose_iff : Sayable (style.enclose place node words) ↔ Sayable words := by
  unfold Style.enclose
  split <;> simp

@[simp] theorem layOut_iff : Sayable (style.layOut node words) ↔ Sayable words := by
  unfold Style.layOut
  split <;> simp

@[simp] theorem body_iff {body : Body} :
    Sayable (body.words style) ↔ Sayable (body.node.words style) := by
  cases body
  simp [Body.words, Body.node]

@[simp] theorem closing {body : Body} : Sayable body.closing := by
  unfold Body.closing
  split <;> simp

/-- Words that can be said are those of some tokens. -/
theorem exists_tokens : ∀ {words : List Word}, Sayable words →
    ∃ tokens, List.Forall₂ Word.Fits words tokens
  | [], _ => ⟨[], .nil⟩
  | _ :: _, h => by
    obtain ⟨⟨token, htoken⟩, hwords⟩ := cons_iff.1 h
    obtain ⟨tokens, htokens⟩ := exists_tokens hwords
    exact ⟨token :: tokens, .cons htoken htokens⟩

end Sayable

theorem Param.sayable (param : Param) : Sayable param.words := by
  unfold Param.words
  split <;> simp

/-! The parts of a construct, one after the other. -/

namespace Sayable

theorem commas {parts : List (List Word)} (h : ∀ part ∈ parts, Sayable part) :
    Sayable (commas parts) :=
  .intercalate (by simp) h

theorem parts {nodes : List Node} (h : ∀ node ∈ nodes, Sayable (node.words style)) :
    ∀ part ∈ wordsOf style place nodes, Sayable part := by
  rw [wordsOf_eq_map]
  simpa using h

theorem entries {entries : List (Ident × Node)}
    (h : ∀ entry ∈ entries, Sayable (entry.2.words style)) :
    Sayable (BpScript.commas (entryWords style entries)) := by
  rw [entryWords_eq_map]
  exact .commas (List.forall_mem_map.2 fun entry hentry => by simp [h entry hentry])

theorem path {path : List Ident} :
    Sayable ([.symbol .dot].intercalate (path.map fun ident => [.ident ident.name])) :=
  .intercalate (by simp) (by simp)

theorem params {params : List Param} : Sayable (BpScript.commas (params.map Param.words)) :=
  .commas (List.forall_mem_map.2 fun param _ => param.sayable)

theorem arms {arms : List (Node × Body)} (hconditions : ∀ arm ∈ arms, Sayable (arm.1.words style))
    (hbodies : ∀ arm ∈ arms, Sayable (arm.2.node.words style)) :
    Sayable ([.keyword .elif_].intercalate (armWords style arms)) := by
  rw [armWords_eq_map]
  refine .intercalate (by simp) (List.forall_mem_map.2 fun arm harm => ?_)
  simp [hconditions arm harm, hbodies arm harm]

theorem cases : ∀ {cases : List (Node × Node)}, (∀ case ∈ cases, Sayable (case.1.words style)) →
    (∀ case ∈ cases, Sayable (case.2.words style)) → Sayable (caseWords style cases)
  | [], _, _ => by simp [caseWords]
  | (pattern, body) :: cases, hpatterns, hbodies => by
    obtain ⟨hpattern, hpatterns⟩ := List.forall_mem_cons.1 hpatterns
    obtain ⟨hbody, hbodies⟩ := List.forall_mem_cons.1 hbodies
    simp [caseWords, hpattern, hbody, Sayable.cases hpatterns hbodies]

end Sayable

/-- **A tree of the language can be written down.** -/
theorem WellFormed.sayable {role : Role} (h : WellFormed role node) :
    Sayable (node.words style) := by
  induction h with
  | number h => simpa [Node.words, Form.words] using h
  | text | boolean | null | access | bareReturn | breakLoop | continueLoop =>
    simp [Node.words, Form.words]
  | list _ ih => simp [Node.words, Form.words, Sayable.commas (.parts ih)]
  | object _ ih => simp [Node.words, Form.words, Sayable.entries ih]
  | member _ ih | unary _ ih | assign _ ih | importAs _ ih | returnValue _ ih =>
    simp [Node.words, Form.words, ih]
  | @declaration _ _ isPublic _ _ ih => cases isPublic <;> simp [Node.words, Form.words, ih]
  | memberAssign _ _ ih => simp [Node.words, Form.words, ih, Sayable.path]
  | binary _ _ ihl ihr => simp [Node.words, Form.words, ihl, ihr]
  | @ifElse arms otherwise _ _ _ _ _ _ _ ihconditions ihbodies ihotherwise =>
    have harms := Sayable.arms ihconditions ihbodies
    cases otherwise with
    | none =>
      have hclosing : Sayable (match arms.getLast? with
        | some arm => arm.2.closing
        | none => []) := by split <;> simp
      simp [Node.words, Form.words, harms, hclosing]
    | some other => simp [Node.words, Form.words, harms, ihotherwise other rfl]
  | @switch _ _ otherwise _ _ _ _ _ ihsubject ihpatterns ihbodies ihotherwise =>
    have hcases := Sayable.cases ihpatterns ihbodies
    cases otherwise with
    | none => simp [Node.words, Form.words, ihsubject, hcases]
    | some other => simp [Node.words, Form.words, ihsubject, hcases, ihotherwise other rfl]
  | @forCount _ _ _ step _ _ _ _ _ _ _ ihfirst ihlast ihstep ihbody =>
    cases step with
    | none => simp [Node.words, Form.words, ihfirst, ihlast, ihbody]
    | some step => simp [Node.words, Form.words, ihfirst, ihlast, ihstep step rfl, ihbody]
  | forList _ _ _ ih ihbody | forObject _ _ _ ih ihbody | whileLoop _ _ _ ih ihbody =>
    simp [Node.words, Form.words, ih, ihbody]
  | @arrow name _ _ isPublic _ _ _ ih =>
    cases name <;> cases isPublic <;> simp [Node.words, Form.words, ih, Sayable.params]
  | @function name _ _ isPublic _ _ _ _ ih =>
    cases name <;> cases isPublic <;> simp [Node.words, Form.words, ih, Sayable.params]
  | call _ _ ihcallee ihargs =>
    simp [Node.words, Form.words, ihcallee, Sayable.commas (.parts ihargs)]
  | expr _ ih | inline _ _ ih => exact ih
  | block _ ih =>
    simp only [Node.words, Form.words, Style.lines, Sayable.append_iff]
    exact ⟨.intercalate (by simp) (.parts ih), by split <;> simp⟩

end Sayable

end BpScript
