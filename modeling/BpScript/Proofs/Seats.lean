import BpScript.Proofs.Subtree
import BpScript.Proofs.Writing

/-!
# Where nodes may stand

Evaluation trusts the tree it is given: that a dotted path has a first name and a last one, that a
body which is flagged as a block is one, that a `break` does not stand among the operands of a sum.
No construct checks this again.  Trees that were read from a source keep to it at every depth.

* `Seat` — the places a node can have in the node around it.
* `Seat.Admits` — which nodes may stand there.  Blocks are bodies, and nothing else; `return`,
  `break` and `continue` are statements, or stand in place of a block.
* `Form.Regular` — what else is said of a node by itself.
* `Node.Holds` — the nodes of a tree with their seats.
* **`Node.fits_of_parse`** — the tree of a source.
-/

namespace BpScript

open Production

/-- The places a node can have in the node around it. -/
inductive Seat where
  /-- Nothing is around the node. -/
  | program
  /-- The node is evaluated for its value. -/
  | operand
  /-- One of the statements of a block. -/
  | statement
  /-- What an arm of an `if` or a loop runs. -/
  | body (isBlock : Bool)
  /-- What a case or the default of a `switch` runs. -/
  | caseBody
  /-- What a call of a function runs. -/
  | functionBody (autoReturn : Bool)
  deriving DecidableEq, Repr

/-- The nodes that may stand in a place. -/
def Seat.Admits : Seat → Node → Prop
  | .program, node => node.isBlock = true
  | .operand, node => node.isBlock = false ∧ node.form.isSignal = false
  | .statement, node => node.isBlock = false
  | .body isBlock, node => node.isBlock = isBlock
  | .caseBody, _ => True
  | .functionBody autoReturn, node => node.isBlock = !autoReturn ∧ node.form.isSignal = false

/-- The place of what an arm or a loop runs. -/
@[simp] def Body.seat (b : Body) : Seat × Node :=
  (.body b.isBlock, b.node)

/-- The nodes of a node, with their places in it. -/
@[simp] def Form.seats : Form → List (Seat × Node)
  | .list items => items.map (.operand, ·)
  | .object entries => entries.map fun entry => (.operand, entry.2)
  | .member target _ => [(.operand, target)]
  | .assign _ _ value _ _ => [(.operand, value)]
  | .memberAssign _ _ value => [(.operand, value)]
  | .binary lhs _ rhs => [(.operand, lhs), (.operand, rhs)]
  | .unary _ operand => [(.operand, operand)]
  | .ifElse arms otherwise =>
    arms.flatMap (fun arm => [(.operand, arm.1), arm.2.seat]) ++ otherwise.toList.map Body.seat
  | .switch subject cases otherwise =>
    (.operand, subject) :: cases.flatMap (fun case => [(.operand, case.1), (.caseBody, case.2)]) ++
      otherwise.toList.map (.caseBody, ·)
  | .forCount _ first last step body =>
    [(.operand, first), (.operand, last)] ++ step.toList.map (.operand, ·) ++ [body.seat]
  | .forList _ container body => [(.operand, container), body.seat]
  | .forObject _ _ container body => [(.operand, container), body.seat]
  | .whileLoop condition body => [(.operand, condition), body.seat]
  | .function definition => [(.functionBody definition.autoReturn, definition.body)]
  | .call callee args => (.operand, callee) :: args.map (.operand, ·)
  | .importAs lib _ => [(.operand, lib)]
  | .returnValue value => value.toList.map (.operand, ·)
  | .block statements => statements.map (.statement, ·)
  | _ => []

/-- What is said of a node by itself: a path that is assigned to has two names or more, only `=`
declares and only a declaration is public, and no required parameter stands behind an optional
one. -/
def Form.Regular : Form → Prop
  | .memberAssign path _ _ => 2 ≤ path.length
  | .assign _ op _ declares isPublic =>
    (declares = true → op = .set) ∧ (declares = false → isPublic = false)
  | .function definition =>
    definition.params.Pairwise fun p q => p.optional = true → q.optional = true
  | _ => True

/-- The nodes of the tree below a root that stands in `top`, with the places they stand in. -/
inductive Node.Holds (top : Seat) (root : Node) : Seat → Node → Prop where
  | self : Holds top root top root
  | inside {seat seat' : Seat} {node child : Node} : Holds top root seat node →
      (seat', child) ∈ node.form.seats → Holds top root seat' child

/-- In the tree below a root that stands in `top`, every node is regular and may stand where it
does. -/
def Seat.Fits (top : Seat) (root : Node) : Prop :=
  ∀ seat node, Node.Holds top root seat node → seat.Admits node ∧ node.form.Regular

/-- The trees below these roots fit. -/
def Seat.AllFit (roots : List (Seat × Node)) : Prop :=
  ∀ root ∈ roots, root.1.Fits root.2

namespace Seat

variable {top top' : Seat} {root node : Node} {form : Form} {span : Span}
  {roots roots' : List (Seat × Node)}

theorem Fits.admits (h : top.Fits root) : top.Admits root :=
  (h top root .self).1

theorem Fits.regular (h : top.Fits root) : root.form.Regular :=
  (h top root .self).2

theorem Fits.allFit (h : top.Fits root) : AllFit root.form.seats := by
  rintro ⟨seat, child⟩ hchild inner node hnode
  refine h inner node ?_
  induction hnode with
  | self => exact Node.Holds.self.inside hchild
  | inside _ hmem ih => exact ih.inside hmem

theorem Fits.intro (hadmits : top.Admits root) (hregular : root.form.Regular)
    (hroots : AllFit root.form.seats) : top.Fits root := by
  -- a node of the tree is the root, or stands in a tree right below it
  have hsplit : ∀ seat node, Node.Holds top root seat node → (seat = top ∧ node = root) ∨
      ∃ below ∈ root.form.seats, Node.Holds below.1 below.2 seat node := by
    intro seat node hnode
    induction hnode with
    | self => exact .inl ⟨rfl, rfl⟩
    | inside _ hmem ih =>
      rcases ih with ⟨rfl, rfl⟩ | ⟨below, hbelow, hholds⟩
      · exact .inr ⟨_, hmem, .self⟩
      · exact .inr ⟨below, hbelow, hholds.inside hmem⟩
  intro seat node hnode
  rcases hsplit seat node hnode with ⟨rfl, rfl⟩ | ⟨below, hbelow, hholds⟩
  · exact ⟨hadmits, hregular⟩
  · exact hroots below hbelow seat node hholds

/-- A tree may be put anywhere its root may stand. -/
theorem Fits.reseat (h : top.Fits root) (hadmits : top'.Admits root) : top'.Fits root :=
  .intro hadmits h.regular h.allFit

theorem Fits.withSpan (h : top.Fits root) : top.Fits (root.withSpan span) :=
  .intro (by cases root; cases top <;> exact h.admits) h.regular h.allFit

@[simp] theorem allFit_nil : AllFit [] := by simp [AllFit]

@[simp] theorem allFit_cons {first : Seat × Node} :
    AllFit (first :: roots) ↔ first.1.Fits first.2 ∧ AllFit roots :=
  List.forall_mem_cons

theorem allFit_singleton {root : Seat × Node} : AllFit [root] ↔ root.1.Fits root.2 := by simp

@[simp] theorem allFit_append : AllFit (roots ++ roots') ↔ AllFit roots ∧ AllFit roots' :=
  List.forall_mem_append

end Seat

/-- Every node that a node consists of has a place in it. -/
theorem Form.exists_seat {form : Form} {node : Node} (h : .node node ∈ form.contents) :
    ∃ seat, (seat, node) ∈ form.seats := by
  cases form
  case function definition =>
    cases definition
    simp_all [Function.body]
  case switch subject cases otherwise =>
    simp only [Form.contents, List.mem_cons, Part.node.injEq, List.mem_flatMap] at h
    rcases h with rfl | ⟨clause, hclause, hnode⟩
    · exact ⟨_, List.mem_cons_self⟩
    · rcases Clause.mem_inOrder.1 hclause with ⟨case, hcase, rfl⟩ | ⟨default, rfl, rfl⟩
      · simp [Clause.ofCase] at hnode ⊢
        grind
      · simp at hnode ⊢
        grind
  all_goals simp at h ⊢
  all_goals grind

/-- Every node of a tree has a place in it. -/
theorem Node.Contains.exists_holds {top : Seat} {root node : Node} (h : root.Contains node) :
    ∃ seat, Node.Holds top root seat node := by
  induction h with
  | self => exact ⟨top, .self⟩
  | inside _ hchild ih =>
    obtain ⟨_, hholds⟩ := ih
    obtain ⟨seat, hseat⟩ := Form.exists_seat hchild
    exact ⟨seat, hholds.inside hseat⟩

/-! ## Phrases -/

/-- The place of a node that is read there. -/
def Category.seat : Category → Seat
  | .statements => .program
  | .statement => .statement
  | .caseBody => .caseBody
  | _ => .operand

theorem Level.seat_operand (level : Level) : level.operand.seat = .operand := by
  cases level <;> rfl

mutual

/-- The nodes of a phrase, with the places they are read for. -/
@[simp] def Phrase.seats : Phrase → List (Seat × Node)
  | .node category n => [(category.seat, n)]
  | .further nodes => nodes.map (.statement, ·)
  | .sequence _ phrases => Phrase.seatsOf phrases
  | .items _ phrases => Phrase.seatsOf phrases
  | .entry pair => [(.operand, pair.2)]
  | .body b => [b.seat]
  | .arm pair => [(.operand, pair.1), pair.2.seat]
  | .arms pairs otherwise =>
    pairs.flatMap (fun pair => [(.operand, pair.1), pair.2.seat]) ++ otherwise.toList.map Body.seat
  | .functionBody n autoReturn => [(.functionBody autoReturn, n)]
  | .clauses cs => cs.flatMap fun clause =>
    clause.1.toList.map (.operand, ·) ++ [(.caseBody, clause.2)]
  | _ => []

/-- The nodes of phrases that follow each other. -/
@[simp] def Phrase.seatsOf : List Phrase → List (Seat × Node)
  | [] => []
  | phrase :: phrases => phrase.seats ++ Phrase.seatsOf phrases

end

@[simp] theorem Phrase.seatsOf_map_expr : ∀ nodes : List Node,
    seatsOf (nodes.map (.node .expr)) = nodes.map (.operand, ·)
  | [] => rfl
  | first :: nodes => congrArg ((Seat.operand, first) :: ·) (seatsOf_map_expr nodes)

@[simp] theorem Phrase.seatsOf_map_entry : ∀ entries : List (Ident × Node),
    seatsOf (entries.map .entry) = entries.map fun entry => (.operand, entry.2)
  | [] => rfl
  | first :: entries => congrArg ((Seat.operand, first.2) :: ·) (seatsOf_map_entry entries)

/-- No required parameter is read behind an optional one. -/
theorem Derives.params_ordered {seenOptional : Bool} {params : List Param} {c c' : Cursor}
    (h : Derives (.params seenOptional params) c c') :
    (params.Pairwise fun p q => p.optional = true → q.optional = true) ∧
      (seenOptional = true → ∀ p ∈ params, p.optional = true) := by
  generalize hphrase : Phrase.params seenOptional params = phrase at h
  induction h generalizing seenOptional params with
  | lastParam _ hparam =>
    cases hphrase
    exact ⟨List.pairwise_singleton _ _, by simpa using hparam⟩
  | params _ hparam _ _ _ ih =>
    cases hphrase
    obtain ⟨hordered, hoptional⟩ := ih rfl
    refine ⟨List.pairwise_cons.2 ⟨fun q hq hp => hoptional (by simp [hp]) q hq, hordered⟩, ?_⟩
    intro hseen
    exact List.forall_mem_cons.2 ⟨hparam hseen, hoptional (by simp [hseen])⟩
  | _ => cases hphrase

theorem Derives.paramList_ordered {params : List Param} {c c' : Cursor}
    (h : Derives (.paramList params) c c') :
    params.Pairwise fun p q => p.optional = true → q.optional = true := by
  cases h with
  | noParam => exact .nil
  | paramList hparams => exact hparams.params_ordered.1

theorem Node.isSignal_of_isBlock {node : Node} (h : node.isBlock = true) :
    node.form.isSignal = false := by
  obtain ⟨form, span⟩ := node
  cases form <;> first | rfl | cases h

theorem Clause.mem_of_mem_cases {clauses : List Clause} {case : Node × Node}
    (h : case ∈ cases clauses) : (some case.1, case.2) ∈ clauses := by
  obtain ⟨⟨pattern?, body⟩, hclause, hcase⟩ := List.mem_filterMap.1 h
  cases pattern? with
  | none => cases hcase
  | some pattern =>
    cases hcase
    exact hclause

theorem Clause.mem_of_mem_defaults {clauses : List Clause} {body : Node}
    (h : body ∈ defaults clauses) : (none, body) ∈ clauses := by
  obtain ⟨⟨pattern?, body⟩, hclause, rfl⟩ := List.mem_map.1 h
  obtain ⟨hclause, hnone⟩ := List.mem_filter.1 hclause
  cases Option.isNone_iff_eq_none.1 hnone
  exact hclause

/-- What holds of the parts of a `switch` holds of its cases and of its default. -/
theorem Clause.allFit_of_clauses {clauses : List Clause} {otherwise : Option Node}
    (hdefaults : defaults clauses = otherwise.toList)
    (h : Seat.AllFit (Phrase.clauses clauses).seats) :
    Seat.AllFit ((cases clauses).flatMap (fun case => [(.operand, case.1), (.caseBody, case.2)]) ++
      otherwise.toList.map (.caseBody, ·)) := by
  rw [← hdefaults]
  refine Seat.allFit_append.2 ⟨fun root hroot => ?_, fun root hroot => ?_⟩
  · obtain ⟨case, hcase, hroot⟩ := List.mem_flatMap.1 hroot
    exact h root (List.mem_flatMap.2 ⟨_, mem_of_mem_cases hcase, hroot⟩)
  · obtain ⟨body, hbody, rfl⟩ := List.mem_map.1 hroot
    exact h _ (List.mem_flatMap.2 ⟨_, mem_of_mem_defaults hbody, by simp⟩)

open Seat in
/-- **What the grammar derives fits.**  By induction on the derivation: every rule reads its nodes
for the places they get. -/
theorem Derives.fits {phrase : Phrase} {c c' : Cursor} (h : Derives phrase c c') :
    AllFit phrase.seats := by
  induction h with
  -- statements
  | noStatement _ _ ih => exact allFit_singleton.2 (.intro rfl trivial ih)
  | statements _ _ ih ih' =>
    exact allFit_singleton.2 (.intro rfl trivial (allFit_append.2 ⟨ih, ih'⟩))
  | noFurther => exact allFit_nil
  | further _ _ _ ih ih' => exact allFit_append.2 ⟨ih, ih'⟩
  | bareReturn _ _ => exact allFit_singleton.2 (.intro rfl trivial allFit_nil)
  | returnValue _ _ ih => exact allFit_singleton.2 (.intro rfl trivial ih)
  | continueLoop _ => exact allFit_singleton.2 (.intro rfl trivial allFit_nil)
  | breakLoop _ => exact allFit_singleton.2 (.intro rfl trivial allFit_nil)
  | exprStatement _ ih =>
    have hexpr := allFit_singleton.1 ih
    exact allFit_singleton.2 (hexpr.reseat hexpr.admits.1)
  -- expressions
  | letExpr _ _ ih => exact ih
  | expr _ ih => exact ih
  | operand _ ih =>
    rw [Phrase.seats, Level.seat_operand] at ih
    exact ih
  | binary _ _ _ ih ih' =>
    rw [Phrase.seats, Level.seat_operand] at ih'
    exact allFit_singleton.2 (.intro ⟨rfl, rfl⟩ trivial (allFit_append.2 ⟨ih, ih'⟩))
  | not _ _ ih => exact allFit_singleton.2 (.intro ⟨rfl, rfl⟩ trivial ih)
  | negation _ ih => exact ih
  | plus _ _ ih => exact allFit_singleton.2 (.intro ⟨rfl, rfl⟩ trivial ih)
  | minus _ _ ih => exact allFit_singleton.2 (.intro ⟨rfl, rfl⟩ trivial ih)
  | signed _ ih => exact ih
  | base _ ih => exact ih
  | power _ _ _ ih ih' =>
    exact allFit_singleton.2 (.intro ⟨rfl, rfl⟩ trivial (allFit_append.2 ⟨ih, ih'⟩))
  | atom _ ih => exact ih
  | member _ _ _ ih => exact allFit_singleton.2 (.intro ⟨rfl, rfl⟩ trivial ih)
  | call _ _ _ ih ih' =>
    have hparts := allFit_append.2 ⟨ih, ih'⟩
    exact allFit_singleton.2 (.intro ⟨rfl, rfl⟩ trivial (by simpa [Category.seat] using hparts))
  -- literals, names and brackets
  | int _ _ => exact allFit_singleton.2 (.intro ⟨rfl, rfl⟩ trivial allFit_nil)
  | float _ _ => exact allFit_singleton.2 (.intro ⟨rfl, rfl⟩ trivial allFit_nil)
  | text _ => exact allFit_singleton.2 (.intro ⟨rfl, rfl⟩ trivial allFit_nil)
  | true_ _ => exact allFit_singleton.2 (.intro ⟨rfl, rfl⟩ trivial allFit_nil)
  | false_ _ => exact allFit_singleton.2 (.intro ⟨rfl, rfl⟩ trivial allFit_nil)
  | null _ => exact allFit_singleton.2 (.intro ⟨rfl, rfl⟩ trivial allFit_nil)
  | access _ => exact allFit_singleton.2 (.intro ⟨rfl, rfl⟩ trivial allFit_nil)
  | assign _ _ _ ih =>
    exact allFit_singleton.2 (.intro ⟨rfl, rfl⟩ ⟨nofun, fun _ => rfl⟩ ih)
  | memberAssign _ _ hpath _ _ _ ih' =>
    have hlength := Nat.succ_le_succ (List.length_pos_iff.2 hpath)
    exact allFit_singleton.2 (.intro ⟨rfl, rfl⟩ hlength ih')
  | noSegment => exact allFit_nil
  | segment _ _ _ _ => exact allFit_nil
  | group _ _ _ ih => exact ih
  | list _ _ ih => exact allFit_singleton.2 (.intro ⟨rfl, rfl⟩ trivial (by simpa using ih))
  | object _ _ ih => exact allFit_singleton.2 (.intro ⟨rfl, rfl⟩ trivial (by simpa using ih))
  | entry _ _ _ _ ih => exact ih
  | noItem _ _ => exact allFit_nil
  | sequence _ ih => exact ih
  | lastItem _ _ _ ih => simpa using ih
  | item _ _ _ ih ih' => exact allFit_append.2 ⟨ih, ih'⟩
  -- definitions
  | declaration _ _ _ _ ih =>
    exact allFit_singleton.2 (.intro ⟨rfl, rfl⟩ ⟨fun _ => rfl, nofun⟩ ih)
  | function _ _ _ hparams _ _ _ ihbody =>
    exact allFit_singleton.2 (.intro ⟨rfl, rfl⟩ hparams.paramList_ordered ihbody)
  | functionAtom _ _ ih => exact ih
  | visible _ _ _ ih => exact allFit_singleton.2 (allFit_singleton.1 ih).withSpan
  | anonymous => exact allFit_nil
  | functionName _ => exact allFit_nil
  | required _ => exact allFit_nil
  | optional _ _ => exact allFit_nil
  | lastParam _ _ _ => exact allFit_nil
  | params _ _ _ _ _ _ => exact allFit_nil
  | noParam _ => exact allFit_nil
  | paramList _ _ _ => exact allFit_nil
  | arrowBody _ _ ih =>
    have hbody := allFit_singleton.1 ih
    exact allFit_singleton.2 (hbody.reseat hbody.admits)
  | blockBody _ _ _ ih =>
    have hbody := allFit_singleton.1 ih
    exact allFit_singleton.2 (hbody.reseat ⟨hbody.admits, Node.isSignal_of_isBlock hbody.admits⟩)
  -- bodies and arms
  | block _ _ _ ih =>
    have hbody := allFit_singleton.1 ih
    exact allFit_singleton.2 (hbody.reseat hbody.admits)
  | inline _ ih =>
    have hbody := allFit_singleton.1 ih
    exact allFit_singleton.2 (hbody.reseat hbody.admits)
  | blockArm _ _ _ _ ih ih' =>
    have hbody := allFit_singleton.1 ih'
    exact allFit_cons.2 ⟨allFit_singleton.1 ih, allFit_singleton.2 (hbody.reseat hbody.admits)⟩
  | inlineArm _ _ _ ih ih' =>
    have hbody := allFit_singleton.1 ih'
    exact allFit_cons.2 ⟨allFit_singleton.1 ih, allFit_singleton.2 (hbody.reseat hbody.admits)⟩
  | lastBlockArm _ _ ih => simpa using ih
  | lastInlineArm _ ih => simpa using ih
  | elseArm _ _ _ ih ih' => exact allFit_append.2 ⟨ih, ih'⟩
  | arms _ _ _ ih ih' => simpa using allFit_append.2 ⟨ih, ih'⟩
  | conditional _ _ ih => exact allFit_singleton.2 (.intro ⟨rfl, rfl⟩ trivial ih)
  -- loops
  | forObject _ _ _ _ _ _ _ _ ih ih' =>
    exact allFit_singleton.2 (.intro ⟨rfl, rfl⟩ trivial (allFit_append.2 ⟨ih, ih'⟩))
  | forList _ _ _ _ _ _ ih ih' =>
    exact allFit_singleton.2 (.intro ⟨rfl, rfl⟩ trivial (allFit_append.2 ⟨ih, ih'⟩))
  | forCount _ _ _ _ _ _ _ _ ihfirst ihlast ih =>
    have hparts := allFit_append.2 ⟨ihfirst, allFit_append.2 ⟨ihlast, ih⟩⟩
    exact allFit_singleton.2 (.intro ⟨rfl, rfl⟩ trivial hparts)
  | forCountStep _ _ _ _ _ _ _ _ _ _ ihfirst ihlast ihstep ih =>
    have hparts := allFit_append.2 ⟨ihfirst, allFit_append.2 ⟨ihlast, allFit_append.2 ⟨ihstep, ih⟩⟩⟩
    exact allFit_singleton.2 (.intro ⟨rfl, rfl⟩ trivial hparts)
  | whileLoop _ _ _ _ ih ih' =>
    exact allFit_singleton.2 (.intro ⟨rfl, rfl⟩ trivial (allFit_append.2 ⟨ih, ih'⟩))
  -- choices and imports
  | blockCase _ _ _ ih =>
    exact allFit_singleton.2 ((allFit_singleton.1 ih).reseat trivial)
  | inlineCase _ _ ih => exact allFit_singleton.2 ((allFit_singleton.1 ih).reseat trivial)
  | noClause _ => exact allFit_nil
  | caseClause _ _ _ _ ihpattern ihbody ih =>
    exact allFit_append.2 ⟨allFit_append.2 ⟨ihpattern, ihbody⟩, ih⟩
  | defaultClause _ _ _ ihbody ih => exact allFit_append.2 ⟨ihbody, ih⟩
  | switch _ _ _ _ hdefaults ih ih' =>
    have hclauses := Clause.allFit_of_clauses hdefaults ih'
    have hparts := allFit_cons.2 ⟨allFit_singleton.1 ih, hclauses⟩
    exact allFit_singleton.2 (.intro ⟨rfl, rfl⟩ trivial hparts)
  | importAs _ _ _ _ ih => exact allFit_singleton.2 (.intro ⟨rfl, rfl⟩ trivial ih)

/-! ## Programs -/

/-- Every node of the tree of a source is regular, and may stand where it does. -/
theorem Node.fits_of_parse {source : Source} {tokens : List Token} {root : Node}
    (htokens : tokenize source = .ok tokens) (hparse : Node.parse tokens = .ok root) :
    Seat.program.Fits root := by
  obtain ⟨first, rest, c, rfl, hderives, -⟩ := Node.derives_of_parse htokens hparse
  exact Seat.allFit_singleton.1 hderives.fits

end BpScript
