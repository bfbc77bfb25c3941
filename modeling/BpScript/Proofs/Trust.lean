import BpScript.Proofs.Code
import BpScript.Proofs.Seats

/-!
# What evaluation trusts

Two places of the evaluator have nothing to do: an assignment to a path of fewer than two names, and
a comparison by an operator that does not compare.  Neither is ever come to.  For the first one this
rests on the code that a run comes to: all of it was read from sources, also where a function was
stored by one script and is called by another.

* `Node.IsRead`, `Store.FromSources` — code that was read.
* `longPaths` — what is asked of assignments at every point of a run.
* `Operator.binaryOr` — binary operators, with a place for those that do not compare.
* **`parsed_tree_trusted`** — the trees of sources, and their runs.
-/

namespace BpScript

/-! ## Code that was read -/

/-- The node stands in the tree of a source. -/
def Node.IsRead (node : Node) : Prop :=
  ∃ source root, Node.ofSource source = .ok root ∧ root.Contains node

theorem Node.reads_isRead : Node.Reads .univ Node.IsRead :=
  fun source _ root hroot _ hnode => ⟨source, root, hroot, hnode⟩

theorem Node.IsRead.regular {node : Node} (h : node.IsRead) : node.form.Regular := by
  obtain ⟨source, root, hroot, hnode⟩ := h
  obtain ⟨tokens, htokens, hparse⟩ := Node.parse_of_ofSource hroot
  obtain ⟨seat, hholds⟩ := hnode.exists_holds
  exact (Node.fits_of_parse htokens hparse seat node hholds).2

/-- Every function that the store holds was read from a source. -/
def Store.FromSources (s : Store) : Prop :=
  s.Runs Node.IsRead

/-! ## Dotted paths -/

/-- Asks that nothing is assigned to a path of fewer than two names. -/
def longPaths : Check := fun _ _ point =>
  match point with
  | .node (.mk (.memberAssign path _ _) _) => 2 ≤ path.length
  | _ => true

theorem longPaths_of_regular {node : Node} (h : node.form.Regular) (around : List Activity)
    (m : Machine) : longPaths around m (.node node) = true := by
  obtain ⟨form, span⟩ := node
  cases form with
  | memberAssign path op value => exact decide_eq_true h
  | _ => rfl

/-- The alarm does go off at a path of one name. -/
example : ¬(Machine.start default .memory).Always longPaths 1 ⟨0⟩
    (.mk (.memberAssign [⟨"a", default⟩] .set default) default) := by
  intro h
  cases congrArg Prod.fst (h (throw .unreachable))

/-! ## Comparisons -/

namespace Operator

/-- Compares numbers by an operator, and does something else if the operator does not compare. -/
def compareOr (otherwise : Action Value) (op : BinaryOp) (lhs rhs : Value) : Action Value :=
  match lhs, rhs with
  | .number m, .number n =>
    match op with
    | .less => return .boolean (m < n)
    | .greater => return .boolean (m > n)
    | .lessEqual => return .boolean (m ≤ n)
    | .greaterEqual => return .boolean (m ≥ n)
    | _ => otherwise
  | .number _, _ => illegal rhs
  | _, _ => illegal lhs

/-- A binary operator on the values of both operands.  Four of them compare. -/
def binaryOr (otherwise : Action Value) (op : BinaryOp) (lhs rhs : Value) : Action Value :=
  match op with
  | .less | .greater | .lessEqual | .greaterEqual => compareOr otherwise op lhs rhs
  | _ => binary op lhs rhs

/-- Nothing else is ever done. -/
theorem binaryOr_eq_binary (otherwise : Action Value) (op : BinaryOp) (lhs rhs : Value) :
    binaryOr otherwise op lhs rhs = binary op lhs rhs := by
  cases op with
  | less | greater | lessEqual | greaterEqual => cases lhs <;> cases rhs <;> rfl
  | _ => rfl

end Operator

/-! ## Programs -/

/-- **The trees of sources can be trusted.**  Every node of the tree, at every depth, is regular and
may stand where it does.  So a run of the tree comes to no assignment to a path of fewer than two
names: not in the tree itself, not in modules, and not in functions that were stored by other
scripts, since all that is stored in a fresh session was read and a run leaves such a store behind.
Comparisons are made by operators that compare. -/
theorem parsed_tree_trusted {source : Source} {tokens : List Token} {root : Node}
    (htokens : tokenize source = .ok tokens) (hparse : Node.parse tokens = .ok root) :
    Seat.program.Fits root ∧
    (∀ console workspace, (Session.start console workspace).machine.store.FromSources) ∧
    (∀ m : Machine, m.Idle → m.store.FromSources → ∀ (bound : Nat) (scope : ScopeId),
      m.Always longPaths bound scope root ∧
        (m.runWithin bound scope source).2.store.FromSources) ∧
    (∀ (otherwise : Action Value) (op : BinaryOp) (lhs rhs : Value),
      Operator.binaryOr otherwise op lhs rhs = Operator.binary op lhs rhs) := by
  have hsource : Node.ofSource source = .ok root := by
    rw [Node.ofSource, htokens]
    exact hparse
  refine ⟨Node.fits_of_parse htokens hparse, Session.start_runs,
    fun m hidle hstore bound scope => ?_, Operator.binaryOr_eq_binary⟩
  obtain ⟨-, hdepth, -⟩ := hidle.place
  refine ⟨?_, ?_⟩
  · exact Machine.always_of_code (fun _ _ => Node.reads_isRead)
      (fun h => longPaths_of_regular h.regular) (fun _ _ _ => rfl) hdepth hstore bound scope
      (Node.reads_isRead source trivial root hsource)
  · exact Machine.runWithin_runs (fun _ _ => Node.reads_isRead) hdepth hstore bound scope
      (Node.reads_isRead source trivial)

/-- A dotted assignment inside a function, in a fresh session. -/
theorem nested_assignment_trusted : ∃ (tokens : List Token) (root : Node),
    tokenize ⟨"main", "func f(o, p?) => o.p.q += p\nf(math)"⟩ = .ok tokens ∧
      Node.parse tokens = .ok root ∧ Seat.program.Fits root ∧
      (Session.start default .memory).machine.Always longPaths 9 ⟨0⟩ root := by
  have hread : (Node.ofSource ⟨"main", "func f(o, p?) => o.p.q += p\nf(math)"⟩).toOption.isSome =
      true := by
    decide +kernel
  obtain ⟨tokens, root, htokens, hparse⟩ := Node.exists_parse hread
  obtain ⟨hfits, hfresh, hruns, -⟩ := parsed_tree_trusted htokens hparse
  have hidle : (Session.start default .memory).machine.Idle := .host _ _ _ (.start default .memory)
  exact ⟨tokens, root, htokens, hparse, hfits, (hruns _ hidle (hfresh _ _) 9 ⟨0⟩).1⟩

end BpScript
