import BpScript.Proofs.Yield

/-!
# The nodes of a tree

A tree holds its root, the nodes that its root consists of, and so on down.  What is said of every
node of a tree is said of each one alone, and of all of them by `Node.All`.

* `Node.Contains` — the nodes of a tree, the bodies of functions included.
* `Node.All` — what holds of each of them.
* `Node.allWithin` — the same as a test.
* `Node.parse_of_ofSource` — the tree of a source is that of its tokens.
-/

namespace BpScript

namespace Node

/-- The nodes of the tree below `root`, itself included. -/
inductive Contains (root : Node) : Node → Prop where
  | self : root.Contains root
  | inside {node child : Node} : root.Contains node → .node child ∈ node.form.contents →
      root.Contains child

/-- Every node of the tree is a `Q`. -/
def All (Q : Node → Prop) (root : Node) : Prop :=
  ∀ node, root.Contains node → Q node

variable {Q : Node → Prop} {root node : Node}

theorem All.self (h : root.All Q) : Q root :=
  h root .self

/-- The tree below a node is a part of the tree that the node is in. -/
theorem Contains.trans {inner : Node} (h : root.Contains node) (h' : node.Contains inner) :
    root.Contains inner := by
  induction h' with
  | self => exact h
  | inside _ hchild ih => exact ih.inside hchild

theorem All.of_mem_contents (h : root.All Q) (hnode : .node node ∈ root.form.contents) :
    node.All Q :=
  fun _ hinner => h _ ((Contains.self.inside hnode).trans hinner)

/-- What holds of a root and in the trees below it holds in the whole tree. -/
theorem All.intro (hroot : Q root) (hparts : ∀ node, .node node ∈ root.form.contents → node.All Q) :
    root.All Q := by
  -- a node of the tree is the root, or stands in a tree right below it
  have hsplit : ∀ inner, root.Contains inner →
      inner = root ∨ ∃ node, .node node ∈ root.form.contents ∧ node.Contains inner := by
    intro inner hinner
    induction hinner with
    | self => exact .inl rfl
    | inside _ hchild ih =>
      rcases ih with rfl | ⟨node, hnode, hcontains⟩
      · exact .inr ⟨_, hchild, .self⟩
      · exact .inr ⟨node, hnode, hcontains.inside hchild⟩
  intro inner hinner
  rcases hsplit inner hinner with rfl | ⟨node, hnode, hcontains⟩
  · exact hroot
  · exact hparts node hnode inner hcontains

/-- Looks at every node of a tree that is at most `bound` deep. -/
def allWithin (p : Node → Bool) : (bound : Nat) → Node → Bool
  | 0, _ => false
  | bound + 1, node => p node && node.form.contents.all fun
    | .node child => allWithin p bound child
    | _ => true

theorem All.of_allWithin {p : Node → Bool} : ∀ {bound : Nat} {root : Node},
    allWithin p bound root = true → root.All fun node => p node = true
  | 0, _, h => by cases h
  | bound + 1, root, h => by
    obtain ⟨hroot, hparts⟩ := Bool.and_eq_true_iff.1 h
    exact .intro hroot fun node hnode => of_allWithin (List.all_eq_true.1 hparts _ hnode)

/-! ## The tree of a source -/

/-- A source that can be read has tokens, and they are what is read. -/
theorem parse_of_ofSource {source : Source} (h : ofSource source = .ok root) :
    ∃ tokens, tokenize source = .ok tokens ∧ parse tokens = .ok root := by
  unfold ofSource at h
  cases htokens : tokenize source with
  | error e =>
    rw [htokens] at h
    cases h
  | ok tokens =>
    rw [htokens] at h
    exact ⟨tokens, rfl, h⟩

theorem ofSource_of_toOption {source : Source} (h : (ofSource source).toOption = some root) :
    ofSource source = .ok root := by
  cases hroot : ofSource source with
  | error failure =>
    rw [hroot] at h
    cases h
  | ok other =>
    rw [hroot] at h
    exact congrArg Except.ok (Option.some.inj h)

theorem exists_parse {source : Source} (h : (ofSource source).toOption.isSome = true) :
    ∃ tokens root, tokenize source = .ok tokens ∧ parse tokens = .ok root := by
  obtain ⟨root, hroot⟩ := Option.isSome_iff_exists.1 h
  obtain ⟨tokens, htokens, hparse⟩ := parse_of_ofSource (ofSource_of_toOption hroot)
  exact ⟨tokens, root, htokens, hparse⟩

end Node

end BpScript
