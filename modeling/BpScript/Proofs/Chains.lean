import BpScript.Proofs.Code
import BpScript.Proofs.Reach

/-!
# Parent chains

A name is looked up in a scope, in the scope around it, and so on.  The scopes that are looked at
form a chain.  In the stores of runs a scope is made after the one around it, so chains end and pass
no scope twice; and nothing ever puts a scope into another one later.

* `Store.Chain` — the scopes from one scope outwards.
* `Store.ParentsOlder` — the scope around a scope was made before it.
* `Store.ParentsOlder.exists_chain`, `Store.Chain.nodup`, `Store.Chain.lookup_eq` — chains end, pass
  no scope twice, and are all that a lookup looks at.
* `Store.KeepsParents` — scopes stay in the scopes they are in.
* `Node.Under` — the functions around the nodes of a tree.
-/

namespace BpScript

namespace Store

/-! ## Chains -/

/-- The scopes from a scope outwards. -/
inductive Chain (s : Store) : ScopeId → List ScopeId → Prop where
  | root {E : ScopeId} : s.parent? E = none → Chain s E [E]
  | inside {E outer : ScopeId} {chain : List ScopeId} : s.parent? E = some outer →
    Chain s outer chain → Chain s E (E :: chain)

/-- The scope around a scope was made before it. -/
def ParentsOlder (s : Store) : Prop :=
  ∀ E outer, s.parent? E = some outer → outer.index < E.index

variable {s s' : Store} {E : ScopeId} {chain : List ScopeId}

/-- Chains end. -/
theorem ParentsOlder.exists_chain (h : s.ParentsOlder) (E : ScopeId) :
    ∃ chain, s.Chain E chain := by
  induction hindex : E.index using Nat.strong_induction_on generalizing E with
  | _ index ih =>
    cases hparent : s.parent? E with
    | none => exact ⟨[E], .root hparent⟩
    | some outer =>
      obtain ⟨chain, hchain⟩ := ih outer.index (hindex ▸ h E outer hparent) outer rfl
      exact ⟨E :: chain, .inside hparent hchain⟩

/-- One step of a lookup. -/
theorem lookupWithin_succ {name : String} {bound : Nat} :
    s.lookupWithin name (bound + 1) E =
      ((s.bindings E).get? name).or ((s.parent? E).bind (s.lookupWithin name bound)) := by
  rw [lookupWithin, bindings, parent?]
  cases s.scopes.get? E.index with
  | none => rfl
  | some scope => cases hfound : Table.get? name scope.bindings <;> simp [hfound]

namespace Chain

theorem mem_index_le (hs : s.ParentsOlder) (h : s.Chain E chain) :
    ∀ scope ∈ chain, scope.index ≤ E.index := by
  induction h with
  | root _ => simp
  | @inside E outer chain hparent _ ih =>
    intro scope hscope
    rcases List.mem_cons.1 hscope with rfl | hscope
    · exact Nat.le_refl _
    · exact Nat.le_trans (ih scope hscope) (Nat.le_of_lt (hs E outer hparent))

/-- A chain passes no scope twice. -/
theorem nodup (hs : s.ParentsOlder) (h : s.Chain E chain) : chain.Nodup := by
  induction h with
  | root _ => simp
  | @inside E outer chain hparent hchain ih =>
    refine List.nodup_cons.2 ⟨fun hmem => ?_, ih⟩
    exact absurd (hs E outer hparent) (Nat.not_lt.2 (hchain.mem_index_le hs E hmem))

theorem length_le (hs : s.ParentsOlder) (h : s.Chain E chain) : chain.length ≤ E.index + 1 := by
  induction h with
  | root _ => simp
  | @inside E outer chain hparent _ ih =>
    have hlt := hs E outer hparent
    rw [List.length_cons]
    omega

theorem lookupWithin_eq {name : String} (h : s.Chain E chain) {bound : Nat}
    (hbound : chain.length ≤ bound) :
    s.lookupWithin name bound E = s.lookupWithin name chain.length E := by
  induction h generalizing bound with
  | @root E hparent =>
    obtain ⟨rest, rfl⟩ := Nat.exists_eq_add_of_le' hbound
    simp only [List.length_singleton, lookupWithin_succ, hparent, Option.bind_none]
  | @inside E outer chain hparent _ ih =>
    obtain ⟨rest, rfl⟩ := Nat.exists_eq_add_of_le' hbound
    have hrest := ih (Nat.le_add_left chain.length rest)
    rw [List.length_cons, ← Nat.add_assoc]
    simp only [lookupWithin_succ, hparent, Option.bind_some, hrest]

/-- A lookup looks at the chain and at nothing else: as many steps as the chain has scopes are
enough. -/
theorem lookup_eq (hs : s.ParentsOlder) (h : s.Chain E chain) (name : String) :
    s.lookup E name = s.lookupWithin name chain.length E :=
  h.lookupWithin_eq (h.length_le hs)

end Chain

/-! ## Changes -/

/-- Scopes stay in the scopes they are in. -/
structure KeepsParents (s s' : Store) : Prop where
  size_le : s.scopes.size ≤ s'.scopes.size
  parent : ∀ id : ScopeId, id.index < s.scopes.size → s'.parent? id = s.parent? id

namespace KeepsParents

/-- Lists and objects are no scopes. -/
theorem of_scopes_eq (h : s'.scopes = s.scopes) : s.KeepsParents s' := by
  refine ⟨Nat.le_of_eq ?_, fun id _ => ?_⟩
  · rw [h]
  · rw [parent?, parent?, h]

theorem refl (s : Store) : s.KeepsParents s := .of_scopes_eq rfl

theorem trans {a b c : Store} (hab : a.KeepsParents b) (hbc : b.KeepsParents c) :
    a.KeepsParents c :=
  ⟨Nat.le_trans hab.size_le hbc.size_le, fun id hid =>
    (hbc.parent id (Nat.lt_of_lt_of_le hid hab.size_le)).trans (hab.parent id hid)⟩

theorem newScope (s : Store) (scope : Scope) : s.KeepsParents (s.newScope scope).2 := by
  refine ⟨?_, fun id hid => ?_⟩
  · show s.scopes.size ≤ (s.scopes.alloc scope).2.size
    rw [Heap.size_alloc]
    exact Nat.le_succ _
  · exact parent?_eq_of_get?_eq (Heap.get?_alloc_of_lt hid)

theorem newRoot (s : Store) : s.KeepsParents s.newRoot.2 := by
  have hmath : s.KeepsParents (s.newObject mathConstants).2 := .of_scopes_eq rfl
  exact hmath.trans (.newScope _ _)

theorem bind (s : Store) (E : ScopeId) (name : String) (binding : Binding) :
    s.KeepsParents (s.bind E name binding) :=
  ⟨Nat.le_of_eq (Heap.size_modify ..).symm, fun id _ => parent?_bind E name binding id⟩

end KeepsParents

/-- A scope that is in another one is there. -/
theorem holds_of_parent? {outer : ScopeId} (h : s.parent? E = some outer) :
    E.index < s.scopes.size := by
  by_contra hE
  rw [parent?, Heap.get?_eq_none (Nat.not_lt.1 hE)] at h
  cases h

namespace ParentsOlder

theorem empty : Store.empty.ParentsOlder := by
  intro E outer h
  exact absurd (holds_of_parent? h) (Nat.not_lt_zero _)

theorem of_scopes_eq (hs : s.ParentsOlder) (h : s'.scopes = s.scopes) : s'.ParentsOlder := by
  intro E outer hparent
  rw [parent?, h] at hparent
  exact hs E outer hparent

theorem newScope (hs : s.ParentsOlder) {scope : Scope}
    (h : ∀ outer, scope.parent = some outer → outer.index < s.scopes.size) :
    (s.newScope scope).2.ParentsOlder := by
  intro E outer hparent
  rcases Heap.lt_size_alloc_iff.1 (holds_of_parent? hparent) with hE | hE
  · rw [(KeepsParents.newScope s scope).parent E hE] at hparent
    exact hs E outer hparent
  · obtain rfl : E = (s.newScope scope).1 := congrArg ScopeId.mk hE
    rw [parent?_newScope] at hparent
    exact h outer hparent

theorem newRoot (hs : s.ParentsOlder) : s.newRoot.2.ParentsOlder := by
  have hmath : (s.newObject mathConstants).2.ParentsOlder := hs.of_scopes_eq rfl
  exact hmath.newScope nofun

theorem bind (hs : s.ParentsOlder) (E : ScopeId) (name : String) (binding : Binding) :
    (s.bind E name binding).ParentsOlder := by
  intro id outer hparent
  rw [parent?_bind] at hparent
  exact hs id outer hparent

end ParentsOlder

end Store

/-! ## Functions around nodes -/

/-- The node stands in the tree of `root`, and these functions are around it, innermost first. -/
inductive Node.Under (root : Node) : List Function → Node → Prop where
  | root : Under root [] root
  | part {functions : List Function} {node part : Node} : Under root functions node →
    part ∈ node.form.parts → Under root functions part
  | body {functions : List Function} {node : Node} {definition : Function} :
    Under root functions node → node.form = .function definition →
    Under root (definition :: functions) definition.body

/-- What a node consists of is evaluated along with it, or else is the body of a function. -/
theorem Form.mem_parts_of_mem_contents {form : Form} {node : Node}
    (h : .node node ∈ form.contents) :
    node ∈ form.parts ∨ ∃ definition, form = .function definition ∧ node = definition.body := by
  cases form
  case switch subject cases otherwise =>
    left
    simp only [contents, List.mem_cons, Part.node.injEq, List.mem_flatMap, Clause.mem_inOrder] at h
    rcases h with rfl | ⟨clause, ⟨case, hcase, rfl⟩ | ⟨default, rfl, rfl⟩, hnode⟩
    · exact List.mem_append_left _ List.mem_cons_self
    · have hmem : node = case.1 ∨ node = case.2 := by simpa [Clause.ofCase] using hnode
      rcases hmem with rfl | rfl
      · exact (mem_parts_of_case hcase).1
      · exact (mem_parts_of_case hcase).2
    · obtain rfl : node = default := by simpa using hnode
      exact List.mem_append_right _ (by simp)
  case function definition =>
    right
    cases definition
    simp at h
    exact ⟨_, rfl, h⟩
  all_goals simp [parts] at h ⊢
  all_goals grind

/-- Every node of a tree has functions around it, possibly none. -/
theorem Node.contains_iff_under {root node : Node} :
    root.Contains node ↔ ∃ functions, root.Under functions node := by
  constructor
  · intro h
    induction h with
    | self => exact ⟨[], .root⟩
    | inside _ hchild ih =>
      obtain ⟨functions, hunder⟩ := ih
      rcases Form.mem_parts_of_mem_contents hchild with hpart | ⟨definition, hform, rfl⟩
      · exact ⟨functions, hunder.part hpart⟩
      · exact ⟨definition :: functions, hunder.body hform⟩
  · rintro ⟨functions, h⟩
    induction h with
    | root => exact .self
    | part _ hpart ih => exact ih.inside (Form.mem_contents_of_mem_parts hpart)
    | body _ hform ih => exact ih.inside (hform ▸ Form.body_mem_contents _)

end BpScript
