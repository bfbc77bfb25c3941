import BpScript.Proofs.Discipline.Construct

/-!
# Which scopes an evaluation changes

Names are looked up from the inside out but bound in the current scope only, so an assignment
shadows an outer binding and never changes it.  Over whole runs this says: evaluating a node in a
scope changes the bindings of no other scope that was there, and takes no name away.  A call binds
in a scope of its own, so for its caller no scope has changed at all.

* `Store.KeepsScopes` — all that may have happened to the scopes that were there.
* `Discipline.scopes` — the elementary changes keep scopes; the law of calls gives the caller a
  frame that mentions no scope.
* `invoke_keeps_every_scope` — a call.
* **`evalWithin_binds_only_in_own_scope`** — any node.
-/

namespace BpScript

/-! ## Frames -/

/-- What may have happened to the scopes of a store while a node was evaluated in `own`. -/
structure Store.KeepsScopes (own : ScopeId) (s s' : Store) : Prop where
  size_le : s.scopes.size ≤ s'.scopes.size
  /-- Other scopes are as they were. -/
  others : ∀ id : ScopeId, id.index < s.scopes.size → id ≠ own →
    s'.scopes.get? id.index = s.scopes.get? id.index
  parent : own.index < s.scopes.size → s'.parent? own = s.parent? own
  /-- Names may be bound anew, but none is taken away. -/
  names : ∀ name ∈ (s.bindings own).keys, name ∈ (s'.bindings own).keys

namespace Store

variable {s s' : Store} {own : ScopeId}

/-- Lists and objects are no scopes. -/
theorem KeepsScopes.of_scopes_eq (h : s'.scopes = s.scopes) : KeepsScopes own s s' := by
  refine ⟨Nat.le_of_eq ?_, fun id _ _ => ?_, fun _ => ?_, fun name hname => ?_⟩
  · rw [h]
  · rw [h]
  · rw [parent?, parent?, h]
  · rw [bindings, h]
    exact hname

theorem KeepsScopes.refl (own : ScopeId) (s : Store) : KeepsScopes own s s :=
  .of_scopes_eq rfl

theorem KeepsScopes.trans {a b c : Store} (hab : KeepsScopes own a b) (hbc : KeepsScopes own b c) :
    KeepsScopes own a c := by
  refine ⟨Nat.le_trans hab.size_le hbc.size_le, fun id hid hne => ?_, fun hown => ?_,
    fun name hname => hbc.names name (hab.names name hname)⟩
  · rw [hbc.others id (Nat.lt_of_lt_of_le hid hab.size_le) hne, hab.others id hid hne]
  · rw [hbc.parent (Nat.lt_of_lt_of_le hown hab.size_le), hab.parent hown]

/-- A scope that is not there has no bindings. -/
theorem bindings_eq_nil_of_size_le {id : ScopeId} (h : s.scopes.size ≤ id.index) :
    s.bindings id = [] := by
  rw [bindings, Heap.get?_eq_none h]

/-- Where every scope is as it was, scopes are kept whichever of them is the current one. -/
theorem KeepsScopes.of_all (hsize : s.scopes.size ≤ s'.scopes.size)
    (h : ∀ id : ScopeId, id.index < s.scopes.size →
      s'.scopes.get? id.index = s.scopes.get? id.index) : KeepsScopes own s s' := by
  refine ⟨hsize, fun id hid _ => h id hid, fun hown => parent?_eq_of_get?_eq (h own hown),
    fun name hname => ?_⟩
  by_cases hown : own.index < s.scopes.size
  · rw [bindings_eq_of_get?_eq (h own hown)]
    exact hname
  · rw [bindings_eq_nil_of_size_le (Nat.le_of_not_lt hown)] at hname
    cases hname

/-- Whatever happened with a scope as the current one that was made first, all scopes that were
there before are as they were. -/
theorem KeepsScopes.get?_eq_of_newScope {scope : Scope}
    (h : KeepsScopes (s.newScope scope).1 (s.newScope scope).2 s') {id : ScopeId}
    (hid : id.index < s.scopes.size) : s'.scopes.get? id.index = s.scopes.get? id.index := by
  have hne : id ≠ (s.newScope scope).1 := by
    rintro rfl
    exact Nat.lt_irrefl _ hid
  rw [h.others id (Heap.lt_size_alloc_iff.2 (.inl hid)) hne]
  exact Heap.get?_alloc_of_lt hid

theorem KeepsScopes.of_newScope {scope : Scope}
    (h : KeepsScopes (s.newScope scope).1 (s.newScope scope).2 s') : KeepsScopes own s s' := by
  refine .of_all (Nat.le_trans ?_ h.size_le) fun id hid => h.get?_eq_of_newScope hid
  show s.scopes.size ≤ (s.scopes.alloc scope).2.size
  rw [Heap.size_alloc]
  exact Nat.le_succ _

/-- Binding a name in the current scope. -/
theorem keepsScopes_bind (name : String) (binding : Binding) :
    KeepsScopes own s (s.bind own name binding) := by
  refine ⟨Nat.le_of_eq (Heap.size_modify ..).symm, fun id _ hne => ?_, fun _ => ?_,
    fun other hother => ?_⟩
  · have hindex : own.index ≠ id.index := fun h => hne (congrArg ScopeId.mk h.symm)
    exact Heap.get?_modify_of_ne hindex
  · rw [parent?, parent?, Store.bind, Heap.get?_modify_self]
    cases s.scopes.get? own.index <;> rfl
  · rw [bindings] at hother
    rw [bindings, Store.bind, Heap.get?_modify_self]
    cases hscope : s.scopes.get? own.index with
    | none =>
      rw [hscope] at hother
      cases hother
    | some scope =>
      rw [hscope] at hother
      show other ∈ Table.keys (scope.bindings.set name binding)
      rw [Table.keys_set]
      split
      · exact hother
      · exact List.mem_append_left _ hother

end Store

open Store

/-- Scopes are kept by whatever changes the store.  Calls and modules have the scope they run in
made for them. -/
def Discipline.scopes : Discipline Unit where
  Sound _ _ := True
  Refers _ _ _ := True
  Runs _ _ _ _ := True
  Imports _ := True
  Grows _ own s s' := KeepsScopes own s s'
  grows_refl _ own s := .refl own s
  grows_trans := .trans
  refers_mono _ _ := trivial
  runs_mono _ _ := trivial
  runs_part _ _ := trivial
  imports_of_runs _ _ := trivial
  refers_closure _ _ := trivial
  items_within _ _ _ _ _ := trivial
  entries_within _ _ _ _ _ := trivial
  lookup_within _ _ _ _ _ := trivial
  newList _ _ _ := ⟨trivial, .of_scopes_eq rfl, trivial⟩
  newObject _ _ _ _ := ⟨trivial, .of_scopes_eq rfl, trivial⟩
  bind _ _ _ _ := ⟨trivial, keepsScopes_bind _ _⟩
  modifyItems _ _ _ _ := ⟨trivial, .of_scopes_eq rfl⟩
  modifyEntries _ _ _ _ _ := ⟨trivial, .of_scopes_eq rfl⟩
  call _ _ _ _ _ := ⟨trivial, trivial, fun _ _ h => h.of_newScope⟩
  load {_ s} _ _ := ⟨(), trivial, fun _ _ _ _ => trivial, fun s' _ h => ⟨trivial, fun own => by
    -- the object `math` is made first, and is no scope
    have hmath : KeepsScopes own s (s.newObject mathConstants).2 := .of_scopes_eq rfl
    exact hmath.trans h.of_newScope, fun _ _ _ _ => trivial⟩⟩

theorem Discipline.scopes_open : Discipline.scopes.Open := fun _ _ _ => trivial

/-! ## Evaluation -/

variable {m : Machine}

/-- Evaluating a node in a scope keeps the scopes. -/
theorem evalWithin_keepsScopes (bound : Nat) (own : ScopeId) (node : Node) (m : Machine) :
    KeepsScopes own m.store ((Node.evalWithin bound own node).run m).2.store := by
  have hruns : Discipline.scopes.Runs () m.store own node := trivial
  exact (Node.evalWithin_keeps Discipline.scopes Discipline.scopes_open bound hruns trivial).1.grows

/-- **A call changes no scope.**  However the call goes on, the scopes that were there when it was
made have the parents and bindings they had. -/
theorem invoke_keeps_every_scope (bound : Nat) (f : Callable) (args : List Value) (span : Span)
    (m : Machine) :
    let r := (Construct.invoke (Node.evalWithin bound) f args span).run m
    m.SamePlace r.2 ∧ ∀ id : ScopeId, id.index < m.store.scopes.size →
      r.2.store.scopes.get? id.index = m.store.scopes.get? id.index := by
  -- calls keep scopes whichever is the current one, so also for one that is not there
  let absent : ScopeId := ⟨m.store.scopes.size⟩
  have hcall : Construct.SettlesWith Discipline.scopes () absent (Discipline.scopes.Carries ()) m
      (Construct.invoke (Node.evalWithin bound) f args span) :=
    Construct.invoke_settles
      (Node.evalWithin_keeps Discipline.scopes Discipline.scopes_open bound)
      (fun _ => trivial) trivial (fun _ _ => trivial) fun _ _ _ _ => trivial
  have hlater := (hcall trivial).1
  refine ⟨hlater.place, fun id hid => hlater.grows.others id hid ?_⟩
  rintro rfl
  exact Nat.lt_irrefl _ hid

/-- A call expression, from the point where its function and arguments are known. -/
theorem run_call_of_evaluated {bound : Nat} {own : ScopeId} {callee : Node} {args : List Node}
    (span : Span) {f : Callable} {values : List Value} {m₁ m₂ : Machine}
    (hcallee : (Node.evalWithin bound own callee).run m = (.ok (.callable f), m₁))
    (hargs : (Construct.evalAll (Node.evalWithin bound) own args).run m₁ = (.ok values, m₂)) :
    (Node.evalWithin (bound + 1) own (.mk (.call callee args) span)).run m =
      (Construct.invoke (Node.evalWithin bound) f values span).run m₂ := by
  show (Construct.call (Node.evalWithin bound) own callee args span).run m = _
  rw [Construct.call, Step.run_bind_ok hcallee, Step.run_bind_ok hargs]

/-- **Names are bound in the current scope only.**  Evaluating a node in a scope, to any outcome,
changes the bindings of no other scope that was there, takes no name away from its own, and changes
no parent.  A call expression whose function and arguments are evaluated changes no scope at all,
its own included. -/
theorem evalWithin_binds_only_in_own_scope (bound : Nat) (own : ScopeId) (m : Machine) :
    (∀ node : Node,
      let s' := ((Node.evalWithin bound own node).run m).2.store
      (∀ id : ScopeId, id.index < m.store.scopes.size → id ≠ own →
        s'.bindings id = m.store.bindings id) ∧
      (∀ name ∈ (m.store.bindings own).keys, name ∈ (s'.bindings own).keys) ∧
      (∀ id : ScopeId, id.index < m.store.scopes.size → s'.parent? id = m.store.parent? id)) ∧
    (∀ (callee : Node) (args : List Node) (span : Span) (f : Callable) (values : List Value)
        (m₁ m₂ : Machine),
      (Node.evalWithin bound own callee).run m = (.ok (.callable f), m₁) →
      (Construct.evalAll (Node.evalWithin bound) own args).run m₁ = (.ok values, m₂) →
      let r := (Node.evalWithin (bound + 1) own (.mk (.call callee args) span)).run m
      m₂.SamePlace r.2 ∧
        ∀ id : ScopeId, id.index < m₂.store.scopes.size →
          r.2.store.bindings id = m₂.store.bindings id ∧
            r.2.store.parent? id = m₂.store.parent? id) := by
  refine ⟨fun node => ?_, fun callee args span f values m₁ m₂ hcallee hargs => ?_⟩
  · have hkeeps := evalWithin_keepsScopes bound own node m
    refine ⟨fun id hid hne => bindings_eq_of_get?_eq (hkeeps.others id hid hne), hkeeps.names,
      fun id hid => ?_⟩
    by_cases hown : id = own
    · rw [hown] at hid ⊢
      exact hkeeps.parent hid
    · exact parent?_eq_of_get?_eq (hkeeps.others id hid hown)
  · rw [run_call_of_evaluated span hcallee hargs]
    obtain ⟨hplace, hscopes⟩ := invoke_keeps_every_scope bound f values span m₂
    exact ⟨hplace, fun id hid =>
      ⟨bindings_eq_of_get?_eq (hscopes id hid), parent?_eq_of_get?_eq (hscopes id hid)⟩⟩

/-- A function that binds `x` anew, called where `x` is bound. -/
theorem shadowing_call_keeps_binding :
    let outer : Table String Binding := [("x", ⟨.null, false⟩)]
    let m : Machine :=
      { Machine.start default .memory with store := (Store.empty.newScope ⟨outer, none⟩).2 }
    let body : Node := .mk (.assign ⟨"x", default⟩ .set (.mk (.boolean true) default) true false)
      default
    let callee : Node := .mk (.function (.mk none [] body false false)) default
    let r := (Node.evalWithin 4 ⟨0⟩ (.mk (.call callee []) default)).run m
    r.2.store.bindings ⟨0⟩ = outer := by
  intro outer m body callee r
  have hcall := (evalWithin_binds_only_in_own_scope 3 ⟨0⟩ m).2 callee [] default
    (.closure ⟨.mk none [] body false false, ⟨0⟩⟩) [] m m rfl rfl
  exact (hcall.2 ⟨0⟩ (by decide)).1

end BpScript
