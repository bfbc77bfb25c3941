import BpScript.Proofs.Chains
import BpScript.Proofs.Events

/-!
# Static scoping

Which scopes are looked at for a name depends on where the name stands in its program, and not on
the calls that have led there.  A node is evaluated in a scope that lies as deep inside the scope of
its program as the node lies inside functions: for each function around the node there is one scope,
made by a call of this very function, and each of these scopes is in the next one.  The values that
carry scopes around are closures.  In lists, objects and scopes they may get anywhere, but a closure
always has the scope that its definition was evaluated in.

* `History` — where programs were run so far, and what scopes were made for.
* `History.Nest` — scopes made by calls, one inside of the other.
* `History.Places` — the scope that a node may be evaluated in; `History.Scoped` — all closures in
  a store have such a scope.
* `Discipline.static` — every elementary change keeps it.
* `History.Static` — what this says about a node and the chain of its scope.
* **`static_scoping`** — every node that any run evaluates.
-/

namespace BpScript

open Store Discipline

/-! ## Histories -/

/-- Where programs were run, and what scopes were made for. -/
structure History where
  programs : Set (ScopeId × Source)
  made : Set (ScopeId × Origin)

namespace History

/-- Nothing has happened yet. -/
def nil : History := ⟨∅, ∅⟩

/-- Everything in the first history is in the second one. -/
structure Before (H H' : History) : Prop where
  programs : H.programs ⊆ H'.programs
  made : H.made ⊆ H'.made

/-- In this scope the tree was run, as a program or as a module. -/
def Base (H : History) (E : ScopeId) (root : Node) : Prop :=
  ∃ source, ((E, source) ∈ H.programs ∨ (E, .module source) ∈ H.made) ∧
    Node.ofSource source = .ok root

/-- The scopes `added` lie one inside of the other, and the outermost one lies in `base`.  They were
made by calls of these functions, one scope for each function, innermost first. -/
inductive Nest (H : History) (s : Store) (base : ScopeId) :
    List Function → List ScopeId → ScopeId → Prop where
  | base : Nest H s base [] [] base
  | call {functions : List Function} {added : List ScopeId} {c : Closure} {E : ScopeId} :
    Nest H s base functions added c.scope → (E, .call c) ∈ H.made → s.parent? E = some c.scope →
    Nest H s base (c.definition :: functions) (E :: added) E

/-- The scope lies as deep inside the scope of a program as the node lies inside functions. -/
def Places (H : History) (s : Store) (E : ScopeId) (node : Node) : Prop :=
  ∃ base root functions added, base.index < s.scopes.size ∧ H.Base base root ∧
    root.Under functions node ∧ H.Nest s base functions added E

/-- The closure has a scope that its definition may be evaluated in. -/
def Closes (H : History) (s : Store) (c : Closure) : Prop :=
  ∃ node, node.form = .function c.definition ∧ H.Places s c.scope node

/-- Every closure in the store has the scope it should have. -/
structure Scoped (H : History) (s : Store) : Prop where
  older : s.ParentsOlder
  closes : ∀ v, s.Stored v → ∀ c, v.ref? = some (.closure c) → H.Closes s c

variable {H H' : History} {s s' : Store} {base E : ScopeId} {functions : List Function}
  {added : List ScopeId} {node : Node}

/-! ## Nested scopes -/

namespace Nest

theorem mono (h : H.Nest s base functions added E) (hH : H.Before H') (hs : s.KeepsParents s') :
    H'.Nest s' base functions added E := by
  induction h with
  | base => exact .base
  | call _ hmade hparent ih =>
    exact .call ih (hH.made hmade) ((hs.parent _ (holds_of_parent? hparent)).trans hparent)

theorem holds (h : H.Nest s base functions added E) (hbase : base.index < s.scopes.size) :
    E.index < s.scopes.size := by
  cases h with
  | base => exact hbase
  | call _ _ hparent => exact holds_of_parent? hparent

/-- There is one scope for each function. -/
theorem length_eq (h : H.Nest s base functions added E) : added.length = functions.length := by
  induction h with
  | base => rfl
  | call _ _ _ ih => exact congrArg (· + 1) ih

/-- The chain of a nested scope goes through all the scopes it is nested in, and on from the
base. -/
theorem chain (h : H.Nest s base functions added E) {outer : List ScopeId}
    (houter : s.Chain base outer) : s.Chain E (added ++ outer) := by
  induction h with
  | base => exact houter
  | call _ _ hparent ih => exact .inside hparent ih

end Nest

theorem Before.refl (H : History) : H.Before H :=
  ⟨fun _ => id, fun _ => id⟩

theorem Base.mono {root : Node} (h : H.Base base root) (hH : H.Before H') : H'.Base base root := by
  obtain ⟨source, hsource, hroot⟩ := h
  exact ⟨source, hsource.imp (hH.programs ·) (hH.made ·), hroot⟩

theorem Places.mono (h : H.Places s E node) (hH : H.Before H') (hs : s.KeepsParents s') :
    H'.Places s' E node := by
  obtain ⟨base, root, functions, added, hbase, hroot, hunder, hnest⟩ := h
  exact ⟨base, root, functions, added, Nat.lt_of_lt_of_le hbase hs.size_le, hroot.mono hH, hunder,
    hnest.mono hH hs⟩

theorem Closes.mono {c : Closure} (h : H.Closes s c) (hH : H.Before H') (hs : s.KeepsParents s') :
    H'.Closes s' c := by
  obtain ⟨node, hform, hplaces⟩ := h
  exact ⟨node, hform, hplaces.mono hH hs⟩

theorem Places.holds (h : H.Places s E node) : E.index < s.scopes.size := by
  obtain ⟨_, _, _, _, hbase, -, -, hnest⟩ := h
  exact hnest.holds hbase

theorem Scoped.mono (h : H.Scoped s) (hH : H.Before H') : H'.Scoped s :=
  ⟨h.older, fun v hv c hc => (h.closes v hv c hc).mono hH (.refl s)⟩

/-! ## The discipline -/

/-- A closure that is referred to has the scope it should have. -/
def Refers (H : History) (s : Store) : Ref → Prop
  | .closure c => H.Closes s c
  | _ => True

theorem Refers.mono (hs : s.KeepsParents s') : ∀ {r : Ref}, H.Refers s r → H.Refers s' r
  | .closure _, h => Closes.mono h (.refl H) hs
  | .list _, _ => trivial
  | .object _, _ => trivial

theorem Scoped.within (h : H.Scoped s) {v : Value} (hv : s.Stored v) : v.Within (H.Refers s) := by
  intro r hr
  cases r with
  | closure c => exact h.closes v hv c hr
  | _ => trivial

/-- A change of the store that keeps scopes where they are, and adds closures that have the scopes
they should have. -/
theorem Scoped.add (h : H.Scoped s) (holder : s'.ParentsOlder) (hs : s.KeepsParents s')
    (hadd : Adds (·.Within (H.Refers s)) s s') : H.Scoped s' := by
  have hwithin := hadd.forall_stored fun _ => h.within
  exact ⟨holder, fun v hv c hc => (hwithin v hv (.closure c) hc).mono hs⟩

/-- A change of lists and objects. -/
theorem Scoped.add_cells (h : H.Scoped s) (hscopes : s'.scopes = s.scopes)
    (hadd : Adds (·.Within (H.Refers s)) s s') : H.Scoped s' :=
  h.add (h.older.of_scopes_eq hscopes) (.of_scopes_eq hscopes) hadd

theorem Scoped.newRoot (h : H.Scoped s) : H.Scoped s.newRoot.2 :=
  h.add h.older.newRoot (.newRoot s) <|
    adds_newRoot.imp fun _ => Value.within_of_ne_closure (fun _ => trivial) fun _ => trivial

/-- **A call nests.**  The body of a function lies in one function more than its definition, and the
scope of the call lies in the scope that the definition was evaluated in. -/
theorem Closes.call {c : Closure} {bindings : Table String Binding} (h : H.Closes s c)
    (hmade : ((s.newScope ⟨bindings, some c.scope⟩).1, .call c) ∈ H.made) :
    H.Places (s.newScope ⟨bindings, some c.scope⟩).2 (s.newScope ⟨bindings, some c.scope⟩).1
      c.definition.body := by
  have hs := KeepsParents.newScope s ⟨bindings, some c.scope⟩
  obtain ⟨node, hform, base, root, functions, added, hbase, hroot, hunder, hnest⟩ := h
  exact ⟨base, root, c.definition :: functions, _ :: added, Nat.lt_of_lt_of_le hbase hs.size_le,
    hroot, hunder.body hform, .call (hnest.mono (.refl H) hs) hmade (parent?_newScope _)⟩

end History

/-- Every node is evaluated in a scope it may be evaluated in, and every closure has the scope its
definition was evaluated in.  Scopes are made as the history knows. -/
def Discipline.static (H : History) : Discipline Unit where
  Sound _ s := H.Scoped s
  Refers _ s r := H.Refers s r
  Runs _ s E node := H.Places s E node
  Imports _ := True
  Grows _ _ s s' := s.KeepsParents s'
  Makes _ E origin := (E, origin) ∈ H.made
  grows_refl _ _ s := .refl s
  grows_trans := .trans
  refers_mono hs h := h.mono hs
  runs_mono hs h := h.mono (.refl H) hs
  runs_part h hpart := by
    obtain ⟨base, root, functions, added, hbase, hroot, hunder, hnest⟩ := h
    exact ⟨base, root, functions, added, hbase, hroot, hunder.part hpart, hnest⟩
  imports_of_runs _ _ := trivial
  refers_closure h hform := ⟨_, hform, h⟩
  items_within hs _ hv := hs.within (.item hv)
  entries_within hs _ hentry := hs.within (.entry hentry)
  lookup_within hs _ hlookup := hs.within (stored_of_lookupWithin hlookup)
  newList _ hs hitems := ⟨hs.add_cells rfl (adds_newList hitems), .of_scopes_eq rfl, trivial⟩
  newObject _ hs _ hentries :=
    ⟨hs.add_cells rfl (adds_newObject hentries), .of_scopes_eq rfl, trivial⟩
  bind {_ _ E _ name binding} hs _ hbinding _ :=
    ⟨hs.add (hs.older.bind E name binding) (.bind _ E name binding) (adds_bind hbinding),
      .bind _ E name binding⟩
  modifyItems _ hs _ hitems := ⟨hs.add_cells rfl (adds_modifyItems hitems), .of_scopes_eq rfl⟩
  modifyEntries _ hs _ _ hentries :=
    ⟨hs.add_cells rfl (adds_modifyEntries hentries), .of_scopes_eq rfl⟩
  call {_ s c bindings} hs hc hbindings _ := by
    have hgrows := KeepsParents.newScope s ⟨bindings, some c.scope⟩
    have hscope : c.scope.index < s.scopes.size := by
      obtain ⟨node, -, hplaces⟩ := hc
      exact hplaces.holds
    intro made hmakes
    refine ⟨hs.add (hs.older.newScope ?_) hgrows (adds_newScope hbindings), hc.call hmakes,
      fun _ _ hafter => hgrows.trans hafter⟩
    intro outer houter
    cases houter
    exact hscope
  load {_ s} _ hs := by
    have hgrows := KeepsParents.newRoot s
    refine ⟨(), hs.newRoot, fun source root hmakes hroot => ?_, fun s' hs' hafter => ?_⟩
    · exact ⟨s.newRoot.1, root, [], [], Heap.lt_size_alloc_iff.2 (.inr rfl),
        ⟨source, .inr hmakes, hroot⟩, .root, .base⟩
    · exact ⟨hs', fun _ => hgrows.trans hafter, fun _ hentry => hs'.within (.binding hentry)⟩

/-! ## Runs -/

namespace History

/-- **The rule of static scoping.**  The node lies in a tree that was run in the scope `base`.  The
chain of `E` starts with scopes that were made by calls of the functions around the node, one for
each, and goes on with the chain of `base`.  It passes no scope twice, and a lookup takes at most as
many steps as there are functions around the node and scopes outwards from `base`. -/
def Static (H : History) (s : Store) (E : ScopeId) (node : Node) : Prop :=
  ∃ base root functions added outer, H.Base base root ∧ root.Under functions node ∧
    H.Nest s base functions added E ∧ added.length = functions.length ∧
    s.Chain base outer ∧ s.Chain E (added ++ outer) ∧ (added ++ outer).Nodup ∧
    ∀ name, s.lookup E name = s.lookupWithin name (functions.length + outer.length) E

/-- The closure has a scope that its definition can be evaluated in by the rule of static
scoping. -/
def StaticClosure (H : History) (s : Store) (c : Closure) : Prop :=
  ∃ node, node.form = .function c.definition ∧ H.Static s c.scope node

/-- All closures in the store have such scopes. -/
def StaticClosures (H : History) (s : Store) : Prop :=
  ∀ v, s.Stored v → ∀ c, v.ref? = some (.closure c) → H.StaticClosure s c

/-- Nodes are evaluated by the rule of static scoping, while all closures have such scopes. -/
def StaticAt (H : History) (m : Machine) : Event → Prop
  | .node E node => H.Static m.store E node ∧ H.StaticClosures m.store
  | .made _ _ => True

variable {H : History} {s : Store} {E : ScopeId} {node : Node}

theorem Places.static (h : H.Places s E node) (hs : s.ParentsOlder) : H.Static s E node := by
  obtain ⟨base, root, functions, added, -, hroot, hunder, hnest⟩ := h
  obtain ⟨outer, houter⟩ := hs.exists_chain base
  have hchain : s.Chain E (added ++ outer) := hnest.chain houter
  have hlength : (added ++ outer).length = functions.length + outer.length := by
    rw [List.length_append, hnest.length_eq]
  exact ⟨base, root, functions, added, outer, hroot, hunder, hnest, hnest.length_eq, houter, hchain,
    hchain.nodup hs, fun name => hlength ▸ hchain.lookup_eq hs name⟩

theorem Scoped.staticClosures (hs : H.Scoped s) : H.StaticClosures s := by
  intro v hv c hc
  obtain ⟨node, hform, hplaces⟩ := hs.closes v hv c hc
  exact ⟨node, hform, hplaces.static hs.older⟩

/-- The history after one more run. -/
def run (H : History) (bound : Nat) (m : Machine) (scope : ScopeId) (source : Source) :
    History where
  programs := insert (scope, source) H.programs
  made := {entry | entry ∈ H.made ∨ ∃ root, Node.ofSource source = .ok root ∧
    m.ComesTo (fun event => event = .made entry.1 entry.2) bound scope root}

variable {m : Machine} {bound : Nat} {scope : ScopeId} {source : Source} {root : Node}

theorem before_run : H.Before (H.run bound m scope source) :=
  ⟨fun _ => .inr, fun _ => .inl⟩

/-- A run makes only the scopes that are in its history. -/
theorem meets_made (hroot : Node.ofSource source = .ok root) :
    m.Meets (fun _ event => ∀ entry : {entry // entry ∉ (H.run bound m scope source).made},
      ¬event = .made entry.1.1 entry.1.2) bound scope root :=
  Machine.meets_of_not_comesTo fun entry hcomes => entry.2 (.inr ⟨root, hroot, hcomes⟩)

theorem mem_made {origin : Origin}
    (h : ∀ entry : {entry // entry ∉ H.made}, ¬Event.made E origin = .made entry.1.1 entry.1.2) :
    (E, origin) ∈ H.made := by
  by_contra hentry
  exact h ⟨_, hentry⟩ rfl

/-- The tree of a program is placed in the scope of its run. -/
theorem places_root (hscope : scope.index < m.store.scopes.size)
    (hroot : Node.ofSource source = .ok root) :
    (H.run bound m scope source).Places m.store scope root :=
  ⟨scope, root, [], [], hscope, ⟨source, .inl (.inl rfl), hroot⟩, .root, .base⟩

/-- A run keeps the rule at every node it evaluates. -/
theorem Scoped.meets (hs : H.Scoped m.store) (hdepth : m.loopDepth = 0)
    (hscope : scope.index < m.store.scopes.size) (hroot : Node.ofSource source = .ok root) :
    m.Meets (H.run bound m scope source).StaticAt bound scope root := by
  have hs' : (H.run bound m scope source).Scoped m.store := hs.mono before_run
  refine Machine.meets_of_discipline (D := .static (H.run bound m scope source)) (w := ())
    (meets_made hroot) (fun _ hevent => Event.noConfusion hevent) (fun hasked _ => mem_made hasked)
    (fun hs h => ⟨h.static hs.older, hs.staticClosures⟩) trivial hdepth hs'
    (places_root hscope hroot)

/-- A run leaves closures behind that have the scopes they should have. -/
theorem Scoped.run (hs : H.Scoped m.store) (hdepth : m.loopDepth = 0) (bound : Nat)
    (hscope : scope.index < m.store.scopes.size) (source : Source) :
    (H.run bound m scope source).Scoped (m.runWithin bound scope source).2.store ∧
      m.store.KeepsParents (m.runWithin bound scope source).2.store := by
  have hs' : (H.run bound m scope source).Scoped m.store := hs.mono before_run
  refine m.runWithin_state (P := fun m' => (H.run bound m scope source).Scoped m'.store ∧
    m.store.KeepsParents m'.store) ⟨hs', .refl _⟩ fun root hroot => ?_
  have hplaces : (H.run bound m scope source).Places m.store scope root := places_root hscope hroot
  obtain ⟨hlater, -⟩ := (meets_made hroot).finishes (D := .static (H.run bound m scope source))
    (w := ()) (fun _ hevent => Event.noConfusion hevent) (fun hasked _ => mem_made hasked) hdepth
    hplaces hs'
  exact ⟨hlater.sound, hlater.grows⟩

end History

/-! ## Sessions -/

/-- The states between runs, with all that has happened so far.  In between, the host may do what it
wants, as long as scopes stay where they are and closures have the scopes they should have. -/
inductive Machine.Lived : Machine → History → Prop where
  | start (console : Console) (workspace : Workspace) : Lived (.start console workspace) .nil
  | host {m : Machine} {H : History} {store : Store} (console : Console) (workspace : Workspace) :
    Lived m H → m.store.KeepsParents store → H.Scoped store →
    Lived { m with store, console, workspace } H
  | run {m : Machine} {H : History} (bound : Nat) {scope : ScopeId} (source : Source) :
    Lived m H → scope.index < m.store.scopes.size →
    Lived (m.runWithin bound scope source).2 (H.run bound m scope source)

namespace Machine.Lived

variable {m : Machine} {H : History}

theorem idle (h : m.Lived H) : m.Idle := by
  induction h with
  | start console workspace => exact .start console workspace
  | host console workspace _ _ _ ih => exact .host _ console workspace ih
  | run bound source _ _ ih => exact .run bound _ source ih

theorem store_scoped (h : m.Lived H) : H.Scoped m.store := by
  induction h with
  | start console workspace => exact ⟨.empty, fun _ hv => absurd hv Store.not_stored_empty⟩
  | host _ _ _ _ hstore _ => exact hstore
  | run bound source h hscope ih => exact (ih.run h.idle.place.2.1 bound hscope source).1

/-- A fresh session has a root scope. -/
theorem fresh (console : Console) (workspace : Workspace) :
    (Session.start console workspace).machine.Lived .nil := by
  have hstart : (Machine.start console workspace).Lived .nil := .start console workspace
  exact .host console workspace hstart (.newRoot _) hstart.store_scoped.newRoot

end Machine.Lived

/-- **Static scoping.**  However a session has come about, a further run evaluates every node by the
rule of static scoping, in its program, in the modules it imports and in all functions it calls, and
at each of these points every closure in the store has a scope that its definition can be evaluated
in by this rule.  So it is when the run is over, and the scopes that were there are where they were:
the chain of the scope that the program was run in has not changed. -/
theorem static_scoping {m : Machine} {H : History} (h : m.Lived H) (bound : Nat) (scope : ScopeId)
    (hscope : scope.index < m.store.scopes.size) (source : Source) :
    let H' := H.run bound m scope source
    let after := (m.runWithin bound scope source).2
    (∀ root, Node.ofSource source = .ok root → m.Meets H'.StaticAt bound scope root) ∧
      H'.StaticClosures after.store ∧ m.store.KeepsParents after.store := by
  intro H' after
  obtain ⟨-, hdepth, -⟩ := h.idle.place
  obtain ⟨hafter, hparents⟩ := h.store_scoped.run hdepth bound hscope source
  exact ⟨fun root hroot => h.store_scoped.meets hdepth hscope hroot, hafter.staticClosures,
    hparents⟩

/-- A closure that one program has made is called by the next one.  The scope of the second call is
in that of the first one, which is in the scope of the first program. -/
theorem escaped_closure_static :
    let first : Source :=
      ⟨"first", "func f(a)\n  func g(b) => a + b\n  return g\nend\nlet h = f(1)"⟩
    let second : Source := ⟨"second", "h(2)"⟩
    let m := (Session.start default .memory).machine
    let H := History.nil.run 9 m ⟨0⟩ first
    let between := (m.runWithin 9 ⟨0⟩ first).2
    let after := (between.runWithin 9 ⟨0⟩ second).2
    (∀ root, Node.ofSource second = .ok root →
      between.Meets (H.run 9 between ⟨0⟩ second).StaticAt 9 ⟨0⟩ root) ∧
    (H.run 9 between ⟨0⟩ second).StaticClosures after.store ∧
    after.store.Chain ⟨2⟩ [⟨2⟩, ⟨1⟩, ⟨0⟩] := by
  intro first second m H between after
  have hbetween : between.Lived H :=
    (Machine.Lived.fresh default .memory).run 9 first (by decide +kernel)
  obtain ⟨hmeets, hclosures, -⟩ := static_scoping hbetween 9 ⟨0⟩ (by decide +kernel) second
  have hparent : after.store.parent? ⟨2⟩ = some ⟨1⟩ ∧ after.store.parent? ⟨1⟩ = some ⟨0⟩ ∧
      after.store.parent? ⟨0⟩ = none := by
    decide +kernel
  exact ⟨hmeets, hclosures, .inside hparent.1 (.inside hparent.2.1 (.root hparent.2.2))⟩

end BpScript
