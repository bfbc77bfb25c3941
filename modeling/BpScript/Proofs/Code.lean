import BpScript.Proofs.Subtree
import BpScript.Proofs.Versions

/-!
# The code that a run comes to

A run evaluates the tree it was given, and the bodies of functions that it finds in lists, objects
and scopes.  So what holds of every node it comes to has to hold of the tree, of the functions that
were there before, and of whatever is imported.

* `Store.Stored` — the values that stand somewhere in a store.
* `Store.Adds` — what a change of the store can add to them.
* `Ref.Runs`, `Store.Runs` — calls of what is stored run nodes of one kind only.
* `Discipline.code` — evaluation comes to nodes of this kind only, and leaves such a store behind.
  What it imports and where it fails can be asked for as well.
* `Node.watch_keeps` — a watched run keeps a discipline that the check follows from.
* **`Machine.always_of_code`** — what holds of all such nodes holds always.
-/

namespace BpScript

/-! ## What is stored -/

namespace Store

/-- The value stands in a list, in an object or in a scope. -/
inductive Stored (s : Store) : Value → Prop where
  | item {l : ListId} {v : Value} : v ∈ s.items l → Stored s v
  | entry {o : ObjectId} {entry : String × Value} : entry ∈ s.entries o → Stored s entry.2
  | binding {id : ScopeId} {entry : String × Binding} : entry ∈ s.bindings id →
      Stored s entry.2.value

/-- The values that `s'` has and `s` has not all satisfy `P`. -/
def Adds (P : Value → Prop) (s s' : Store) : Prop :=
  ∀ v, s'.Stored v → P v ∨ s.Stored v

variable {s s' s'' : Store} {v : Value} {P Q : Value → Prop}

theorem not_stored_empty : ¬Store.empty.Stored v := by
  rintro (⟨h⟩ | ⟨h⟩ | ⟨h⟩)
  · exact Array.not_mem_empty _ h
  · cases h
  · cases h

theorem Adds.trans (h : Adds P s s') (h' : Adds P s' s'') : Adds P s s'' :=
  fun v hv => (h' v hv).elim .inl (h v)

theorem Adds.imp (h : Adds P s s') (himp : ∀ v, P v → Q v) : Adds Q s s' :=
  fun v hv => (h v hv).imp_left (himp v)

/-- What holds of all that is stored, and of what is added, holds of all that is stored then. -/
theorem Adds.forall_stored (h : Adds P s s') (hs : ∀ v, s.Stored v → P v) :
    ∀ v, s'.Stored v → P v :=
  fun v hv => (h v hv).elim id (hs v)

theorem adds_newList {items : Array Value} (hitems : ∀ v ∈ items, P v) :
    Adds P s (s.newList items).2 := by
  intro v h
  cases h with
  | @item l _ hv =>
    rw [Store.items, newList, Heap.get?_alloc] at hv
    split at hv
    · exact .inl (hitems v hv)
    · exact .inr (.item hv)
  | entry hentry => exact .inr (.entry hentry)
  | binding hentry => exact .inr (.binding hentry)

theorem adds_newObject {entries : Table String Value} (hentries : ∀ entry ∈ entries, P entry.2) :
    Adds P s (s.newObject entries).2 := by
  intro v h
  cases h with
  | item hv => exact .inr (.item hv)
  | @entry o entry hentry =>
    rw [Store.entries, newObject, Heap.get?_alloc] at hentry
    split at hentry
    · exact .inl (hentries entry hentry)
    · exact .inr (.entry hentry)
  | binding hentry => exact .inr (.binding hentry)

theorem adds_newScope {scope : Scope} (hbindings : ∀ entry ∈ scope.bindings, P entry.2.value) :
    Adds P s (s.newScope scope).2 := by
  intro v h
  cases h with
  | item hv => exact .inr (.item hv)
  | entry hentry => exact .inr (.entry hentry)
  | @binding id entry hentry =>
    rw [bindings, newScope, Heap.get?_alloc] at hentry
    split at hentry
    · next found hfound =>
      split at hfound
      · cases hfound
        exact .inl (hbindings entry hentry)
      · have hkept : entry ∈ s.bindings id := by rwa [bindings, hfound]
        exact .inr (.binding hkept)
    · cases hentry

theorem adds_modifyItems {l : ListId} {f : Array Value → Array Value}
    (hitems : ∀ v ∈ f (s.items l), P v) : Adds P s (s.modifyItems l f) := by
  intro v h
  cases h with
  | @item l' _ hv =>
    rw [items, modifyItems, Heap.get?_modify] at hv
    split at hv
    · next hl =>
      rw [Store.items, hl] at hitems
      cases hget : s.lists.get? l'.index with
      | none =>
        rw [hget] at hv
        exact absurd hv (Array.not_mem_empty _)
      | some contents =>
        rw [hget] at hv hitems
        exact .inl (hitems v hv)
    · exact .inr (.item hv)
  | entry hentry => exact .inr (.entry hentry)
  | binding hentry => exact .inr (.binding hentry)

theorem adds_modifyEntries {o : ObjectId} {f : Table String Value → Table String Value}
    (hentries : ∀ entry ∈ f (s.entries o), P entry.2) : Adds P s (s.modifyEntries o f) := by
  intro v h
  cases h with
  | item hv => exact .inr (.item hv)
  | @entry o' entry hentry =>
    rw [entries, modifyEntries, Heap.get?_modify] at hentry
    split at hentry
    · next ho =>
      rw [Store.entries, ho] at hentries
      cases hget : s.objects.get? o'.index with
      | none =>
        rw [hget] at hentry
        cases hentry
      | some contents =>
        rw [hget] at hentry hentries
        exact .inl (hentries entry hentry)
    · exact .inr (.entry hentry)
  | binding hentry => exact .inr (.binding hentry)

theorem adds_bind {E : ScopeId} {name : String} {bound : Binding} (hbound : P bound.value) :
    Adds P s (s.bind E name bound) := by
  intro v h
  cases h with
  | item hv => exact .inr (.item hv)
  | entry hentry => exact .inr (.entry hentry)
  | @binding id entry hentry =>
    by_cases hE : E.index = id.index
    · cases hget : s.scopes.get? id.index with
      | none =>
        rw [bindings, Store.bind, Heap.get?_modify, if_pos hE, hget] at hentry
        cases hentry
      | some scope =>
        rw [bindings, Store.bind, Heap.get?_modify, if_pos hE, hget] at hentry
        rcases Table.mem_of_mem_set hentry with rfl | hentry
        · exact .inl hbound
        · have hkept : entry ∈ s.bindings id := by rwa [bindings, hget]
          exact .inr (.binding hkept)
    · rw [bindings, Store.bind, Heap.get?_modify, if_neg hE] at hentry
      exact .inr (.binding hentry)

/-- A root scope adds no value that refers to a function of a script. -/
theorem adds_newRoot : Adds (fun v => ∀ c : Closure, v.ref? ≠ some (.closure c)) s s.newRoot.2 := by
  refine Adds.trans (adds_newObject fun entry hentry => ?_) (adds_newScope fun entry hentry => ?_)
  · simp only [mathConstants, List.mem_cons, List.not_mem_nil, or_false] at hentry
    rcases hentry with rfl | rfl | rfl <;> exact nofun
  · rcases List.mem_append.1 hentry with hentry | hentry
    · obtain ⟨g, -, rfl⟩ := List.mem_map.1 hentry
      exact nofun
    · rw [List.mem_singleton.1 hentry]
      exact nofun

/-- What a name stands for is stored. -/
theorem stored_of_lookupWithin {name : String} {found : Binding} :
    ∀ {bound : Nat} {id : ScopeId}, s.lookupWithin name bound id = some found →
      s.Stored found.value
  | 0, _, h => by cases h
  | bound + 1, id, h => by
    rw [lookupWithin] at h
    split at h
    · cases h
    · next scope hget =>
      split at h
      · next hfound =>
        cases h
        have hscope : s.bindings id = scope.bindings := by rw [bindings, hget]
        exact .binding (hscope ▸ Table.mem_of_get? hfound)
      · obtain ⟨parent, -, h⟩ := Option.bind_eq_some_iff.1 h
        exact stored_of_lookupWithin h

end Store

/-! ## Code of one kind -/

/-- A call of what is referred to runs nodes of kind `Q` only. -/
def Ref.Runs (Q : Node → Prop) : Ref → Prop
  | .closure c => c.definition.body.All Q
  | _ => True

/-- A call of any function that is stored runs nodes of kind `Q` only. -/
def Store.Runs (Q : Node → Prop) (s : Store) : Prop :=
  ∀ v, s.Stored v → v.Within (Ref.Runs Q)

/-- What is asked of functions of scripts only holds of values that refer to none. -/
theorem Value.within_of_ne_closure {P : Ref → Prop} (hlist : ∀ l, P (.list l))
    (hobject : ∀ o, P (.object o)) {v : Value} (h : ∀ c : Closure, v.ref? ≠ some (.closure c)) :
    v.Within P := by
  intro r hr
  cases r with
  | list l => exact hlist l
  | object o => exact hobject o
  | closure c => exact absurd hr (h c)

theorem Store.Runs.newRoot {Q : Node → Prop} {s : Store} (h : s.Runs Q) : s.newRoot.2.Runs Q :=
  (adds_newRoot.imp fun _ => Value.within_of_ne_closure (fun _ => trivial) fun _ =>
    trivial).forall_stored h

/-- The store of a fresh session holds no functions of scripts. -/
theorem Session.start_runs {Q : Node → Prop} (console : Console) (workspace : Workspace) :
    (Session.start console workspace).machine.store.Runs Q :=
  Store.Runs.newRoot fun _ hv => absurd hv Store.not_stored_empty

/-- What is evaluated along with a node is a part of it. -/
theorem Form.mem_contents_of_mem_parts {form : Form} {node : Node} (h : node ∈ form.parts) :
    .node node ∈ form.contents := by
  cases form
  case switch subject cases otherwise =>
    simp only [parts, List.cons_append, List.mem_cons, List.mem_append, List.mem_flatMap] at h
    simp only [contents, List.mem_cons, Part.node.injEq, List.mem_flatMap, Clause.mem_inOrder]
    rcases h with rfl | ⟨case, hcase, hnode⟩ | hnode
    · exact .inl rfl
    · exact .inr ⟨_, .inl ⟨case, hcase, rfl⟩, by simpa [Clause.ofCase] using hnode⟩
    · exact .inr ⟨_, .inr ⟨node, Option.mem_toList.1 hnode, rfl⟩, by simp⟩
  all_goals simp [parts] at h ⊢
  all_goals grind

theorem Form.body_mem_contents (definition : Function) :
    .node definition.body ∈ (Form.function definition).contents := by
  cases definition
  simp [Function.body]

/-- The trees of these files have nodes of kind `Q` only. -/
def Node.Reads (files : Set Source) (Q : Node → Prop) : Prop :=
  ∀ source ∈ files, ∀ root, Node.ofSource source = .ok root → root.All Q

open Store Discipline

/-- Only nodes of one kind are evaluated, and they fail at places in `P`.  Modules are read anew, so
a kind that has imports has to have the nodes of all files that are imported. -/
def Discipline.code (files : Set Source) (P : Span → Prop) (Q : Node → Prop)
    (hQ : ∀ {node lib name}, Q node → node.form = .importAs lib name → Node.Reads files Q)
    (hP : ∀ {node}, Q node → P node.span ∧ ∀ name ∈ node.form.lookups, P name.span) :
    Discipline Unit where
  Sound _ s := s.Runs Q
  Refers _ _ r := r.Runs Q
  Runs _ _ _ node := node.All Q
  Imports _ := Node.Reads files Q
  Grows _ _ _ _ := True
  Points _ := P
  Makes _ _ origin := ∀ source, origin = .module source → source ∈ files
  grows_refl _ _ _ := trivial
  grows_trans _ _ := trivial
  refers_mono _ h := h
  runs_mono _ h := h
  runs_part h hpart := h.of_mem_contents (Form.mem_contents_of_mem_parts hpart)
  imports_of_runs h hform := hQ h.self hform
  refers_closure {_ _ _ _ definition} h hform :=
    h.of_mem_contents (hform ▸ Form.body_mem_contents definition)
  items_within hs _ hv := hs _ (.item hv)
  entries_within hs _ hentry := hs _ (.entry hentry)
  lookup_within hs _ hlookup := hs _ (stored_of_lookupWithin hlookup)
  points_node h := (hP h.self).1
  points_lookup h hname := (hP h.self).2 _ hname
  newList _ hs hitems := ⟨(adds_newList hitems).forall_stored hs, trivial, trivial⟩
  newObject _ hs _ hentries := ⟨(adds_newObject hentries).forall_stored hs, trivial, trivial⟩
  bind hs _ hbinding _ := ⟨(adds_bind hbinding).forall_stored hs, trivial⟩
  modifyItems _ hs _ hitems := ⟨(adds_modifyItems hitems).forall_stored hs, trivial⟩
  modifyEntries _ hs _ _ hentries := ⟨(adds_modifyEntries hentries).forall_stored hs, trivial⟩
  call hs hc hbindings _ _ :=
    ⟨(adds_newScope hbindings).forall_stored hs, hc, fun _ _ _ => trivial⟩
  load hreads hs :=
    ⟨(), hs.newRoot, fun source root hmakes => hreads source (hmakes source rfl) root,
      fun _ hs' _ => ⟨hs', fun _ => trivial, fun _ hentry => hs' _ (.binding hentry)⟩⟩

/-- The same for any files and places. -/
def Discipline.codeAnywhere (Q : Node → Prop)
    (hQ : ∀ {node lib name}, Q node → node.form = .importAs lib name → Node.Reads .univ Q) :
    Discipline Unit :=
  .code .univ (fun _ => True) Q hQ fun _ => ⟨trivial, fun _ _ => trivial⟩

theorem Discipline.codeAnywhere_open {Q : Node → Prop}
    (hQ : ∀ {node lib name}, Q node → node.form = .importAs lib name → Node.Reads .univ Q) :
    (Discipline.codeAnywhere Q hQ).Open :=
  fun _ _ _ _ _ => trivial

/-! ## Watched runs -/

namespace Node

variable {W : Type} {D : Discipline W} {check : Check} {alarm : Option (Eval Value)}
  {around : List Activity} {w : W} {E : ScopeId} {m : Machine}

/-- No alarm goes off where the check follows from the discipline. -/
theorem watchPoint_keeps {X : Store → Signal → Prop} {T : Store → Value → Prop} {point : Point}
    {step : Eval Value} (hcheck : D.Sound w m.store → check around m point = true)
    (h : D.Keeps w E X T m step) :
    D.Keeps w E X T m (watchPoint check alarm around point step) := by
  intro hs
  cases alarm with
  | none => exact h hs
  | some alarm =>
    rw [watchPoint, Step.run_bind_ok (Step.run_get m), if_pos (hcheck hs)]
    exact h hs

theorem watchApply_settles {visit : Visit} (hopen : D.Open) (hv : D.Visits visit)
    (hnative : ∀ {w m n}, D.Sound w m.store → ∀ around, check around m (.native n) = true)
    {f : Callable} {args : List Value} {span : Span} (hdepth : m.loopDepth = 0)
    (hspan : D.Points w span) (hf : D.Carries w m.store (.callable f))
    (hargs : ∀ v ∈ args, D.Carries w m.store v) :
    Construct.SettlesWith D w E (D.Carries w) m
      (watchApply check alarm around visit f args span) := by
  cases f with
  | closure c =>
    exact Construct.runClosure_settles hv (hopen _ _ _) hdepth (Value.within_closure.1 hf) hargs
  | native n =>
    exact watchPoint_keeps (fun hs => hnative hs around) (Construct.native_settles hspan hf hargs)

/-- **Watched runs keep disciplines** that the check follows from. -/
theorem watch_keeps (hopen : D.Open)
    (hnode : ∀ {w m E node}, D.Sound w m.store → D.Runs w m.store E node →
      ∀ around, check around m (.node node) = true)
    (hnative : ∀ {w m n}, D.Sound w m.store → ∀ around, check around m (.native n) = true) :
    ∀ (bound : Nat) (around : List Activity), D.Visits (watch check alarm bound around)
  | 0, around, w, E, m, node, h =>
    watchPoint_keeps (fun hs => hnode hs h around) Evaluates.throw_exhausted
  | bound + 1, around, w, E, m, node, h => by
    refine watchPoint_keeps (fun hs => hnode hs h around) ?_
    have hv := watch_keeps hopen hnode hnative bound
    have hspan : D.Points w node.span := D.points_node h
    refine evalFormBy_keeps (hv around) h (fun hf hvalues => ?_) fun himports m' lib => ?_
    · refine Construct.invokeBy_settles hspan (fun args hargs => ?_) hvalues
      exact watchApply_settles hopen (hv _) hnative rfl hspan hf hargs
    · exact Construct.loadBy_settles hspan himports fun path text hmodule =>
        Construct.runModule_finishes (hv (.module path :: around))
          fun root => hmodule root (hopen _ _ _)

end Node

/-- **What follows from a discipline holds always**, since watched runs keep the discipline. -/
theorem Machine.always_of_discipline {W : Type} {D : Discipline W} (hopen : D.Open) {check : Check}
    (hnode : ∀ {w m E node}, D.Sound w m.store → D.Runs w m.store E node →
      ∀ around, check around m (.node node) = true)
    (hnative : ∀ {w m n}, D.Sound w m.store → ∀ around, check around m (.native n) = true)
    {w : W} {m : Machine} (hdepth : m.loopDepth = 0) (hs : D.Sound w m.store) (bound : Nat)
    {scope : ScopeId} {root : Node} (h : D.Runs w m.store scope root) :
    m.Always check bound scope root := by
  refine Machine.always_of_watches (some (throw .unreachable)) (fun _ _ => True)
    ⟨fun _ _ => .inr ⟨_, ⟨_, rfl, rfl⟩, Filter.eventually_pure.2 rfl⟩, fun _ _ => trivial,
      fun _ _ _ => trivial, fun _ _ _ => trivial⟩ trivial ?_
  -- the check holds where the strict watch comes to, so it does not give up
  have hv : D.Visits (Node.watch check (some (throw .unreachable)) bound []) :=
    Node.watch_keeps hopen hnode hnative bound []
  obtain ⟨-, hends⟩ := Construct.program_finishes hv hdepth h hs
  intro hbad
  rw [hbad] at hends
  cases hends

/-- **What a check asks of nodes holds always**, if it holds of all nodes of one kind and the code
of the run is of this kind: the tree, and the functions that are stored before. -/
theorem Machine.always_of_code {Q : Node → Prop}
    (hQ : ∀ {node lib name}, Q node → node.form = .importAs lib name → Node.Reads .univ Q)
    {check : Check} (hnode : ∀ {node}, Q node → ∀ around m, check around m (.node node) = true)
    (hnative : ∀ around m n, check around m (.native n) = true) {m : Machine}
    (hdepth : m.loopDepth = 0) (hstore : m.store.Runs Q) (bound : Nat) (scope : ScopeId)
    {root : Node} (hroot : root.All Q) : m.Always check bound scope root := by
  have hruns : (Discipline.codeAnywhere Q hQ).Runs () m.store scope root := hroot
  exact Machine.always_of_discipline (codeAnywhere_open hQ)
    (fun {_ m _ _} _ h around => hnode (Node.All.self h) around m)
    (fun {_ m n} _ around => hnative around m n) hdepth hstore bound hruns

/-- A run leaves a store behind whose functions are of the same kind. -/
theorem Machine.runWithin_runs {Q : Node → Prop}
    (hQ : ∀ {node lib name}, Q node → node.form = .importAs lib name → Node.Reads .univ Q)
    {m : Machine}
    (hdepth : m.loopDepth = 0) (hstore : m.store.Runs Q) (bound : Nat) (scope : ScopeId)
    {source : Source} (hroot : ∀ root, Node.ofSource source = .ok root → root.All Q) :
    (m.runWithin bound scope source).2.store.Runs Q := by
  refine m.runWithin_state (P := fun m => m.store.Runs Q) hstore fun root hsource => ?_
  have hruns : (Discipline.codeAnywhere Q hQ).Runs () m.store scope root := hroot root hsource
  have hv : (Discipline.codeAnywhere Q hQ).Visits (Node.evalWithin bound) :=
    Node.evalWithin_keeps _ (codeAnywhere_open hQ) bound
  exact (Construct.program_finishes hv hdepth hruns hstore).1.sound

end BpScript
