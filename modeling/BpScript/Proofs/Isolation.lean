import Mathlib
import BpScript.Proofs.Events
import BpScript.Proofs.Reach

/-!
# Modules are isolated

A module runs in a root scope of its own.  All it can get hold of is what it makes itself: its code
starts from the fresh root, and nothing that is reachable from there was there before.  So an import
changes no cell that existed, and what it exports shares nothing with the importing script, with
other modules, or with an earlier import of the same library.

The invariant is `Fenced`: relative to the store at the start of the import, new cells lead to new
cells only.  As a discipline the starting store is the world of a run, and a nested import starts
a world of its own.  Relative to the empty store the same invariant says that no cell leads out of
the store.  This is so at every point of a session, so that what was there before an import and what
comes out of it have no cell in common.

* `Store.Fresh`, `Store.Fenced` — what is new since a store, and what a run since then has to keep.
* `Discipline.isolation` — every elementary change keeps it.
* `Discipline.closed`, `Machine.Contained` — since the empty store everything is new, so the stores
  of runs are closed, and those of sessions.
* `Machine.ImportsApart` — what is asked of an import at a point of a run.
* **`load_isolated`** — imports.
-/

namespace BpScript

namespace Store

/-- The cell was made since the store `base`. -/
def Fresh (base s : Store) (h : Handle) : Prop :=
  ¬base.Holds h ∧ s.Holds h

/-- What may have happened to a store whose cells are out of reach as far as `base` holds them. -/
structure Spares (base s s' : Store) : Prop where
  holds : ∀ h, s.Holds h → s'.Holds h
  same : ∀ h, base.Holds h → SameCell s s' h

/-- New cells lead to new cells. -/
structure Fenced (base s : Store) : Prop where
  holds : ∀ h, base.Holds h → s.Holds h
  leads : ∀ h h', Fresh base s h → s.Leads h h' → Fresh base s h'

variable {base s s' : Store}

theorem Fresh.mono {h : Handle} (hh : Fresh base s h) (hspares : Spares base s s') :
    Fresh base s' h :=
  ⟨hh.1, hspares.holds h hh.2⟩

theorem Spares.refl (base s : Store) : Spares base s s :=
  ⟨fun _ => id, fun h _ => .refl s h⟩

theorem Spares.trans {a b c : Store} (hab : Spares base a b) (hbc : Spares base b c) :
    Spares base a c :=
  ⟨fun h hh => hbc.holds h (hab.holds h hh), fun h hh => (hab.same h hh).trans (hbc.same h hh)⟩

/-- From new cells all ways lead to new cells. -/
theorem Fenced.fresh_of_reaches (hs : Fenced base s) {start h : Handle}
    (hstart : Fresh base s start) (hreaches : s.Reaches start h) : Fresh base s h := by
  induction hreaches with
  | refl => exact hstart
  | step _ hleads ih => exact hs.leads _ _ ih hleads

/-! ## Elementary changes -/

/-- A cell that is made is new, and may refer to new cells. -/
theorem Fenced.alloc (hs : Fenced base s) {new : Handle} (halloc : Allocates s new s')
    (hleads : ∀ h, s'.Leads new h → Fresh base s h) :
    Fenced base s' ∧ Spares base s s' ∧ Fresh base s' new := by
  have hspares : Spares base s s' :=
    ⟨fun h hh => (halloc.holds_iff h).2 (.inl hh), fun h hh => halloc.same h (hs.holds h hh)⟩
  have hnew : Fresh base s' new :=
    ⟨fun hbase => halloc.absent (hs.holds new hbase), (halloc.holds_iff new).2 (.inr rfl)⟩
  refine ⟨⟨fun h hh => hspares.holds h (hs.holds h hh), fun h h' hh hl => ?_⟩, hspares, hnew⟩
  rcases (halloc.holds_iff h).1 hh.2 with hold | rfl
  · rw [(halloc.same h hold).leads_iff] at hl
    exact (hs.leads h h' ⟨hh.1, hold⟩ hl).mono hspares
  · exact (hleads h' hl).mono hspares

/-- New cells may be written to, with what refers to new cells. -/
theorem Fenced.write (hs : Fenced base s) {changed : Handle} (hwrite : Writes s changed s')
    (hchanged : Fresh base s changed) (hleads : ∀ h, s'.Leads changed h → Fresh base s h) :
    Fenced base s' ∧ Spares base s s' := by
  have hspares : Spares base s s' := by
    refine ⟨fun h => (hwrite.holds_iff h).2, fun h hh => hwrite.same h ?_⟩
    rintro rfl
    exact hchanged.1 hh
  refine ⟨⟨fun h hh => hspares.holds h (hs.holds h hh), fun h h' hh hl => ?_⟩, hspares⟩
  by_cases heq : h = changed
  · rw [heq] at hl
    exact (hleads h' hl).mono hspares
  · rw [(hwrite.same h heq).leads_iff] at hl
    exact (hs.leads h h' ⟨hh.1, (hwrite.holds_iff h).1 hh.2⟩ hl).mono hspares

/-- Since a store itself, nothing in it is new. -/
theorem Fenced.self (s : Store) : Fenced s s :=
  ⟨fun _ => id, fun _ _ hh _ => absurd hh.2 hh.1⟩

/-- What is looked up from a new scope is bound in a new one: the scopes around it are new as
well. -/
theorem Fenced.exists_of_lookupWithin (hs : Fenced base s) {name : String} {binding : Binding} :
    ∀ (bound : Nat) {id : ScopeId}, Fresh base s (.scope id) →
      s.lookupWithin name bound id = some binding →
      ∃ scope, Fresh base s (.scope scope) ∧ (name, binding) ∈ s.bindings scope
  | 0, _, _, hlookup => by cases hlookup
  | bound + 1, id, hid, hlookup => by
    rw [Store.lookupWithin] at hlookup
    split at hlookup
    · cases hlookup
    · next scope hget =>
      split at hlookup
      · next found hfound =>
        cases hlookup
        refine ⟨id, hid, ?_⟩
        rw [bindings, hget]
        exact Table.mem_of_get? hfound
      · obtain ⟨parent, hparent, hlookup⟩ := Option.bind_eq_some_iff.1 hlookup
        have hfresh : Fresh base s (.scope parent) := by
          refine hs.leads _ _ hid (.inr ?_)
          rw [parent?, hget]
          exact congrArg (Option.map Handle.scope) hparent
        exact exists_of_lookupWithin hs bound hfresh hlookup

/-- What is looked up from a new scope refers to new cells. -/
theorem Fenced.lookupWithin (hs : Fenced base s) {name : String} {bound : Nat} {id : ScopeId}
    {binding : Binding} (hid : Fresh base s (.scope id))
    (hlookup : s.lookupWithin name bound id = some binding) (h : Handle)
    (hh : binding.value.handle? = some h) : Fresh base s h := by
  obtain ⟨scope, hscope, hmem⟩ := hs.exists_of_lookupWithin bound hid hlookup
  exact hs.leads _ _ hscope (.inl ⟨_, hmem, hh⟩)

/-- A value that refers to new cells only. -/
theorem Fresh.of_within {v : Value} {h : Handle} (hv : v.Within fun r => Fresh base s r.handle)
    (hh : v.handle? = some h) : Fresh base s h :=
  Value.within_handle_iff.1 hv h hh

/-! ## Calls and imports -/

/-- The scope of a call is new, and so are the scope around it and the arguments. -/
theorem Fenced.newScope (hs : Fenced base s) {bindings : Table String Binding} {outer : ScopeId}
    (houter : Fresh base s (.scope outer))
    (hbindings : ∀ entry ∈ bindings, entry.2.value.Within fun r => Fresh base s r.handle) :
    let made := s.newScope ⟨bindings, some outer⟩
    Fenced base made.2 ∧ Spares base s made.2 ∧ Fresh base made.2 (.scope made.1) := by
  refine hs.alloc (allocates_newScope _) fun h hleads => ?_
  rcases leads_newScope hleads with ⟨entry, hentry, hh⟩ | hparent
  · exact .of_within (hbindings entry hentry) hh
  · cases hparent
    exact houter

/-- The constants of `math` refer to nothing. -/
theorem handle?_of_mem_mathConstants {entry : String × Value} (h : entry ∈ mathConstants) :
    entry.2.handle? = none := by
  simp only [mathConstants, List.mem_cons, List.not_mem_nil, or_false] at h
  rcases h with rfl | rfl | rfl <;> rfl

/-- Of the names of a root scope only `math` refers to something. -/
theorem handle?_of_mem_rootBindings {math : ObjectId} {entry : String × Binding}
    (h : entry ∈ rootBindings math) {target : Handle} (hh : entry.2.value.handle? = some target) :
    target = .object math := by
  rcases List.mem_append.1 h with h | h
  · obtain ⟨g, -, rfl⟩ := List.mem_map.1 h
    cases hh
  · rw [List.mem_singleton.1 h] at hh
    cases hh
    rfl

/-- A root scope is new together with its object `math`, and leads nowhere else. -/
theorem Fenced.newRoot (hs : Fenced base s) :
    Fenced base s.newRoot.2 ∧ Spares base s s.newRoot.2 ∧
      Fresh base s.newRoot.2 (.scope s.newRoot.1) := by
  let made := s.newObject mathConstants
  obtain ⟨hfenced, hspares, hmath⟩ :=
    hs.alloc (allocates_newObject mathConstants) fun h hleads => by
      obtain ⟨entry, hentry, hh⟩ := leads_newObject hleads
      rw [handle?_of_mem_mathConstants hentry] at hh
      cases hh
  obtain ⟨hfenced', hspares', hroot⟩ :=
    hfenced.alloc (allocates_newScope ⟨rootBindings made.1, none⟩) fun h hleads => by
      rcases leads_newScope hleads with ⟨entry, hentry, hh⟩ | hparent
      · rw [handle?_of_mem_rootBindings hentry hh]
        exact hmath
      · cases hparent
  exact ⟨hfenced', hspares.trans hspares', hroot⟩

/-- **A nested run.**  What happened behind a fence that was put up later, at the store `s`,
happened behind the first one as well: cells up to `s` were spared, and what was made since is
new. -/
theorem Fenced.of_inner (hs : Fenced base s) (hinner : Fenced s s') (hspares : Spares s s s') :
    Fenced base s' ∧ Spares base s s' := by
  have hspares' : Spares base s s' :=
    ⟨hspares.holds, fun h hh => hspares.same h (hs.holds h hh)⟩
  refine ⟨⟨fun h hh => hspares.holds h (hs.holds h hh), fun h h' hh hleads => ?_⟩, hspares'⟩
  by_cases hold : s.Holds h
  · rw [(hspares.same h hold).leads_iff] at hleads
    exact (hs.leads h h' ⟨hh.1, hold⟩ hleads).mono hspares'
  · have hfresh := hinner.leads h h' ⟨hold, hh.2⟩ hleads
    exact ⟨fun hbase => hfresh.1 (hs.holds h' hbase), hfresh.2⟩

end Store

open Store

/-- The world of a run is the store it started from. -/
def Discipline.isolation : Discipline Store where
  Sound base s := Fenced base s
  Refers base s r := Fresh base s r.handle
  Runs base s E _ := Fresh base s (.scope E)
  Imports _ := True
  Grows base _ s s' := Spares base s s'
  grows_refl base _ s := .refl base s
  grows_trans := .trans
  refers_mono hspares hr := hr.mono hspares
  runs_mono hspares hE := hE.mono hspares
  runs_part hE _ := hE
  imports_of_runs _ _ := trivial
  refers_closure hE _ := hE
  items_within hs hl hv := Value.within_handle_iff.2 fun h hh => hs.leads _ h hl ⟨_, hv, hh⟩
  entries_within hs ho hentry :=
    Value.within_handle_iff.2 fun h hh => hs.leads _ h ho ⟨_, hentry, hh⟩
  lookup_within hs hE hlookup := Value.within_handle_iff.2 (hs.lookupWithin hE hlookup)
  newList _ hs hitems := hs.alloc (allocates_newList _) fun h hleads => by
    obtain ⟨v, hv, hh⟩ := leads_newList hleads
    exact .of_within (hitems v hv) hh
  newObject _ hs _ hentries := hs.alloc (allocates_newObject _) fun h hleads => by
    obtain ⟨entry, hentry, hh⟩ := leads_newObject hleads
    exact .of_within (hentries entry hentry) hh
  bind hs hE hbinding _ := hs.write (writes_bind _ _ _) hE fun h hleads => by
    rcases leads_bind hE.2 hleads with hh | hleads
    · exact .of_within hbinding hh
    · exact hs.leads _ h hE hleads
  modifyItems _ hs hl hitems := hs.write (writes_modifyItems _ _) hl fun h hleads => by
    obtain ⟨v, hv, hh⟩ := leads_modifyItems hl.2 hleads
    exact .of_within (hitems v hv) hh
  modifyEntries _ hs ho _ hentries := hs.write (writes_modifyEntries _ _) ho fun h hleads => by
    obtain ⟨entry, hentry, hh⟩ := leads_modifyEntries ho.2 hleads
    exact .of_within (hentries entry hentry) hh
  call hs hc hbindings _ _ := by
    obtain ⟨hfenced, hspares, hmade⟩ := hs.newScope hc hbindings
    exact ⟨hfenced, hmade, fun _ _ hspares' => hspares.trans hspares'⟩
  load {base s} _ hs := by
    obtain ⟨hfenced, hspares, hroot⟩ := (Fenced.self s).newRoot
    refine ⟨s, hfenced, fun _ _ _ _ => hroot, fun s' hinner hspares' => ?_⟩
    obtain ⟨hs', hgrows⟩ := hs.of_inner hinner (hspares.trans hspares')
    refine ⟨hs', fun _ => hgrows, fun entry hentry => Value.within_handle_iff.2 fun h hh => ?_⟩
    have hfresh : Fresh s s' h :=
      hinner.leads _ h (hroot.mono hspares') (.inl ⟨entry, hentry, hh⟩)
    exact ⟨fun hbase => hfresh.1 (hs.holds h hbase), hfresh.2⟩

theorem Discipline.isolation_open : Discipline.isolation.Open := fun _ _ _ => trivial

/-! ## Closed stores -/

/-- Since the empty store, everything is new. -/
theorem Store.fresh_empty_iff {s : Store} {h : Handle} : Fresh .empty s h ↔ s.Holds h := by
  constructor
  · exact fun hh => hh.2
  · refine fun hh => ⟨fun hempty => ?_, hh⟩
    cases h <;> exact Nat.not_lt_zero _ hempty

/-- A store is closed if its cells, new since the empty store, lead to such cells. -/
theorem Store.fenced_empty_iff {s : Store} : Fenced .empty s ↔ s.Closed := by
  constructor
  · intro hs h h' hh hleads
    exact (hs.leads h h' (fresh_empty_iff.2 hh) hleads).2
  · intro hs
    refine ⟨fun h hempty => ?_, fun h h' hh hleads => ?_⟩
    · cases h <;> exact absurd hempty (Nat.not_lt_zero _)
    · exact fresh_empty_iff.2 (hs h h' hh.2 hleads)

/-- No cell leads out of the store, at any point of a run.  This is isolation from the empty store,
and imports are no exception. -/
def Discipline.closed : Discipline Unit where
  Sound _ s := Fenced .empty s
  Refers _ s r := Fresh .empty s r.handle
  Runs _ s E _ := Fresh .empty s (.scope E)
  Imports _ := True
  Grows _ _ s s' := Spares .empty s s'
  grows_refl _ _ s := .refl .empty s
  grows_trans := .trans
  refers_mono hspares hr := hr.mono hspares
  runs_mono hspares hE := hE.mono hspares
  runs_part hE _ := hE
  imports_of_runs _ _ := trivial
  refers_closure hE _ := hE
  items_within := isolation.items_within
  entries_within := isolation.entries_within
  lookup_within {_ _ _ node _ _} := @isolation.lookup_within _ _ _ node _ _
  newList := isolation.newList
  newObject := isolation.newObject
  bind {_ _ _ node _ _} := @isolation.bind _ _ _ node _ _
  modifyItems := isolation.modifyItems
  modifyEntries := isolation.modifyEntries
  call := isolation.call
  load {_ s} _ hs := by
    obtain ⟨hfenced, hspares, hroot⟩ := Fenced.newRoot hs
    refine ⟨(), hfenced, fun _ _ _ _ => hroot, fun s' hs' hspares' =>
      ⟨hs', fun _ => hspares.trans hspares', fun entry hentry => ?_⟩⟩
    exact Value.within_handle_iff.2 fun h hh =>
      hs'.leads _ h (hroot.mono hspares') (.inl ⟨entry, hentry, hh⟩)

theorem Discipline.closed_open : Discipline.closed.Open := fun _ _ _ => trivial

/-- **Evaluation keeps stores closed**, whatever its outcome, and all cells in them. -/
theorem evalWithin_closed (bound : Nat) {E : ScopeId} (node : Node) {m : Machine}
    (hm : m.store.Closed) (hE : m.store.Holds (.scope E)) :
    let after := ((Node.evalWithin bound E node).run m).2
    after.store.Closed ∧ ∀ h, m.store.Holds h → after.store.Holds h := by
  intro after
  have hruns : Discipline.closed.Runs () m.store E node := fresh_empty_iff.2 hE
  have hkeeps := Node.evalWithin_keeps Discipline.closed Discipline.closed_open bound hruns
  obtain ⟨hlater, -⟩ := hkeeps (fenced_empty_iff.2 hm)
  exact ⟨fenced_empty_iff.1 hlater.sound, hlater.grows.holds⟩

/-- So do runs of scripts. -/
theorem runWithin_closed (bound : Nat) {scope : ScopeId} (source : Source) {m : Machine}
    (hdepth : m.loopDepth = 0) (hm : m.store.Closed) (hscope : m.store.Holds (.scope scope)) :
    let after := (m.runWithin bound scope source).2
    after.store.Closed ∧ ∀ h, m.store.Holds h → after.store.Holds h := by
  intro after
  refine m.runWithin_state (P := fun after => after.store.Closed ∧ ∀ h, m.store.Holds h →
    after.store.Holds h) ⟨hm, fun _ => id⟩ fun root _ => ?_
  have hv : Discipline.closed.Visits (Node.evalWithin bound) :=
    Node.evalWithin_keeps _ Discipline.closed_open bound
  have hruns : Discipline.closed.Runs () m.store scope root := fresh_empty_iff.2 hscope
  obtain ⟨hlater, -⟩ := Construct.program_finishes hv hdepth hruns (fenced_empty_iff.2 hm)
  exact ⟨fenced_empty_iff.1 hlater.sound, hlater.grows.holds⟩

/-! ## Sessions -/

/-- The states between runs.  In between, the host may do what it wants, as long as it leaves no
cell that leads out of the store, and it runs scripts in scopes that are there. -/
inductive Machine.Contained : Machine → Prop where
  | start (console : Console) (workspace : Workspace) : Contained (.start console workspace)
  | host {m : Machine} {store : Store} (console : Console) (workspace : Workspace) :
    Contained m → store.Closed → Contained { m with store, console, workspace }
  | run {m : Machine} (bound : Nat) {scope : ScopeId} (source : Source) :
    Contained m → m.store.Holds (.scope scope) → Contained (m.runWithin bound scope source).2

namespace Machine.Contained

variable {m : Machine}

theorem idle (h : m.Contained) : m.Idle := by
  induction h with
  | start console workspace => exact .start console workspace
  | host console workspace _ _ ih => exact .host _ console workspace ih
  | run bound source _ _ ih => exact .run bound _ source ih

/-- Between runs no cell leads out of the store. -/
theorem closed (h : m.Contained) : m.store.Closed := by
  induction h with
  | start => exact fenced_empty_iff.1 (.self _)
  | host _ _ _ hstore _ => exact hstore
  | run bound source h hscope ih =>
    exact (runWithin_closed bound source h.idle.place.2.1 ih hscope).1

/-- A fresh session has a root scope. -/
theorem fresh (console : Console) (workspace : Workspace) :
    let session := Session.start console workspace
    session.machine.Contained ∧ session.machine.store.Holds (.scope session.scope) := by
  have hstart : (Machine.start console workspace).Contained := .start console workspace
  obtain ⟨hfenced, -, hroot⟩ := (fenced_empty_iff.2 hstart.closed).newRoot
  exact ⟨.host console workspace hstart (fenced_empty_iff.1 hfenced), hroot.2⟩

end Machine.Contained

/-! ## Imports -/

/-- Whenever the step gives a value, the value satisfies `P`. -/
def Eval.Gives {α : Type} (P : α → Prop) (step : Eval α) : Prop :=
  ∀ m a, (step.run m).1 = .ok a → P a

theorem Eval.Gives.bind {α β : Type} {P : β → Prop} {step : Eval α} {k : α → Eval β}
    (h : ∀ a, Eval.Gives P (k a)) : Eval.Gives P (step >>= k) := by
  intro m b hrun
  rw [Step.run_bind] at hrun
  split at hrun
  · next a m' _ => exact h a m' b hrun
  · cases hrun

theorem Eval.Gives.raise {α : Type} {P : α → Prop} {fault : Fault} {span : Span} :
    Eval.Gives P (Eval.raise (α := α) fault span) := by
  intro m a hrun
  cases hrun

/-- What an import gives is an object. -/
theorem Construct.load_gives_object (visit : Visit) (lib : String) (span : Span) :
    Eval.Gives (fun v => ∃ exports, v = .object exports) (load visit lib span) := by
  unfold load
  refine .bind fun m₁ => .bind fun m₂ => ?_
  split
  · exact .raise
  · refine .bind fun m₃ => ?_
    split
    · exact .raise
    · refine .bind fun scope => .bind fun outcome => ?_
      split
      · exact .raise
      · refine .bind fun m₄ => ?_
        intro m v hrun
        cases hrun
        exact ⟨_, rfl⟩

/-- An import is a run of its own, fenced off from the store it starts in. -/
theorem load_fenced (bound : Nat) (lib : String) (span : Span) (m : Machine) :
    let r := (Construct.load (Node.evalWithin bound) lib span).run m
    Fenced m.store r.2.store ∧ Spares m.store m.store r.2.store ∧
      ∀ exports, r.1 = .ok (.object exports) → Fresh m.store r.2.store (.object exports) := by
  have hload : Construct.SettlesWith Discipline.isolation m.store ⟨0⟩
      (Discipline.isolation.Carries m.store) m
      (Construct.load (Node.evalWithin bound) lib span) :=
    Construct.load_settles
      (Node.evalWithin_keeps Discipline.isolation Discipline.isolation_open bound) trivial
      (fun _ _ => trivial) trivial
  obtain ⟨hlater, hends⟩ := hload (Fenced.self m.store)
  refine ⟨hlater.sound, hlater.grows, fun exports hrun => ?_⟩
  rw [hrun] at hends
  exact Value.within_object.1 hends

/-- An import expression that fails has done no more than evaluate the name of the library and
start the import. -/
theorem importAs_spares_of_error (bound : Nat) (E : ScopeId) (lib : Node) (name : Ident)
    (span : Span) (m : Machine) {signal : Signal} :
    let named := ((Node.evalWithin bound E lib).run m).2
    let r := (Node.evalWithin (bound + 1) E (.mk (.importAs lib name) span)).run m
    r.1 = .error signal → Spares named.store named.store r.2.store := by
  intro named r
  show ((Construct.importAs (Node.evalWithin bound) E lib name span).run m).1 = _ →
    Spares _ _ ((Construct.importAs (Node.evalWithin bound) E lib name span).run m).2.store
  unfold Construct.importAs
  rcases hlib : (Node.evalWithin bound E lib).run m with ⟨_ | v, m₁⟩
  · have hnamed : named = m₁ := congrArg Prod.snd hlib
    rw [Step.run_bind_error hlib, hnamed]
    exact fun _ => .refl _ _
  · have hnamed : named = m₁ := congrArg Prod.snd hlib
    rw [Step.run_bind_ok hlib, hnamed]
    split
    · next text =>
      obtain ⟨-, hspares, -⟩ := load_fenced bound text span m₁
      rcases hload : (Construct.load (Node.evalWithin bound) text span).run m₁ with ⟨_ | _, m₂⟩
      · rw [hload] at hspares
        rw [Step.run_bind_error hload]
        exact fun _ => hspares
      · rw [Step.run_bind_ok hload]
        intro hrun
        cases hrun
    · exact fun _ => .refl _ _

/-- If no cell leads out of the store before an import, nothing that is there reaches what the
exports reach. -/
theorem load_apart (bound : Nat) (lib : String) (span : Span) {m : Machine}
    (hclosed : m.store.Closed) :
    let r := (Construct.load (Node.evalWithin bound) lib span).run m
    ∀ exports, r.1 = .ok (.object exports) → ∀ old h, m.store.Holds old →
      r.2.store.Reaches old h → ¬r.2.store.Reaches (.object exports) h := by
  intro r exports hrun old h hold hreaches hshared
  obtain ⟨hfenced, hspares, hexports⟩ := load_fenced bound lib span m
  have hfresh := hfenced.fresh_of_reaches (hexports exports hrun) hshared
  exact hfresh.1 (hclosed.holds_of_reaches hspares.same hold hreaches)

/-- Asks of an import, where it begins, that what it exports shares no cell with what is there when
the library has been named; and if it fails, that the current scope is as it was then. -/
def Machine.ImportsApart (m : Machine) : Event → Prop
  | .node E node => ∀ (bound : Nat) (lib : Node) (name : Ident), node.form = .importAs lib name →
    let named := (Node.evalWithin bound E lib).run m
    (∀ text, named.1 = .ok (.text text) →
      let r := (Construct.load (Node.evalWithin bound) text node.span).run named.2
      ∀ exports, r.1 = .ok (.object exports) → ∀ old h, named.2.store.Holds old →
        r.2.store.Reaches old h → ¬r.2.store.Reaches (.object exports) h) ∧
    ∀ signal,
      let r := (Node.evalWithin (bound + 1) E node).run m
      r.1 = .error signal → r.2.store.bindings E = named.2.store.bindings E
  | .made _ _ => True

theorem Machine.importsApart {m : Machine} (hm : m.store.Closed) {E : ScopeId}
    (hE : m.store.Holds (.scope E)) (node : Node) : m.ImportsApart (.node E node) := by
  intro bound lib name hform named
  obtain ⟨form, span⟩ := node
  obtain rfl : form = .importAs lib name := hform
  obtain ⟨hclosed, hholds⟩ := evalWithin_closed bound lib hm hE
  refine ⟨fun text _ => load_apart bound text span hclosed, fun signal => ?_⟩
  intro r hrun
  have hspares := importAs_spares_of_error bound E lib name span m hrun
  exact bindings_eq_of_get?_eq (hspares.same _ (hholds _ hE))

/-- Imports are isolated at every point of a run that is started in a session. -/
theorem Machine.Contained.meets {m : Machine} (h : m.Contained) (bound : Nat) {scope : ScopeId}
    (hscope : m.store.Holds (.scope scope)) (root : Node) :
    m.Meets Machine.ImportsApart bound scope root := by
  have hruns : Discipline.closed.Runs () m.store scope root := fresh_empty_iff.2 hscope
  refine meets_of_open Discipline.closed_open (fun {_ m E node} hs hE => ?_) trivial
    h.idle.place.2.1 (fenced_empty_iff.2 h.closed) hruns
  exact importsApart (fenced_empty_iff.1 hs) (fresh_empty_iff.1 hE) node

/-- **Modules are isolated.**  An import changes no list, object or scope that was there before it,
whether it succeeds or fails.  What can be reached from the exports was made during the import, so
it shares no cell with what the script had, an earlier import of the same library included.  When an
expression `import … as name` fails, every cell, and with it the bindings of the current scope, is
as it was when the name of the library was evaluated.  That nothing is shared needs a store that no
cell leads out of; fresh sessions have one, and at every point of a run in a session imports share
nothing. -/
theorem load_isolated (bound : Nat) (m : Machine) :
    (∀ (lib : String) (span : Span),
      let r := (Construct.load (Node.evalWithin bound) lib span).run m
      (∀ h, m.store.Holds h → SameCell m.store r.2.store h) ∧
      ∀ v, r.1 = .ok v → ∃ exports, v = .object exports ∧
        (∀ h, r.2.store.Reaches (.object exports) h → ¬m.store.Holds h ∧ r.2.store.Holds h) ∧
        (m.store.Closed → ∀ old h, m.store.Holds old → r.2.store.Reaches old h →
          ¬r.2.store.Reaches (.object exports) h)) ∧
    (∀ (E : ScopeId) (lib : Node) (name : Ident) (span : Span) (signal : Signal),
      let named := ((Node.evalWithin bound E lib).run m).2
      let r := (Node.evalWithin (bound + 1) E (.mk (.importAs lib name) span)).run m
      r.1 = .error signal →
        (∀ h, named.store.Holds h → SameCell named.store r.2.store h) ∧
        (named.store.Holds (.scope E) → r.2.store.bindings E = named.store.bindings E)) ∧
    (∀ (console : Console) (workspace : Workspace),
      let session := Session.start console workspace
      session.machine.Contained ∧ session.machine.store.Holds (.scope session.scope)) ∧
    (m.Contained → m.store.Closed ∧ ∀ scope, m.store.Holds (.scope scope) →
      ∀ root, m.Meets Machine.ImportsApart bound scope root) := by
  refine ⟨fun lib span => ?_, fun E lib name span signal => ?_, Machine.Contained.fresh,
    fun h => ⟨h.closed, fun scope hscope => h.meets bound hscope⟩⟩
  · obtain ⟨hfenced, hspares, hexports⟩ := load_fenced bound lib span m
    refine ⟨hspares.same, fun v hrun => ?_⟩
    obtain ⟨exports, rfl⟩ := Construct.load_gives_object _ lib span m v hrun
    exact ⟨exports, rfl, fun h => hfenced.fresh_of_reaches (hexports exports hrun),
      fun hclosed => load_apart bound lib span hclosed exports hrun⟩
  · intro named r hrun
    have hspares := importAs_spares_of_error bound E lib name span m hrun
    exact ⟨hspares.same, fun hE => bindings_eq_of_get?_eq (hspares.same _ hE)⟩

namespace Reimport

/-! ## One library, imported twice -/

/-- A library that imports another one and exports a list with a closure over it, and a library that
fails after it has made a list. -/
def files : Workspace :=
  let path (lib : String) := Path.components (Workspace.memory.resolveLib lib)
  let library := "import \"inner\" as inner\npublic let list = [inner.yes]\n" ++
    "list.append(func() => list)"
  { Workspace.memory with
    storage := .memory [(path "lib", library), (path "inner", "public let yes = true"),
      (path "broken", "let list = [true]\nmissing(list)")] }

def session : Session :=
  .start default files

/-- The script that imports the library for the first time. -/
def first : Source :=
  ⟨"main", "let mine = [null]\nimport \"lib\" as first"⟩

/-- The script has been run. -/
def imported : Machine :=
  (session.machine.runWithin 9 session.scope first).2

/-- The second import. -/
def again : Except Signal Value × Machine :=
  (Construct.load (Node.evalWithin 9) "lib" default).run imported

/-- `import "broken" as second` -/
def broken : Except Signal Value × Machine :=
  (Node.evalWithin 10 session.scope
    (.mk (.importAs (.mk (.text "broken") default) ⟨"second", default⟩) default)).run imported

/-- Each import of the library makes a list of its own, and a closure over it.  From the scope of
the session there is a way to the first list, but none to anything that can be reached from the
exports of the second one.  A failed import leaves the names of the session as they were. -/
theorem second_import_isolated :
    (∀ root, Node.ofSource first = .ok root →
      session.machine.Meets Machine.ImportsApart 9 session.scope root) ∧
    again.1 = .ok (.object ⟨8⟩) ∧
    again.2.store.Reaches (.object ⟨8⟩) (.list ⟨6⟩) ∧
    again.2.store.Reaches (.object ⟨8⟩) (.scope ⟨3⟩) ∧
    again.2.store.Reaches (.scope session.scope) (.list ⟨2⟩) ∧
    (∀ h, again.2.store.Reaches (.scope session.scope) h →
      ¬again.2.store.Reaches (.object ⟨8⟩) h) ∧
    (∃ signal, broken.1 = .error signal) ∧
    broken.2.store.bindings session.scope = imported.store.bindings session.scope := by
  obtain ⟨-, -, hfresh, hruns⟩ := load_isolated 9 session.machine
  obtain ⟨hcontained, hscope⟩ := hfresh default files
  obtain ⟨hload, hfails, -, hclosed⟩ := load_isolated 9 imported
  have himported : imported.Contained := .run 9 first hcontained hscope
  have hholds : imported.store.Closed ∧
      ∀ h, session.machine.store.Holds h → imported.store.Holds h :=
    runWithin_closed 9 first hcontained.idle.place.2.1 hcontained.closed hscope
  have hkept : imported.store.Holds (.scope session.scope) := hholds.2 _ hscope
  -- the ways from the exports to the list and the closure, and from the session to its own list
  obtain ⟨hobject, hlist, hget, hfirst, hmine, hbroken⟩ :
      again.1.toOption.bind Value.handle? = some (.object ⟨8⟩) ∧
      (∃ entry ∈ again.2.store.entries ⟨8⟩, entry.2.handle? = some (.list ⟨6⟩)) ∧
      (∃ v ∈ again.2.store.items ⟨6⟩, v.handle? = some (.scope ⟨3⟩)) ∧
      (∃ entry ∈ again.2.store.bindings session.scope,
        entry.2.value.handle? = some (.object ⟨4⟩)) ∧
      (∃ entry ∈ again.2.store.entries ⟨4⟩, entry.2.handle? = some (.list ⟨2⟩)) ∧
      broken.1.toOption.isNone = true := by
    decide +kernel
  obtain ⟨-, hexports⟩ := hload "lib" default
  rcases hrun : again.1 with signal | v
  · rw [hrun] at hobject
    cases hobject
  rw [hrun] at hobject
  obtain ⟨exports, rfl, -, hapart⟩ := hexports v hrun
  cases hobject
  refine ⟨fun root _ => (hruns hcontained).2 _ hscope root, rfl, .step .refl hlist,
    .step (.step .refl hlist) hget, .step (.step .refl (.inl hfirst)) hmine,
    fun h => hapart (hclosed himported).1 _ h hkept, ?_⟩
  rcases hsignal : broken.1 with signal | v
  · exact ⟨⟨signal, rfl⟩, (hfails _ _ _ _ signal hsignal).2 hkept⟩
  · rw [hsignal] at hbroken
    cases hbroken

end Reimport

end BpScript
