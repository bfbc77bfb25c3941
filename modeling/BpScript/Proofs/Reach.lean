import BpScript.Proofs.Discipline

/-!
# What can be reached

Lists, objects and scopes refer to each other through the values they hold, scopes also through
their parents, and closures through the scope they were made in.

* `Handle`, `Ref.handle` — the cells of a store, and the one a reference leads to.
* `Store.Holds`, `Store.Leads`, `Store.Reaches` — the cells there are, and the ways between them.
* `Store.SameCell` — a cell has the same contents in two stores.
* `Store.Allocates`, `Store.Writes` — all elementary changes are one of these two: a new cell, or
  new contents for one cell.
* `Store.Closed` — no cell leads out of the store.
-/

namespace BpScript

/-! ## Cells -/

/-- A cell of a store. -/
inductive Handle where
  | list (id : ListId)
  | object (id : ObjectId)
  | scope (id : ScopeId)
  deriving DecidableEq

/-- The cell a reference leads to.  A closure leads to the scope it was made in. -/
def Ref.handle : Ref → Handle
  | .list l => .list l
  | .object o => .object o
  | .closure c => .scope c.scope

/-- The cell a value leads to. -/
def Value.handle? (v : Value) : Option Handle :=
  v.ref?.map Ref.handle

/-- All that a value refers to satisfies a property of cells if the cell it leads to does. -/
theorem Value.within_handle_iff {P : Handle → Prop} {v : Value} :
    v.Within (fun r => P r.handle) ↔ ∀ h, v.handle? = some h → P h := by
  constructor
  · intro hv h hh
    obtain ⟨r, hr, rfl⟩ := Option.map_eq_some_iff.1 hh
    exact hv r hr
  · intro hv r hr
    exact hv r.handle (by rw [handle?, hr]; rfl)

namespace Store

/-- The cell is there. -/
def Holds (s : Store) : Handle → Prop
  | .list id => id.index < s.lists.size
  | .object id => id.index < s.objects.size
  | .scope id => id.index < s.scopes.size

/-- The first cell refers to the second one. -/
def Leads (s : Store) : Handle → Handle → Prop
  | .list id, h => ∃ v ∈ s.items id, v.handle? = some h
  | .object id, h => ∃ entry ∈ s.entries id, entry.2.handle? = some h
  | .scope id, h =>
    (∃ entry ∈ s.bindings id, entry.2.value.handle? = some h) ∨ (s.parent? id).map .scope = some h

/-- There is a way from the first cell to the second one. -/
inductive Reaches (s : Store) (start : Handle) : Handle → Prop where
  | refl : Reaches s start start
  | step {h h' : Handle} : Reaches s start h → s.Leads h h' → Reaches s start h'

/-- The cell has the same contents in both stores. -/
def SameCell (s s' : Store) : Handle → Prop
  | .list id => s'.lists.get? id.index = s.lists.get? id.index
  | .object id => s'.objects.get? id.index = s.objects.get? id.index
  | .scope id => s'.scopes.get? id.index = s.scopes.get? id.index

theorem SameCell.refl (s : Store) : ∀ h : Handle, SameCell s s h
  | .list _ => rfl
  | .object _ => rfl
  | .scope _ => rfl

theorem SameCell.trans {a b c : Store} : ∀ {h : Handle}, SameCell a b h → SameCell b c h →
    SameCell a c h
  | .list _, hab, hbc => Eq.trans hbc hab
  | .object _, hab, hbc => Eq.trans hbc hab
  | .scope _, hab, hbc => Eq.trans hbc hab

/-- Equal cells refer to the same cells. -/
theorem SameCell.leads_iff {s s' : Store} : ∀ {h h' : Handle}, SameCell s s' h →
    (s'.Leads h h' ↔ s.Leads h h')
  | .list id, h', hsame => by
    have hitems : s'.items id = s.items id := congrArg (Option.getD · #[]) hsame
    rw [Leads, Leads, hitems]
  | .object id, h', hsame => by
    have hentries : s'.entries id = s.entries id := congrArg (Option.getD · []) hsame
    rw [Leads, Leads, hentries]
  | .scope id, h', hsame => by
    rw [Leads, Leads, bindings_eq_of_get?_eq hsame, parent?_eq_of_get?_eq hsame]

/-! ## Elementary changes

A change of a store makes one cell or writes to one.
-/

/-- The second store has one more cell, and is otherwise the first one. -/
structure Allocates (s : Store) (new : Handle) (s' : Store) : Prop where
  absent : ¬s.Holds new
  holds_iff : ∀ h, s'.Holds h ↔ s.Holds h ∨ h = new
  same : ∀ h, s.Holds h → SameCell s s' h

/-- The second store differs from the first one in the contents of one cell. -/
structure Writes (s : Store) (changed : Handle) (s' : Store) : Prop where
  holds_iff : ∀ h, s'.Holds h ↔ s.Holds h
  same : ∀ h, h ≠ changed → SameCell s s' h

section Changes

variable {s : Store}

theorem allocates_newList (items : Array Value) :
    Allocates s (.list (s.newList items).1) (s.newList items).2 := by
  refine ⟨Nat.lt_irrefl _, fun h => ?_, fun h hh => ?_⟩
  · cases h with
    | list id =>
      rw [Handle.list.injEq, ListId.ext_iff]
      exact Heap.lt_size_alloc_iff
    | object id => simp [Holds, newList]
    | scope id => simp [Holds, newList]
  · cases h with
    | list id => exact Heap.get?_alloc_of_lt hh
    | object id => rfl
    | scope id => rfl

theorem allocates_newObject (entries : Table String Value) :
    Allocates s (.object (s.newObject entries).1) (s.newObject entries).2 := by
  refine ⟨Nat.lt_irrefl _, fun h => ?_, fun h hh => ?_⟩
  · cases h with
    | list id => simp [Holds, newObject]
    | object id =>
      rw [Handle.object.injEq, ObjectId.ext_iff]
      exact Heap.lt_size_alloc_iff
    | scope id => simp [Holds, newObject]
  · cases h with
    | list id => rfl
    | object id => exact Heap.get?_alloc_of_lt hh
    | scope id => rfl

theorem allocates_newScope (scope : Scope) :
    Allocates s (.scope (s.newScope scope).1) (s.newScope scope).2 := by
  refine ⟨Nat.lt_irrefl _, fun h => ?_, fun h hh => ?_⟩
  · cases h with
    | list id => simp [Holds, newScope]
    | object id => simp [Holds, newScope]
    | scope id =>
      rw [Handle.scope.injEq, ScopeId.ext_iff]
      exact Heap.lt_size_alloc_iff
  · cases h with
    | list id => rfl
    | object id => rfl
    | scope id => exact Heap.get?_alloc_of_lt hh

theorem writes_modifyItems (l : ListId) (f : Array Value → Array Value) :
    Writes s (.list l) (s.modifyItems l f) := by
  refine ⟨fun h => ?_, fun h hne => ?_⟩
  · cases h <;> simp [Holds, modifyItems]
  · cases h with
    | list id => exact Heap.get?_modify_of_ne fun hi => hne (congrArg (Handle.list ⟨·⟩) hi.symm)
    | object id => rfl
    | scope id => rfl

theorem writes_modifyEntries (o : ObjectId) (f : Table String Value → Table String Value) :
    Writes s (.object o) (s.modifyEntries o f) := by
  refine ⟨fun h => ?_, fun h hne => ?_⟩
  · cases h <;> simp [Holds, modifyEntries]
  · cases h with
    | list id => rfl
    | object id => exact Heap.get?_modify_of_ne fun hi => hne (congrArg (Handle.object ⟨·⟩) hi.symm)
    | scope id => rfl

theorem writes_bind (E : ScopeId) (name : String) (binding : Binding) :
    Writes s (.scope E) (s.bind E name binding) := by
  refine ⟨fun h => ?_, fun h hne => ?_⟩
  · cases h <;> simp [Holds, Store.bind]
  · cases h with
    | list id => rfl
    | object id => rfl
    | scope id => exact Heap.get?_modify_of_ne fun hi => hne (congrArg (Handle.scope ⟨·⟩) hi.symm)

/-! What the new or written cell holds. -/

theorem items_newList (items : Array Value) :
    (s.newList items).2.items (s.newList items).1 = items :=
  congrArg (Option.getD · #[]) (Heap.get?_alloc_self _ _)

theorem entries_newObject (entries : Table String Value) :
    (s.newObject entries).2.entries (s.newObject entries).1 = entries :=
  congrArg (Option.getD · []) (Heap.get?_alloc_self _ _)

theorem bindings_newScope (scope : Scope) :
    (s.newScope scope).2.bindings (s.newScope scope).1 = scope.bindings := by
  have hget : (s.newScope scope).2.scopes.get? (s.newScope scope).1.index = some scope :=
    Heap.get?_alloc_self _ _
  rw [bindings, hget]

theorem parent?_newScope (scope : Scope) :
    (s.newScope scope).2.parent? (s.newScope scope).1 = scope.parent :=
  congrArg (Option.bind · Scope.parent) (Heap.get?_alloc_self _ _)

theorem items_modifyItems {l : ListId} {f : Array Value → Array Value} (hl : s.Holds (.list l)) :
    (s.modifyItems l f).items l = f (s.items l) := by
  obtain ⟨contents, hget⟩ := Heap.exists_get?_eq_some hl
  rw [items, items, modifyItems, Heap.get?_modify_self, hget]
  rfl

theorem entries_modifyEntries {o : ObjectId} {f : Table String Value → Table String Value}
    (ho : s.Holds (.object o)) : (s.modifyEntries o f).entries o = f (s.entries o) := by
  obtain ⟨contents, hget⟩ := Heap.exists_get?_eq_some ho
  rw [entries, entries, modifyEntries, Heap.get?_modify_self, hget]
  rfl

theorem bindings_bind {E : ScopeId} {name : String} {binding : Binding} (hE : s.Holds (.scope E)) :
    (s.bind E name binding).bindings E = (s.bindings E).set name binding := by
  obtain ⟨scope, hget⟩ := Heap.exists_get?_eq_some hE
  rw [bindings, bindings, Store.bind, Heap.get?_modify_self, hget]
  rfl

theorem parent?_bind (E : ScopeId) (name : String) (binding : Binding) (id : ScopeId) :
    (s.bind E name binding).parent? id = s.parent? id := by
  rw [parent?, parent?, Store.bind, Heap.get?_modify]
  split
  · cases s.scopes.get? id.index <;> rfl
  · rfl

/-! What the new or written cell leads to. -/

theorem leads_newList {items : Array Value} {h : Handle}
    (hleads : (s.newList items).2.Leads (.list (s.newList items).1) h) :
    ∃ v ∈ items, v.handle? = some h := by
  obtain ⟨v, hv, hh⟩ := hleads
  rw [items_newList] at hv
  exact ⟨v, hv, hh⟩

theorem leads_newObject {entries : Table String Value} {h : Handle}
    (hleads : (s.newObject entries).2.Leads (.object (s.newObject entries).1) h) :
    ∃ entry ∈ entries, entry.2.handle? = some h := by
  obtain ⟨entry, hentry, hh⟩ := hleads
  rw [entries_newObject] at hentry
  exact ⟨entry, hentry, hh⟩

theorem leads_newScope {scope : Scope} {h : Handle}
    (hleads : (s.newScope scope).2.Leads (.scope (s.newScope scope).1) h) :
    (∃ entry ∈ scope.bindings, entry.2.value.handle? = some h) ∨
      scope.parent.map .scope = some h := by
  rwa [Leads, bindings_newScope, parent?_newScope] at hleads

theorem leads_modifyItems {l : ListId} {f : Array Value → Array Value} {h : Handle}
    (hl : s.Holds (.list l)) (hleads : (s.modifyItems l f).Leads (.list l) h) :
    ∃ v ∈ f (s.items l), v.handle? = some h := by
  obtain ⟨v, hv, hh⟩ := hleads
  rw [items_modifyItems hl] at hv
  exact ⟨v, hv, hh⟩

theorem leads_modifyEntries {o : ObjectId} {f : Table String Value → Table String Value}
    {h : Handle} (ho : s.Holds (.object o)) (hleads : (s.modifyEntries o f).Leads (.object o) h) :
    ∃ entry ∈ f (s.entries o), entry.2.handle? = some h := by
  obtain ⟨entry, hentry, hh⟩ := hleads
  rw [entries_modifyEntries ho] at hentry
  exact ⟨entry, hentry, hh⟩

theorem leads_bind {E : ScopeId} {name : String} {binding : Binding} {h : Handle}
    (hE : s.Holds (.scope E)) (hleads : (s.bind E name binding).Leads (.scope E) h) :
    binding.value.handle? = some h ∨ s.Leads (.scope E) h := by
  rw [Leads, bindings_bind hE, parent?_bind] at hleads
  rcases hleads with ⟨entry, hentry, hh⟩ | hparent
  · rcases Table.mem_of_mem_set hentry with rfl | hentry
    · exact .inl hh
    · exact .inr (.inl ⟨entry, hentry, hh⟩)
  · exact .inr (.inr hparent)

end Changes

/-! ## Closed stores -/

/-- No cell leads out of the store.  Every store of a run is like this. -/
def Closed (s : Store) : Prop :=
  ∀ h h', s.Holds h → s.Leads h h' → s.Holds h'

/-- A way that starts in a closed store stays in it, also after its cells were joined by others. -/
theorem Closed.holds_of_reaches {s s' : Store} (hs : s.Closed)
    (hsame : ∀ h, s.Holds h → SameCell s s' h) {start h : Handle} (hstart : s.Holds start)
    (hreaches : s'.Reaches start h) : s.Holds h := by
  induction hreaches with
  | refl => exact hstart
  | step _ hleads ih => exact hs _ _ ih ((hsame _ ih).leads_iff.1 hleads)

end Store

end BpScript
