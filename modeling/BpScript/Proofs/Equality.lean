import Mathlib.Data.List.Forall2
import Mathlib.Data.List.Perm.Subperm
import Mathlib.Logic.Relation
import BpScript.Proofs.Code

/-!
# Equality of values

Two objects are compared by going through the entries of the first one.  That this does not favour
the first one rests on the keys: objects of the same size, each without a key that comes twice, have
the same keys if one has those of the other.  So the argument has two halves.

* `Store.UniqueKeys`, `Discipline.uniqueKeys` — no object has a key twice.  Whatever makes or
  changes an object keeps it that way.
* `Number.beq_comm`, `Number.beq_trans` — numbers, from how they are laid out.
* `Table.Matches` — tables with the same keys and related values.
* `Store.equalWithin_comm`, `Store.equalWithin_trans` — values, to any depth.  The shortcut for
  equal handles is no exception: it only ever replaces a value by itself.
* `Store.equalWithin_of_tame` — a value that does not contain itself is compared as deep as it
  nests.
* **`equality_symmetric_transitive`** — equality in the states that scripts come to.
-/

namespace BpScript

/-! ## No key twice -/

/-- No object has a key twice. -/
def Store.UniqueKeys (s : Store) : Prop :=
  ∀ o, (s.entries o).keys.Nodup

namespace Store

variable {s : Store}

theorem UniqueKeys.of_objects_eq {s' : Store} (hs : s.UniqueKeys) (h : s'.objects = s.objects) :
    s'.UniqueKeys := by
  intro o
  have hentries : s'.entries o = s.entries o := by rw [entries, entries, h]
  rw [hentries]
  exact hs o

theorem uniqueKeys_empty : Store.empty.UniqueKeys :=
  fun _ => .nil

theorem UniqueKeys.newObject (hs : s.UniqueKeys) {entries : Table String Value}
    (h : entries.keys.Nodup) : (s.newObject entries).2.UniqueKeys := by
  intro o
  rw [Store.entries, Store.newObject, Heap.get?_alloc]
  split
  · exact h
  · exact hs o

theorem UniqueKeys.modifyEntries (hs : s.UniqueKeys) {o : ObjectId}
    {f : Table String Value → Table String Value}
    (h : (s.entries o).keys.Nodup → (f (s.entries o)).keys.Nodup) :
    (s.modifyEntries o f).UniqueKeys := by
  intro o'
  rw [Store.entries, Store.modifyEntries, Heap.get?_modify]
  split
  · next heq =>
    obtain rfl : o = o' := ObjectId.ext heq
    cases hget : s.objects.get? o.index with
    | none => exact .nil
    | some contents =>
      have hcontents : s.entries o = contents := by rw [Store.entries, hget]; rfl
      have hkeys := h (hs o)
      rw [hcontents] at hkeys
      exact hkeys
  · exact hs o'

theorem UniqueKeys.newRoot (hs : s.UniqueKeys) : s.newRoot.2.UniqueKeys :=
  (hs.newObject (by decide : mathConstants.keys.Nodup)).of_objects_eq rfl

end Store

open Store Discipline

/-- Literals, dotted assignments, `remove` and exports all keep the keys of an object apart. -/
def Discipline.uniqueKeys : Discipline Unit where
  Sound _ s := s.UniqueKeys
  Refers _ _ _ := True
  Runs _ _ _ _ := True
  Imports _ := True
  Grows _ _ _ _ := True
  grows_refl _ _ _ := trivial
  grows_trans _ _ := trivial
  refers_mono _ _ := trivial
  runs_mono _ _ := trivial
  runs_part _ _ := trivial
  imports_of_runs _ _ := trivial
  refers_closure _ _ := trivial
  items_within _ _ _ _ _ := trivial
  entries_within _ _ _ _ _ := trivial
  lookup_within _ _ _ _ _ := trivial
  newList _ hs _ := ⟨hs.of_objects_eq rfl, trivial, trivial⟩
  newObject _ hs hkeys _ := ⟨hs.newObject hkeys, trivial, trivial⟩
  bind hs _ _ _ := ⟨hs.of_objects_eq rfl, trivial⟩
  modifyItems _ hs _ _ := ⟨hs.of_objects_eq rfl, trivial⟩
  modifyEntries _ hs _ hkeys _ := ⟨hs.modifyEntries hkeys, trivial⟩
  call hs _ _ _ _ := ⟨hs.of_objects_eq rfl, trivial, fun _ _ _ => trivial⟩
  load _ hs := ⟨(), hs.newRoot, fun _ _ _ _ => trivial,
    fun _ hs' _ => ⟨hs', fun _ => trivial, fun _ _ _ _ => trivial⟩⟩

/-- The states that scripts come to.  Between runs the host may open root scopes and change
everything but the objects. -/
inductive Machine.Scripted : Machine → Prop where
  | start (console : Console) (workspace : Workspace) : Scripted (.start console workspace)
  | fresh {m : Machine} : Scripted m → Scripted { m with store := m.store.newRoot.2 }
  | host {m : Machine} (lists : Heap (Array Value)) (scopes : Heap Scope) (console : Console)
    (workspace : Workspace) : Scripted m →
    Scripted { m with store := { m.store with lists, scopes }, console, workspace }
  | run {m : Machine} (bound : Nat) (scope : ScopeId) (source : Source) :
    Scripted m → Scripted (m.runWithin bound scope source).2

theorem Machine.Scripted.idle {m : Machine} (h : m.Scripted) : m.Idle := by
  induction h with
  | start console workspace => exact .start console workspace
  | fresh _ ih => exact .host _ _ _ ih
  | host _ _ _ _ _ ih => exact .host _ _ _ ih
  | run bound scope source _ ih => exact .run bound scope source ih

/-- Objects have unique keys between runs. -/
theorem Machine.Scripted.uniqueKeys {m : Machine} (h : m.Scripted) : m.store.UniqueKeys := by
  induction h with
  | start => exact uniqueKeys_empty
  | fresh _ ih => exact ih.newRoot
  | host _ _ _ _ _ ih => exact ih.of_objects_eq rfl
  | @run m bound scope source hm ih =>
    refine m.runWithin_state (P := fun m => m.store.UniqueKeys) ih fun root _ => ?_
    have hv : Discipline.uniqueKeys.Visits (Node.evalWithin bound) :=
      Node.evalWithin_keeps _ (fun _ _ _ => trivial) bound
    exact (Construct.program_finishes (w := ()) hv hm.idle.place.2.1 trivial ih).1.sound

/-- Only objects that are there have entries. -/
theorem Store.uniqueKeys_iff {s : Store} :
    s.UniqueKeys ↔ ∀ i < s.objects.size, (s.entries ⟨i⟩).keys.Nodup := by
  refine ⟨fun hs i _ => hs ⟨i⟩, fun hs o => ?_⟩
  by_cases ho : o.index < s.objects.size
  · exact hs o.index ho
  · have hempty : s.entries o = [] := by
      rw [Store.entries, Heap.get?_eq_none (Nat.not_lt.1 ho)]
      rfl
    rw [hempty]
    exact .nil

instance (s : Store) : Decidable s.UniqueKeys :=
  decidable_of_iff _ Store.uniqueKeys_iff.symm

/-- Asks for unique keys at every point. -/
def uniqueKeys : Check :=
  fun _ m _ => m.store.UniqueKeys

/-- Objects have unique keys at every point of a run. -/
theorem Machine.Scripted.always_uniqueKeys {m : Machine} (h : m.Scripted) (bound : Nat)
    (scope : ScopeId) (root : Node) : m.Always BpScript.uniqueKeys bound scope root := by
  have hcheck : ∀ {m : Machine} {around : List Activity} {point : Point}, m.store.UniqueKeys →
      BpScript.uniqueKeys around m point = true := fun hs => decide_eq_true hs
  exact Machine.always_of_discipline (D := Discipline.uniqueKeys) (w := ()) (fun _ _ _ => trivial)
    (fun hs _ _ => hcheck hs) (fun hs _ => hcheck hs) h.idle.place.2.1 h.uniqueKeys bound trivial

/-! ## Numbers -/

namespace Number

/-- Numbers are equal if they are one number, or two zeros. -/
theorem compare_eq_iff (a b : Float.Model.UnpackedFloat) : a.compare b = some .eq ↔
    (a = b ∧ a ≠ .notANumber) ∨ ∃ s t, a = .zero s ∧ b = .zero t := by
  cases a with
  | notANumber => cases b <;> simp [Float.Model.UnpackedFloat.compare]
  | infinity s =>
    cases b with
    | infinity t => cases s <;> cases t <;> simp [Float.Model.UnpackedFloat.compare] <;> rfl
    | _ => cases s <;> simp [Float.Model.UnpackedFloat.compare]
  | zero s =>
    cases b with
    | infinity t | finite t => cases t <;> simp [Float.Model.UnpackedFloat.compare]
    | _ => simp [Float.Model.UnpackedFloat.compare]
  | finite s m e hm =>
    cases b with
    | infinity t => cases s <;> cases t <;> simp [Float.Model.UnpackedFloat.compare]
    | zero t | notANumber => cases s <;> simp [Float.Model.UnpackedFloat.compare]
    | finite t m' e' hm' =>
      cases s <;> cases t <;>
        simp [Float.Model.UnpackedFloat.compare, Ordering.then_eq_eq, and_comm]

theorem beq_iff (x y : Float) :
    (x == y) = true ↔ x.toModel.unpack.compare y.toModel.unpack = some .eq :=
  beq_iff_eq (α := Option Ordering)

theorem beq_symm {x y : Float} (h : (x == y) = true) : (y == x) = true := by
  rw [beq_iff, compare_eq_iff] at h ⊢
  rcases h with ⟨heq, hnumber⟩ | ⟨s, t, hx, hy⟩
  · exact .inl ⟨heq.symm, heq ▸ hnumber⟩
  · exact .inr ⟨t, s, hy, hx⟩

theorem beq_trans {x y z : Float} (h : (x == y) = true) (h' : (y == z) = true) :
    (x == z) = true := by
  rw [beq_iff, compare_eq_iff] at h h' ⊢
  rcases h with ⟨heq, -⟩ | ⟨s, t, hx, hy⟩
  · rwa [heq]
  · rcases h' with ⟨heq, -⟩ | ⟨-, u, -, hz⟩
    · exact .inr ⟨s, t, hx, heq ▸ hy⟩
    · exact .inr ⟨s, u, hx, hz⟩

end Number

/-! ## Tables -/

namespace Table

variable {κ α : Type} {xs ys zs : Table κ α} {R : α → α → Prop}

theorem mem_keys_iff {k : κ} : k ∈ xs.keys ↔ ∃ a, (k, a) ∈ xs := by
  simp [keys]

/-- A key that comes once has the value it comes with. -/
theorem get?_eq_some_iff [DecidableEq κ] (h : xs.keys.Nodup) {k : κ} {a : α} :
    xs.get? k = some a ↔ (k, a) ∈ xs := by
  refine ⟨mem_of_get?, fun hmem => ?_⟩
  induction xs with
  | nil => cases hmem
  | cons entry rest ih =>
    obtain ⟨k', a'⟩ := entry
    obtain ⟨hk', hrest⟩ := List.nodup_cons.1 h
    rw [get?]
    rcases List.mem_cons.1 hmem with heq | hmem
    · cases heq
      rw [if_pos rfl]
    · have hne : k' ≠ k := by
        rintro rfl
        exact hk' (mem_keys_iff.2 ⟨a, hmem⟩)
      rw [if_neg hne]
      exact ih hrest hmem

/-- The second table is as long as the first and has, for each entry of the first, a related one
with the same key. -/
structure Matches (R : α → α → Prop) (xs ys : Table κ α) : Prop where
  length : xs.length = ys.length
  covers : ∀ {k a}, (k, a) ∈ xs → ∃ b, (k, b) ∈ ys ∧ R a b

/-- **No table is favoured.**  Without a key that comes twice, tables that match have the same
keys. -/
theorem Matches.symm [DecidableEq κ] (hxs : xs.keys.Nodup) (hys : ys.keys.Nodup)
    (h : Matches R xs ys) :
    Matches (fun b a => R a b) ys xs := by
  have hsub : xs.keys ⊆ ys.keys := by
    intro k hk
    obtain ⟨a, ha⟩ := mem_keys_iff.1 hk
    obtain ⟨b, hb, -⟩ := h.covers ha
    exact mem_keys_iff.2 ⟨b, hb⟩
  have hlength : ys.keys.length ≤ xs.keys.length := by
    simp only [keys, List.length_map]
    exact h.length.ge
  have hperm : xs.keys.Perm ys.keys := (hxs.subperm hsub).perm_of_length_le hlength
  refine ⟨h.length.symm, fun {k b} hb => ?_⟩
  obtain ⟨a, ha⟩ := mem_keys_iff.1 (hperm.mem_iff.2 (mem_keys_iff.2 ⟨b, hb⟩))
  obtain ⟨b', hb', hR⟩ := h.covers ha
  have heq : b' = b := by
    have hget := (get?_eq_some_iff hys).2 hb
    rw [(get?_eq_some_iff hys).2 hb'] at hget
    exact Option.some.inj hget
  exact ⟨a, ha, heq ▸ hR⟩

theorem Matches.imp {S : α → α → Prop} (himp : ∀ a b, R a b → S a b) (h : Matches R xs ys) :
    Matches S xs ys := by
  refine ⟨h.length, fun ha => ?_⟩
  obtain ⟨b, hb, hR⟩ := h.covers ha
  exact ⟨b, hb, himp _ _ hR⟩

theorem Matches.trans (htrans : ∀ a b c, R a b → R b c → R a c) (h : Matches R xs ys)
    (h' : Matches R ys zs) : Matches R xs zs := by
  refine ⟨h.length.trans h'.length, fun ha => ?_⟩
  obtain ⟨b, hb, hab⟩ := h.covers ha
  obtain ⟨c, hc, hbc⟩ := h'.covers hb
  exact ⟨c, hc, htrans _ _ _ hab hbc⟩

end Table

/-! ## Values -/

theorem Callable.same_symm {f g : Callable} (h : f.same g = true) : g.same f = true := by
  cases f <;> cases g <;> first | exact decide_eq_true (of_decide_eq_true h).symm | cases h

theorem Callable.same_trans {f g k : Callable} (h : f.same g = true) (h' : g.same k = true) :
    f.same k = true := by
  cases f <;> cases g <;> cases k <;> first
    | exact decide_eq_true ((of_decide_eq_true h).trans (of_decide_eq_true h'))
    | cases h
    | cases h'

theorem forall₂_trans {α : Type} {R : α → α → Prop} (htrans : ∀ a b c, R a b → R b c → R a c) :
    ∀ {xs ys zs : List α}, List.Forall₂ R xs ys → List.Forall₂ R ys zs → List.Forall₂ R xs zs
  | _, _, _, .nil, .nil => .nil
  | _, _, _, .cons h hs, .cons h' hs' => .cons (htrans _ _ _ h h') (forall₂_trans htrans hs hs')

namespace Store

variable {s : Store}

theorem equalWithin_list_iff {n : Nat} {i j : ListId} :
    s.equalWithin (n + 1) (.list i) (.list j) = true ↔ i = j ∨
      List.Forall₂ (fun v w => s.equalWithin n v w = true) (s.items i).toList
        (s.items j).toList := by
  simp [equalWithin, List.forall₂_iff_zip]

/-- The entries of the first object are gone through; their values are the right operands. -/
theorem equalWithin_object_iff (hs : s.UniqueKeys) {n : Nat} {i j : ObjectId} :
    s.equalWithin (n + 1) (.object i) (.object j) = true ↔ i = j ∨
      Table.Matches (fun v w => s.equalWithin n w v = true) (s.entries i) (s.entries j) := by
  simp only [equalWithin, Bool.or_eq_true, decide_eq_true_eq, Bool.and_eq_true, List.all_eq_true]
  refine or_congr_right ⟨fun h => ⟨h.1, fun {k a} hmem => ?_⟩,
    fun hmatches => ⟨hmatches.length, fun entry hmem => ?_⟩⟩
  · have hcovers := h.2 (k, a) hmem
    split at hcovers
    · next w hfound => exact ⟨w, (Table.get?_eq_some_iff (hs j)).1 hfound, hcovers⟩
    · cases hcovers
  · obtain ⟨w, hw, hequal⟩ := hmatches.covers hmem
    rw [(Table.get?_eq_some_iff (hs j)).2 hw]
    exact hequal

/-- **Equality to any depth is symmetric.** -/
theorem equalWithin_symm (hs : s.UniqueKeys) : ∀ (n : Nat) {v w : Value},
    s.equalWithin n v w = true → s.equalWithin n w v = true
  | 0, _, _, h => by cases h
  | n + 1, v, w, h => by
    cases v <;> cases w
    case number.number x y => exact Number.beq_symm h
    case text.text t u => exact decide_eq_true (of_decide_eq_true h).symm
    case boolean.boolean a b => exact decide_eq_true (of_decide_eq_true h).symm
    case null.null => rfl
    case list.list i j =>
      rcases equalWithin_list_iff.1 h with rfl | hitems
      · exact equalWithin_list_iff.2 (.inl rfl)
      · refine equalWithin_list_iff.2 (.inr (List.Forall₂.flip ?_))
        exact hitems.imp fun _ _ => equalWithin_symm hs n
    case object.object i j =>
      rcases (equalWithin_object_iff hs).1 h with rfl | hentries
      · exact (equalWithin_object_iff hs).2 (.inl rfl)
      · refine (equalWithin_object_iff hs).2 (.inr ((hentries.symm (hs i) (hs j)).imp ?_))
        exact fun _ _ => equalWithin_symm hs n
    case callable.callable f g => exact Callable.same_symm h
    all_goals cases h

theorem equalWithin_comm (hs : s.UniqueKeys) (n : Nat) (v w : Value) :
    s.equalWithin n v w = s.equalWithin n w v :=
  Bool.eq_iff_iff.2 ⟨equalWithin_symm hs n, equalWithin_symm hs n⟩

/-- **Equality to any depth is transitive.** -/
theorem equalWithin_trans (hs : s.UniqueKeys) : ∀ (n : Nat) {u v w : Value},
    s.equalWithin n u v = true → s.equalWithin n v w = true → s.equalWithin n u w = true
  | 0, _, _, _, h, _ => by cases h
  | n + 1, u, v, w, h, h' => by
    cases u <;> cases v
    case number.number x y =>
      cases w with
      | number z => exact Number.beq_trans h h'
      | _ => cases h'
    case text.text t t' => obtain rfl := of_decide_eq_true h; exact h'
    case boolean.boolean b b' => obtain rfl := of_decide_eq_true h; exact h'
    case null.null => exact h'
    case list.list i j =>
      cases w with
      | list k =>
        rcases equalWithin_list_iff.1 h with rfl | hij
        · exact h'
        · rcases equalWithin_list_iff.1 h' with rfl | hjk
          · exact h
          · refine equalWithin_list_iff.2 (.inr (forall₂_trans ?_ hij hjk))
            exact fun _ _ _ => equalWithin_trans hs n
      | _ => cases h'
    case object.object i j =>
      cases w with
      | object k =>
        rcases (equalWithin_object_iff hs).1 h with rfl | hij
        · exact h'
        · rcases (equalWithin_object_iff hs).1 h' with rfl | hjk
          · exact h
          · refine (equalWithin_object_iff hs).2 (.inr (hij.trans ?_ hjk))
            exact fun _ _ _ hba hcb => equalWithin_trans hs n hcb hba
      | _ => cases h'
    case callable.callable f g =>
      cases w with
      | callable k => exact Callable.same_trans h h'
      | _ => cases h'
    all_goals cases h

/-! ## Values that do not contain themselves

The bound is there for values that contain themselves, which a comparison could go around in for
ever.  It is never felt by others.
-/

/-- The second value is an element of the first, or the value of an entry. -/
def Inside (s : Store) (v u : Value) : Prop :=
  match v with
  | .list l => u ∈ s.items l
  | .object o => ∃ entry ∈ s.entries o, entry.2 = u
  | _ => False

/-- The value does not contain itself, and neither does anything that it contains. -/
def Tame (s : Store) (v : Value) : Prop :=
  ∀ u, Relation.ReflTransGen s.Inside v u → ¬Relation.TransGen s.Inside u u

theorem Tame.inside {v u : Value} (hv : s.Tame v) (h : s.Inside v u) : s.Tame u :=
  fun _ hu => hv _ (.head h hu)

/-- The number of a list or an object that is there: the lists come first. -/
def cell? (s : Store) : Value → Option Nat
  | .list l => if l.index < s.lists.size then some l.index else none
  | .object o => if o.index < s.objects.size then some (s.lists.size + o.index) else none
  | _ => none

theorem lt_of_cell? {v : Value} {i : Nat} (h : s.cell? v = some i) :
    i < s.lists.size + s.objects.size := by
  unfold cell? at h
  split at h
  · split at h <;> grind
  · split at h <;> grind
  · cases h

/-- Two values with one number are the same list or the same object. -/
theorem eq_of_cell? {v w : Value} {i : Nat} (hv : s.cell? v = some i) (hw : s.cell? w = some i) :
    v = w := by
  unfold cell? at hv hw
  cases v <;> cases w <;> simp only [Option.ite_none_right_eq_some, Option.some.injEq,
    reduceCtorEq] at hv hw
  · exact congrArg Value.list (ListId.ext (by omega))
  · omega
  · omega
  · exact congrArg Value.object (ObjectId.ext (by omega))

/-- Only what is there holds something. -/
theorem exists_cell?_of_inside {v u : Value} (h : s.Inside v u) : ∃ i, s.cell? v = some i := by
  cases v with
  | list l =>
    by_cases hl : l.index < s.lists.size
    · exact ⟨_, if_pos hl⟩
    · rw [Inside, items, Heap.get?_eq_none (Nat.not_lt.1 hl)] at h
      exact absurd h (Array.not_mem_empty _)
  | object o =>
    by_cases ho : o.index < s.objects.size
    · exact ⟨_, if_pos ho⟩
    · obtain ⟨entry, hentry, -⟩ := h
      rw [entries, Heap.get?_eq_none (Nat.not_lt.1 ho)] at hentry
      cases hentry
  | _ => exact h.elim

/-- There are no more different lists and objects than the store has made. -/
theorem length_le_of_cells {path : List Value} (hpath : path.Nodup)
    (hcells : ∀ v ∈ path, ∃ i, s.cell? v = some i) :
    path.length ≤ s.lists.size + s.objects.size := by
  let number : Value → Nat := fun v => (s.cell? v).getD 0
  have hnumber : ∀ v ∈ path, s.cell? v = some (number v) := by
    intro v hv
    obtain ⟨i, hi⟩ := hcells v hv
    simp only [number, hi, Option.getD_some]
  have hnodup : (path.map number).Nodup := by
    refine hpath.map_on fun v hv w hw heq => eq_of_cell? (hnumber v hv) ?_
    rw [heq]
    exact hnumber w hw
  have hrange : path.map number ⊆ List.range (s.lists.size + s.objects.size) := by
    intro i hi
    obtain ⟨v, hv, rfl⟩ := List.mem_map.1 hi
    exact List.mem_range.2 (lt_of_cell? (hnumber v hv))
  have hlength := (hnodup.subperm hrange).length_le
  rwa [List.length_map, List.length_range] at hlength

/-- The depth of a comparison matters only as far as the insides of the left operand go. -/
theorem equalWithin_succ_of_inside (hs : s.UniqueKeys) {n k : Nat} {v w : Value}
    (hinside : ∀ u, s.Inside v u → ∀ x, s.equalWithin n u x = s.equalWithin k u x)
    (h : s.equalWithin (n + 1) v w = true) : s.equalWithin (k + 1) v w = true := by
  cases v <;> cases w
  case list.list i j =>
    rcases equalWithin_list_iff.1 h with rfl | hitems
    · exact equalWithin_list_iff.2 (.inl rfl)
    · obtain ⟨hlength, hzip⟩ := List.forall₂_iff_zip.1 hitems
      refine equalWithin_list_iff.2 (.inr (List.forall₂_iff_zip.2 ⟨hlength, fun hmem => ?_⟩))
      rw [← hinside _ (Array.mem_toList_iff.1 (List.of_mem_zip hmem).1)]
      exact hzip hmem
  case object.object i j =>
    rcases (equalWithin_object_iff hs).1 h with rfl | hentries
    · exact (equalWithin_object_iff hs).2 (.inl rfl)
    · refine (equalWithin_object_iff hs).2 (.inr ⟨hentries.length, fun {key a} ha => ?_⟩)
      obtain ⟨b, hb, hequal⟩ := hentries.covers ha
      refine ⟨b, hb, ?_⟩
      rw [equalWithin_comm hs, ← hinside a ⟨(key, a), ha, rfl⟩, equalWithin_comm hs]
      exact hequal
  all_goals exact h

/-- The path leads to a value through lists and objects around it.  It goes through none of them
twice, so it leaves room for what is inside the value. -/
theorem equalWithin_of_path (hs : s.UniqueKeys) (n : Nat) : ∀ (room : Nat) {path : List Value}
    {v : Value}, s.Tame v → path.Nodup →
    (∀ u ∈ path, (∃ i, s.cell? u = some i) ∧ Relation.TransGen s.Inside u v) →
    path.length + room = s.lists.size + s.objects.size →
      ∀ w, s.equalWithin (n + room + 1) v w = s.equalWithin (room + 1) v w := by
  intro room path v hv hpath haround hroom w
  have hinside : ∀ u, s.Inside v u →
      ∀ x, s.equalWithin (n + room) u x = s.equalWithin room u x := by
    intro u hu
    have hcell := exists_cell?_of_inside hu
    have hnew : v ∉ path := fun hmem => hv v .refl (haround v hmem).2
    have hnodup : (v :: path).Nodup := List.nodup_cons.2 ⟨hnew, hpath⟩
    have haround' : ∀ u' ∈ v :: path,
        (∃ i, s.cell? u' = some i) ∧ Relation.TransGen s.Inside u' u := by
      intro u' hu'
      rcases List.mem_cons.1 hu' with rfl | hu'
      · exact ⟨hcell, .single hu⟩
      · exact ⟨(haround u' hu').1, (haround u' hu').2.tail hu⟩
    have hlength := length_le_of_cells hnodup fun u' hu' => (haround' u' hu').1
    cases room with
    | zero =>
      rw [List.length_cons] at hlength
      omega
    | succ room =>
      refine equalWithin_of_path hs n room (hv.inside hu) hnodup haround' ?_
      rw [List.length_cons]
      omega
  exact Bool.eq_iff_iff.2 ⟨equalWithin_succ_of_inside hs hinside,
    equalWithin_succ_of_inside hs fun u hu x => (hinside u hu x).symm⟩

/-- **The bound is not felt** by a value that does not contain itself, nor contains one that does:
with any higher bound it is equal to the same values. -/
theorem equalWithin_of_tame (hs : s.UniqueKeys) {v : Value} (hv : s.Tame v) (w : Value) {n : Nat}
    (hn : s.nestingBound ≤ n) : s.equalWithin n v w = s.equal v w := by
  obtain ⟨k, rfl⟩ : ∃ k, n = k + (s.lists.size + s.objects.size) + 1 :=
    ⟨n - s.nestingBound, by unfold nestingBound at hn ⊢; omega⟩
  exact equalWithin_of_path hs k _ hv .nil (by simp) (Nat.zero_add _) w

end Store

/-- **Equality is symmetric and transitive.**  In every state that scripts come to, between runs and
at every point of a run, no object has a key twice.  In such a state equality of values, which
operators, `switch` and `contains` all use, is symmetric and transitive: lists and objects of any
nesting, entries in any order, functions by name.  That values are compared to a bounded depth is
not felt by those that do not contain themselves. -/
theorem equality_symmetric_transitive :
    (∀ m : Machine, m.Scripted → m.store.UniqueKeys ∧
      ∀ (bound : Nat) (scope : ScopeId) (root : Node), m.Always uniqueKeys bound scope root) ∧
    (∀ s : Store, s.UniqueKeys →
      (∀ v w, s.equal v w = s.equal w v) ∧
      (∀ u v w, s.equal u v = true → s.equal v w = true → s.equal u w = true) ∧
      ∀ v w, s.Tame v → ∀ n, s.nestingBound ≤ n → s.equalWithin n v w = s.equal v w) := by
  refine ⟨fun m hm => ⟨hm.uniqueKeys, hm.always_uniqueKeys⟩, fun s hs => ⟨?_, ?_, ?_⟩⟩
  · exact equalWithin_comm hs s.nestingBound
  · exact fun u v w => equalWithin_trans hs s.nestingBound
  · exact fun v w hv n hn => equalWithin_of_tame hs hv w hn

/-- Two objects with the same entries in different orders, and an object literal that repeats a
key. -/
theorem reordered_objects_equal :
    let s := ((Store.empty.newObject [("a", .null), ("b", .boolean true)]).2.newObject
      [("b", .boolean true), ("a", .null)]).2
    let repeated := ((Machine.start default .memory).runWithin 9 ⟨0⟩
      ⟨"main", "\x7ba: 1, a: 2\x7d"⟩).2
    repeated.store.UniqueKeys ∧
      s.equal (.object ⟨0⟩) (.object ⟨1⟩) = true ∧ s.equal (.object ⟨1⟩) (.object ⟨0⟩) = true ∧
      ∀ n, s.nestingBound ≤ n → s.equalWithin n (.object ⟨0⟩) (.object ⟨1⟩) = true := by
  intro s repeated
  obtain ⟨hstates, hequal⟩ := equality_symmetric_transitive
  have hs : s.UniqueKeys := by decide
  obtain ⟨hcomm, -, hbound⟩ := hequal s hs
  have hrepeated : repeated.Scripted := .run 9 ⟨0⟩ _ (.start default .memory)
  have hforward : s.equal (.object ⟨0⟩) (.object ⟨1⟩) = true := by decide
  -- what the objects hold is plain, so it holds nothing in turn
  have hplain : ∀ v u, s.Inside v u → u = .null ∨ u = .boolean true := by
    intro v u h
    cases v with
    | list l => exact absurd h (Array.not_mem_empty u)
    | object o =>
      obtain ⟨entry, hentry, rfl⟩ := h
      have hmem : entry ∈ [("a", Value.null), ("b", .boolean true)] ∨
          entry ∈ [("b", Value.boolean true), ("a", .null)] := by
        rcases o with ⟨_ | _ | i⟩
        · exact .inl hentry
        · exact .inr hentry
        · cases hentry
      grind
    | _ => exact h.elim
  have htame : s.Tame (.object ⟨0⟩) := by
    intro u _ hloop
    obtain ⟨v, -, hlast⟩ := Relation.TransGen.tail'_iff.1 hloop
    obtain ⟨w, hfirst, -⟩ := Relation.TransGen.head'_iff.1 hloop
    rcases hplain v u hlast with rfl | rfl <;> exact hfirst
  refine ⟨(hstates repeated hrepeated).1, hforward, ?_, fun n hn => ?_⟩
  · rw [hcomm]
    exact hforward
  · rw [hbound _ _ htame n hn]
    exact hforward

end BpScript
