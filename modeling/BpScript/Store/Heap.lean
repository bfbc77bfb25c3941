/-!
# Heaps

A heap holds cells that are shared by index.  Cells are added at the end and never removed, so an
index stays valid for good.

* `alloc`, `get?`, `modify` — adding, reading and changing cells.
* `get?_alloc`, `get?_modify` — what they do.
* `get?_alloc_of_lt`, `get?_modify_of_ne`, `lt_size_alloc_iff` — what they leave alone.
-/

namespace BpScript

/-- Cells, in the order they were added. -/
structure Heap (α : Type) where
  cells : Array α
  deriving Inhabited

namespace Heap

variable {α : Type}

/-- The heap without cells. -/
def empty : Heap α := ⟨#[]⟩

/-- The number of cells. -/
def size (h : Heap α) : Nat := h.cells.size

/-- The contents of a cell. -/
def get? (h : Heap α) (i : Nat) : Option α := h.cells[i]?

/-- Adds a cell and gives its index. -/
def alloc (h : Heap α) (a : α) : Nat × Heap α := (h.cells.size, ⟨h.cells.push a⟩)

/-- Changes the contents of a cell. -/
def modify (h : Heap α) (i : Nat) (f : α → α) : Heap α := ⟨h.cells.modify i f⟩

/-- The new cell holds what it was given, and the others what they held. -/
theorem get?_alloc (h : Heap α) (a : α) (i : Nat) :
    (h.alloc a).2.get? i = if i = h.size then some a else h.get? i := by
  simp only [alloc, get?, size, Array.getElem?_push]
  rfl

/-- The changed cell holds the new contents, and the others what they held. -/
theorem get?_modify (h : Heap α) (i j : Nat) (f : α → α) :
    (h.modify i f).get? j = if i = j then (h.get? j).map f else h.get? j := by
  simp only [modify, get?, Array.getElem?_modify]

@[simp] theorem size_alloc (h : Heap α) (a : α) : (h.alloc a).2.size = h.size + 1 := by
  simp [alloc, size]

@[simp] theorem size_modify (h : Heap α) (i : Nat) (f : α → α) : (h.modify i f).size = h.size := by
  simp [modify, size]

/-- What was there stays when a cell is added. -/
theorem get?_alloc_of_lt {h : Heap α} {a : α} {i : Nat} (hi : i < h.size) :
    (h.alloc a).2.get? i = h.get? i := by
  rw [get?_alloc, if_neg (Nat.ne_of_lt hi)]

theorem get?_alloc_self (h : Heap α) (a : α) : (h.alloc a).2.get? h.size = some a := by
  rw [get?_alloc, if_pos rfl]

theorem get?_modify_self (h : Heap α) (i : Nat) (f : α → α) :
    (h.modify i f).get? i = (h.get? i).map f := by
  rw [get?_modify, if_pos rfl]

theorem get?_modify_of_ne {h : Heap α} {f : α → α} {i j : Nat} (hij : i ≠ j) :
    (h.modify i f).get? j = h.get? j := by
  rw [get?_modify, if_neg hij]

/-- A new cell is behind all that were there. -/
theorem lt_size_alloc_iff {h : Heap α} {a : α} {i : Nat} :
    i < (h.alloc a).2.size ↔ i < h.size ∨ i = h.size := by
  rw [size_alloc]
  omega

theorem get?_eq_none {h : Heap α} {i : Nat} (hi : h.size ≤ i) : h.get? i = none :=
  Array.getElem?_eq_none hi

theorem exists_get?_eq_some {h : Heap α} {i : Nat} (hi : i < h.size) : ∃ a, h.get? i = some a :=
  ⟨h.cells[i], Array.getElem?_eq_getElem hi⟩

end Heap

end BpScript
