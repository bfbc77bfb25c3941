/-!
# Tables

A table maps keys to values and keeps the keys in the order they were first given a value.

* `get?`, `set`, `erase` — reading, writing and removing.  Writing to a key that is there keeps its
  place; a new key goes to the end.
* `get?_set`, `keys_set`, `get?_erase` — what writing and removing do.
* `nodup_keys_set`, `nodup_keys_erase`, `nodup_keys_ofEntries` — no key gets a second entry.
* `mem_of_get?`, `mem_of_mem_set`, `mem_of_mem_erase`, `mem_of_mem_ofEntries` — entries come from
  nowhere else.
* `get?_ofEntries` — of several entries with one key the last one counts.
-/

namespace BpScript

/-- Keys with their values, in order of first insertion. -/
abbrev Table (κ α : Type) := List (κ × α)

namespace Table

variable {κ α : Type} [DecidableEq κ]

/-- The value of a key. -/
def get? (key : κ) : Table κ α → Option α
  | [] => none
  | (k, value) :: rest => if k = key then some value else get? key rest

/-- Gives a key a value. -/
def set (key : κ) (value : α) : Table κ α → Table κ α
  | [] => [(key, value)]
  | (k, old) :: rest => if k = key then (k, value) :: rest else (k, old) :: set key value rest

/-- Removes a key. -/
def erase (key : κ) : Table κ α → Table κ α
  | [] => []
  | (k, value) :: rest => if k = key then rest else (k, value) :: erase key rest

/-- Whether a key has a value. -/
def has (key : κ) (table : Table κ α) : Bool :=
  (get? key table).isSome

/-- The keys, in order. -/
def keys (table : Table κ α) : List κ :=
  table.map (·.1)

/-- The values, in the order of their keys. -/
def values (table : Table κ α) : List α :=
  table.map (·.2)

/-- The table made by giving keys values one after the other. -/
def ofEntries (entries : List (κ × α)) : Table κ α :=
  entries.foldl (fun table entry => set entry.1 entry.2 table) []

/-- A written key has its new value, and every other key the value it had. -/
theorem get?_set (table : Table κ α) (key other : κ) (value : α) :
    get? other (set key value table) = if other = key then some value else get? other table := by
  induction table with
  | nil => grind [set, get?]
  | cons entry rest ih =>
    obtain ⟨k, old⟩ := entry
    grind [set, get?]

/-- Writing keeps the order of the keys: one that was there stays, a new one goes to the end. -/
theorem keys_set (table : Table κ α) (key : κ) (value : α) :
    keys (set key value table) = if key ∈ keys table then keys table else keys table ++ [key] := by
  induction table with
  | nil => rfl
  | cons entry rest ih =>
    obtain ⟨k, old⟩ := entry
    simp only [keys, set] at ih ⊢
    split <;> grind

/-- Writing gives no key a second entry. -/
theorem nodup_keys_set {table : Table κ α} (h : (keys table).Nodup) (key : κ) (value : α) :
    (keys (set key value table)).Nodup := by
  rw [keys_set]
  split
  · exact h
  · next hkey =>
    refine List.nodup_append.2 ⟨h, List.pairwise_singleton _ key, ?_⟩
    rintro k hk _ hkey' rfl
    exact hkey (List.mem_singleton.1 hkey' ▸ hk)

/-- Removing leaves the other keys in their order. -/
theorem keys_erase_sublist (table : Table κ α) (key : κ) :
    (keys (erase key table)).Sublist (keys table) := by
  induction table with
  | nil => exact .slnil
  | cons entry rest ih =>
    obtain ⟨k, value⟩ := entry
    simp only [keys, erase] at ih ⊢
    split
    · exact .cons k (.refl _)
    · exact .cons_cons k ih

theorem nodup_keys_erase {table : Table κ α} (h : (keys table).Nodup) (key : κ) :
    (keys (erase key table)).Nodup :=
  (keys_erase_sublist table key).nodup h

/-- A key without an entry has no value. -/
theorem get?_eq_none {table : Table κ α} {key : κ} (h : key ∉ keys table) :
    get? key table = none := by
  induction table with
  | nil => rfl
  | cons entry rest ih =>
    obtain ⟨k, value⟩ := entry
    simp only [keys, List.map_cons, List.mem_cons, not_or] at h
    rw [get?, if_neg (Ne.symm h.1)]
    exact ih h.2

/-- A removed key has no value, and every other key has the value it had. -/
theorem get?_erase {table : Table κ α} (h : (keys table).Nodup) (key other : κ) :
    get? other (erase key table) = if other = key then none else get? other table := by
  induction table with
  | nil => simp [erase, get?]
  | cons entry rest ih =>
    obtain ⟨k, value⟩ := entry
    obtain ⟨hk, hrest⟩ := List.nodup_cons.1 h
    rw [erase]
    by_cases hkey : k = key
    · subst hkey
      rw [if_pos rfl]
      by_cases hother : other = k
      · rw [if_pos hother, hother, get?_eq_none hk]
      · rw [if_neg hother, get?, if_neg (Ne.symm hother)]
    · rw [if_neg hkey, get?, get?, ih hrest]
      by_cases hother : k = other
      · rw [if_pos hother, if_pos hother, if_neg (hother ▸ hkey)]
      · rw [if_neg hother, if_neg hother]

/-- In a table that is made by writing, every key has one entry. -/
theorem nodup_keys_ofEntries (entries : List (κ × α)) : (keys (ofEntries entries)).Nodup := by
  have hfold : ∀ (entries : List (κ × α)) (table : Table κ α), (keys table).Nodup →
      (keys (entries.foldl (fun table entry => set entry.1 entry.2 table) table)).Nodup := by
    intro entries
    induction entries with
    | nil => exact fun table h => h
    | cons first rest ih => exact fun table h => ih _ (nodup_keys_set h first.1 first.2)
  exact hfold entries [] .nil

/-- What a key has is an entry. -/
theorem mem_of_get? {table : Table κ α} {key : κ} {value : α} (h : get? key table = some value) :
    (key, value) ∈ table := by
  induction table with
  | nil => cases h
  | cons entry rest ih =>
    obtain ⟨k, v⟩ := entry
    simp only [get?] at h
    split at h
    · next hk =>
      cases h
      rw [hk]
      exact List.mem_cons_self
    · exact List.mem_cons_of_mem _ (ih h)

/-- After writing, an entry is the written one or was there. -/
theorem mem_of_mem_set {table : Table κ α} {key : κ} {value : α} {entry : κ × α}
    (h : entry ∈ set key value table) : entry = (key, value) ∨ entry ∈ table := by
  induction table with
  | nil => exact .inl (List.mem_singleton.1 h)
  | cons first rest ih =>
    obtain ⟨k, v⟩ := first
    simp only [set] at h
    split at h
    · next hk =>
      rcases List.mem_cons.1 h with rfl | h
      · exact .inl (by rw [hk])
      · exact .inr (List.mem_cons_of_mem _ h)
    · rcases List.mem_cons.1 h with rfl | h
      · exact .inr List.mem_cons_self
      · exact (ih h).imp_right (List.mem_cons_of_mem _)

/-- Removing adds no entries. -/
theorem mem_of_mem_erase {table : Table κ α} {key : κ} {entry : κ × α}
    (h : entry ∈ erase key table) : entry ∈ table := by
  induction table with
  | nil => cases h
  | cons first rest ih =>
    obtain ⟨k, v⟩ := first
    simp only [erase] at h
    split at h
    · exact List.mem_cons_of_mem _ h
    · rcases List.mem_cons.1 h with rfl | h
      · exact List.mem_cons_self
      · exact List.mem_cons_of_mem _ (ih h)

/-- A table made from entries has no others. -/
theorem mem_of_mem_ofEntries {entries : List (κ × α)} {entry : κ × α}
    (h : entry ∈ ofEntries entries) : entry ∈ entries := by
  have hfold : ∀ (entries : List (κ × α)) (table : Table κ α),
      entry ∈ entries.foldl (fun table entry => set entry.1 entry.2 table) table →
        entry ∈ entries ∨ entry ∈ table := by
    intro entries
    induction entries with
    | nil => exact fun table h => .inr h
    | cons first rest ih =>
      intro table hmem
      rcases ih _ hmem with hrest | hset
      · exact .inl (List.mem_cons_of_mem _ hrest)
      · rcases mem_of_mem_set hset with rfl | htable
        · exact .inl List.mem_cons_self
        · exact .inr htable
  exact (hfold entries [] h).resolve_right List.not_mem_nil

/-- A key that no later entry has again keeps its value. -/
theorem get?_ofEntries {entries : List (κ × α)} {key : κ} {value : α} {i : Nat}
    (hi : entries[i]? = some (key, value))
    (hlast : key ∉ keys (entries.drop (i + 1))) : get? key (ofEntries entries) = some value := by
  have hfold : ∀ (later : List (κ × α)) (table : Table κ α), key ∉ keys later →
      get? key (later.foldl (fun table entry => set entry.1 entry.2 table) table) =
        get? key table := by
    intro later
    induction later with
    | nil => exact fun table _ => rfl
    | cons first rest ih =>
      intro table hkey
      simp only [keys, List.map_cons, List.mem_cons, not_or] at hkey
      rw [List.foldl_cons, ih _ hkey.2, get?_set, if_neg hkey.1]
  obtain ⟨hlt, hget⟩ := List.getElem?_eq_some_iff.1 hi
  have hsplit : entries = entries.take i ++ (key, value) :: entries.drop (i + 1) := by
    rw [← hget, ← List.drop_eq_getElem_cons, List.take_append_drop]
  rw [ofEntries, hsplit, List.foldl_append, List.foldl_cons, hfold _ _ hlast, get?_set, if_pos rfl]

end Table

end BpScript
