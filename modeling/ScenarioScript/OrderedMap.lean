/-!
# OrderedMap — finite maps that remember the order of their keys

An ordered map lists its entries in the order in which their keys first came in; no key comes twice.
A new value for a known key takes the place of the old one.

* `keys_insert` — where a key ends up;
* `get?_insert` — what a look-up finds afterwards;
* `ext` — a map is its list of entries.
-/

namespace ScenarioScript

/-- A finite map with its keys in order of arrival. -/
structure OrderedMap (κ α : Type) where
  entries : List (κ × α)
  /-- **No key comes twice.** -/
  nodup_keys : (entries.map Prod.fst).Nodup

namespace OrderedMap

variable {κ α : Type}

@[ext] theorem ext {m n : OrderedMap κ α} (h : m.entries = n.entries) : m = n := by
  cases m
  cases n
  simp_all

instance [DecidableEq κ] [DecidableEq α] : DecidableEq (OrderedMap κ α) := fun m n =>
  decidable_of_iff (m.entries = n.entries) ⟨ext, fun h => h ▸ rfl⟩

/-- The map without entries. -/
def empty : OrderedMap κ α := ⟨[], List.nodup_nil⟩

instance : Inhabited (OrderedMap κ α) := ⟨empty⟩

/-- The keys, in order of arrival. -/
def keys (m : OrderedMap κ α) : List κ := m.entries.map Prod.fst

@[simp] theorem entries_empty : (empty : OrderedMap κ α).entries = [] := rfl

@[simp] theorem keys_empty : (empty : OrderedMap κ α).keys = [] := rfl

variable [DecidableEq κ]

/-! ## Entries with a key -/

/-- The value beside the first entry with the key. -/
def valueAt? (k : κ) : List (κ × α) → Option α
  | [] => none
  | (key, value) :: rest => if key = k then some value else valueAt? k rest

/-- Put a value beside a key: in place of the old value, or as a new last entry. -/
def putEntry (k : κ) (a : α) : List (κ × α) → List (κ × α)
  | [] => [(k, a)]
  | (key, value) :: rest => if key = k then (k, a) :: rest else (key, value) :: putEntry k a rest

theorem map_fst_putEntry (k : κ) (a : α) (entries : List (κ × α)) :
    (putEntry k a entries).map Prod.fst =
      if k ∈ entries.map Prod.fst then entries.map Prod.fst else entries.map Prod.fst ++ [k] := by
  induction entries with
  | nil => simp [putEntry]
  | cons e rest ih =>
    obtain ⟨key, value⟩ := e
    by_cases h : key = k
    · simp [putEntry, h]
    · have h' : ¬ k = key := fun e => h e.symm
      by_cases hk : k ∈ rest.map Prod.fst <;> simp_all [putEntry]

/-- **A value beside a new key** comes last. -/
theorem putEntry_of_not_mem {k : κ} (a : α) {entries : List (κ × α)}
    (h : k ∉ entries.map Prod.fst) : putEntry k a entries = entries ++ [(k, a)] := by
  induction entries with
  | nil => rfl
  | cons e rest ih =>
    obtain ⟨hne, hrest⟩ := not_or.1 (mt List.mem_cons.2 h)
    simp [putEntry, Ne.symm hne, ih hrest]

theorem valueAt?_putEntry (k l : κ) (a : α) (entries : List (κ × α)) :
    valueAt? l (putEntry k a entries) = if k = l then some a else valueAt? l entries := by
  induction entries with
  | nil => simp [putEntry, valueAt?]
  | cons e rest ih =>
    obtain ⟨key, value⟩ := e
    by_cases h : key = k
    · subst h
      by_cases hl : key = l <;> simp [putEntry, valueAt?, hl]
    · by_cases hl : key = l
      · subst hl
        have : ¬ k = key := fun e => h e.symm
        simp [putEntry, valueAt?, h, this]
      · simp [putEntry, valueAt?, h, hl, ih]

theorem isSome_valueAt? (k : κ) (entries : List (κ × α)) :
    (valueAt? k entries).isSome = true ↔ k ∈ entries.map Prod.fst := by
  induction entries with
  | nil => simp [valueAt?]
  | cons e rest ih =>
    obtain ⟨key, value⟩ := e
    by_cases h : key = k
    · simp [valueAt?, h]
    · have h' : ¬ k = key := fun e => h e.symm
      simp only [valueAt?, h, if_false, ih, List.map_cons, List.mem_cons, h', false_or]

/-! ## The map operations -/

/-- The value beside a key. -/
def get? (m : OrderedMap κ α) (k : κ) : Option α := valueAt? k m.entries

/-- Put a value beside a key: in place of the old value, or as a new last entry. -/
def insert (m : OrderedMap κ α) (k : κ) (a : α) : OrderedMap κ α where
  entries := putEntry k a m.entries
  nodup_keys := by
    have := m.nodup_keys
    rw [map_fst_putEntry]
    split
    · exact this
    · next hk =>
      rw [List.nodup_append]
      exact ⟨this, by simp, fun x hx y hy => by rintro rfl; simp_all⟩

/-- Put in every entry of a second map, in that map's order. -/
def update (m n : OrderedMap κ α) : OrderedMap κ α :=
  n.entries.foldl (fun m e => m.insert e.1 e.2) m

/-- The map of a list of entries; of several entries with one key the last gives the value and the
first the place. -/
def ofList (entries : List (κ × α)) : OrderedMap κ α :=
  entries.foldl (fun m e => m.insert e.1 e.2) empty

/-- **Where a key ends up**: a known key keeps its place, a new one comes last. -/
theorem keys_insert (m : OrderedMap κ α) (k : κ) (a : α) :
    (m.insert k a).keys = if k ∈ m.keys then m.keys else m.keys ++ [k] :=
  map_fst_putEntry k a m.entries

@[simp] theorem mem_keys_insert (m : OrderedMap κ α) (k l : κ) (a : α) :
    l ∈ (m.insert k a).keys ↔ l = k ∨ l ∈ m.keys := by
  rw [keys_insert]
  split
  · next h =>
    constructor
    · exact Or.inr
    · rintro (rfl | hl)
      · exact h
      · exact hl
  · simp [or_comm]

/-- **What a look-up finds** after a value was put beside a key. -/
@[simp] theorem get?_insert (m : OrderedMap κ α) (k l : κ) (a : α) :
    (m.insert k a).get? l = if k = l then some a else m.get? l :=
  valueAt?_putEntry k l a m.entries

theorem isSome_get? (m : OrderedMap κ α) (k : κ) : (m.get? k).isSome = true ↔ k ∈ m.keys :=
  isSome_valueAt? k m.entries

end OrderedMap

end ScenarioScript
