/-!
# Maps in key order

Subregions, region maps, attributes and document objects are finite maps whose entries are listed in
the order of their keys, by code points. The order is part of the type, so two maps with the same
entries are equal.
-/

namespace Micromag

/-- A finite map from text, its entries in strictly ascending order of their keys. -/
structure Keyed (α : Type) where
  /-- The entries in order. -/
  entries : List (String × α)
  /-- Keys ascend strictly, so none occurs twice. -/
  ascending : entries.Pairwise (fun a b => a.1 < b.1) := by simp

namespace Keyed

variable {α β : Type}

/-- The map without entries. -/
def empty : Keyed α := ⟨[], .nil⟩

instance : Inhabited (Keyed α) := ⟨empty⟩

/-- Entries with one key set: replaced in its place, or put where the order wants it. -/
def insertEntry (key : String) (value : α) : List (String × α) → List (String × α)
  | [] => [(key, value)]
  | (k, v) :: rest =>
    if key < k then (key, value) :: (k, v) :: rest
    else if key = k then (key, value) :: rest
    else (k, v) :: insertEntry key value rest

/-- The keys after setting one key are that key and the keys before. -/
theorem mem_insertEntry {key : String} {value : α} {entries : List (String × α)}
    {entry : String × α} (h : entry ∈ insertEntry key value entries) :
    entry.1 = key ∨ entry ∈ entries := by
  induction entries with
  | nil => simp [insertEntry] at h; simp [h]
  | cons head rest ih =>
    obtain ⟨k, v⟩ := head
    simp only [insertEntry] at h
    split at h
    · simp only [List.mem_cons] at h ⊢
      rcases h with h | h | h <;> simp [h]
    · split at h
      · simp only [List.mem_cons] at h ⊢
        rcases h with h | h <;> simp [h]
      · simp only [List.mem_cons] at h ⊢
        rcases h with h | h
        · simp [h]
        · rcases ih h with h | h <;> simp [h]

/-- Setting a key keeps the entries in order. -/
theorem ascending_insertEntry {key : String} {value : α} {entries : List (String × α)}
    (h : entries.Pairwise (fun a b => a.1 < b.1)) :
    (insertEntry key value entries).Pairwise (fun a b => a.1 < b.1) := by
  induction entries with
  | nil => simp [insertEntry]
  | cons head rest ih =>
    obtain ⟨k, v⟩ := head
    have ⟨first, others⟩ := List.pairwise_cons.mp h
    simp only [insertEntry]
    split
    · rename_i below
      refine List.pairwise_cons.mpr ⟨fun entry member => ?_, h⟩
      rcases List.mem_cons.mp member with same | member
      · subst same; exact below
      · exact String.lt_trans below (first entry member)
    · rename_i notBelow
      split
      · rename_i same
        subst same
        exact List.pairwise_cons.mpr ⟨fun entry member => first entry member, others⟩
      · rename_i different
        refine List.pairwise_cons.mpr ⟨fun entry member => ?_, ih others⟩
        rcases mem_insertEntry member with same | member
        · rw [same]
          exact Std.lt_of_le_of_ne notBelow (Ne.symm different)
        · exact first entry member

/-- Set one key. -/
def insert (map : Keyed α) (key : String) (value : α) : Keyed α :=
  ⟨insertEntry key value map.entries, ascending_insertEntry map.ascending⟩

/-- The value at a key. -/
def get? (map : Keyed α) (key : String) : Option α := map.entries.lookup key

/-- Whether a key has a value. -/
def contains (map : Keyed α) (key : String) : Bool := (map.get? key).isSome

/-- The keys in order. -/
def keys (map : Keyed α) : List String := map.entries.map (·.1)

/-- Whether the map has no entries. -/
def isEmpty (map : Keyed α) : Bool := map.entries.isEmpty

/-- The map of a list of settings, later ones winning. -/
def ofList (settings : List (String × α)) : Keyed α :=
  settings.foldl (fun map setting => map.insert setting.1 setting.2) empty

/-- The map with every value changed by a function of key and value. -/
def mapValues (map : Keyed α) (f : String → α → β) : Keyed β :=
  ⟨map.entries.map fun entry => (entry.1, f entry.1 entry.2),
    List.pairwise_map.mpr map.ascending⟩

/-- Two maps with the same entries are equal. -/
@[ext] theorem ext {left right : Keyed α} (h : left.entries = right.entries) : left = right := by
  cases left; cases right; simp_all

end Keyed

end Micromag
