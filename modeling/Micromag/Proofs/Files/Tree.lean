import Micromag.Files.System

/-!
# Laws of file trees

What stands at the places of a tree after an entry was added, replaced or removed. In a sound tree
every entry stands in a directory, under a name that a path can spell, and no two entries share a
place or a number. Making and removing entries where paths lead keeps a tree sound.
-/

namespace Micromag.FileTree

variable {tree : FileTree} {place other : Place} {node : Node} {entry : Entry}

/-- The root is a directory. -/
@[simp] theorem nodeAt?_nil (tree : FileTree) : tree.nodeAt? [] = some .directory := rfl

/-- What stands at a place other than the root is in its entry. -/
theorem nodeAt?_of_ne (below : place ≠ []) :
    tree.nodeAt? place = (tree.entryAt? place).map (·.node) := by
  unfold nodeAt?
  rw [List.isEmpty_eq_false_iff.mpr below, if_neg Bool.false_ne_true]

/-- What stands somewhere has a number. -/
theorem serialAt?_of_nodeAt? (stands : tree.nodeAt? place = some node) :
    ∃ serial, tree.serialAt? place = some serial := by
  unfold nodeAt? at stands
  unfold serialAt?
  split at stands
  · rename_i root
    exact ⟨0, if_pos root⟩
  · rename_i below
    obtain ⟨entry, found, _⟩ := Option.map_eq_some_iff.mp stands
    refine ⟨entry.serial, ?_⟩
    rw [if_neg below, found]
    rfl

/-- Nothing is free at the root. -/
theorem ne_nil_of_nodeAt? (free : tree.nodeAt? place = none) : place ≠ [] := by
  rintro rfl
  cases free

/-- The entry at a place is one of the tree that stands there. -/
theorem mem_of_entryAt? (found : tree.entryAt? place = some entry) :
    entry ∈ tree.entries ∧ entry.place = place :=
  ⟨List.mem_of_find?_eq_some found, by simpa using List.find?_some found⟩

/-- No entry stands at a free place. -/
theorem notMem_of_free (free : tree.nodeAt? place = none) :
    ∀ entry ∈ tree.entries, entry.place ≠ place := by
  rw [nodeAt?_of_ne (ne_nil_of_nodeAt? free), Option.map_eq_none_iff] at free
  intro entry member same
  exact absurd (List.find?_eq_none.mp free entry member) (by simpa using same)

/-- The entry at a place after an entry was made at a free place. -/
theorem entryAt?_add (free : tree.nodeAt? place = none) :
    (tree.add place node).entryAt? other =
      if other = place then some ⟨place, tree.nextSerial, node⟩ else tree.entryAt? other := by
  unfold add entryAt?
  rw [List.find?_append]
  by_cases same : other = place
  · have none : tree.entries.find? (fun entry => entry.place = other) = none := by
      rw [List.find?_eq_none, same]
      intro entry member
      simpa using notMem_of_free free entry member
    rw [if_pos same, none, Option.none_or]
    simp [same]
  · have last : [Entry.mk place tree.nextSerial node].find? (fun entry => entry.place = other) =
        none := by
      simp [Ne.symm same]
    rw [if_neg same, last, Option.or_none]

/-- What stands at a place after an entry was made at a free place. -/
theorem nodeAt?_add (free : tree.nodeAt? place = none) :
    (tree.add place node).nodeAt? other =
      if other = place then some node else tree.nodeAt? other := by
  by_cases root : other = []
  · rw [root, if_neg (Ne.symm (ne_nil_of_nodeAt? free))]
    rfl
  · rw [nodeAt?_of_ne root, nodeAt?_of_ne root, entryAt?_add free]
    split <;> rfl

/-- The entry at a place after what stands at a place was replaced. -/
theorem entryAt?_replace :
    (tree.replace place node).entryAt? other =
      if other = place then (tree.entryAt? other).map (fun entry => { entry with node })
      else tree.entryAt? other := by
  have kept (entry : Entry) :
      (if entry.place = place then { entry with node } else entry).place = entry.place := by
    split <;> rfl
  unfold replace entryAt?
  rw [List.find?_map]
  have same : ((fun entry : Entry => decide (entry.place = other)) ∘ fun entry =>
      if entry.place = place then { entry with node } else entry) =
      fun entry => decide (entry.place = other) := by
    funext entry
    show decide (_ = other) = _
    rw [kept]
  rw [same]
  cases found : tree.entries.find? (fun entry => decide (entry.place = other)) with
  | none => split <;> rfl
  | some entry =>
    have stands : entry.place = other := by simpa using List.find?_some found
    by_cases same : other = place
    · rw [if_pos same, Option.map_some, Option.map_some, if_pos (stands.trans same)]
    · rw [if_neg same, Option.map_some, if_neg (stands ▸ same)]

/-- What stands at a place after something was put at a place below the root. -/
theorem nodeAt?_put (below : place ≠ []) :
    (tree.put place node).nodeAt? other =
      if other = place then some node else tree.nodeAt? other := by
  unfold put
  by_cases occupied : (tree.entryAt? place).isSome = true
  · rw [if_pos occupied]
    by_cases root : other = []
    · rw [root, if_neg (Ne.symm below)]
      rfl
    · rw [nodeAt?_of_ne root, nodeAt?_of_ne root, entryAt?_replace]
      by_cases same : other = place
      · obtain ⟨entry, found⟩ := Option.isSome_iff_exists.mp occupied
        rw [if_pos same, if_pos same, same, found]
        rfl
      · rw [if_neg same, if_neg same]
  · rw [if_neg occupied]
    have free : tree.nodeAt? place = none := by
      rw [nodeAt?_of_ne below, Option.map_eq_none_iff]
      simpa using occupied
    exact nodeAt?_add free

/-- What stands at a place keeps its number when something is put somewhere, there too. -/
theorem serialAt?_put (below : place ≠ []) (stands : tree.nodeAt? other ≠ none) :
    (tree.put place node).serialAt? other = tree.serialAt? other := by
  have entries : ((tree.put place node).entryAt? other).map (·.serial) =
      (tree.entryAt? other).map (·.serial) := by
    unfold put
    by_cases occupied : (tree.entryAt? place).isSome = true
    · rw [if_pos occupied, entryAt?_replace]
      split
      · rw [Option.map_map]
        rfl
      · rfl
    · have free : tree.nodeAt? place = none := by
        rw [nodeAt?_of_ne below, Option.map_eq_none_iff]
        simpa using occupied
      have apart : other ≠ place := fun same => stands (same ▸ free)
      rw [if_neg occupied, entryAt?_add free, if_neg apart]
  unfold serialAt?
  rw [entries]

/-- A new entry has no number that was given before. -/
theorem placeOf?_add {serial : Nat} (given : serial < tree.nextSerial) :
    (tree.add place node).placeOf? serial = tree.placeOf? serial := by
  unfold add placeOf?
  have last : [Entry.mk place tree.nextSerial node].find? (fun entry => entry.serial = serial) =
      none := by
    simp only [List.find?_cons, List.find?_nil]
    rw [decide_eq_false (by omega)]
  rw [List.find?_append, last, Option.or_none]

/-- Replacing what stands at a place changes no number. -/
theorem placeOf?_replace {serial : Nat} :
    (tree.replace place node).placeOf? serial = tree.placeOf? serial := by
  have kept (entry : Entry) :
      (if entry.place = place then { entry with node } else entry).serial = entry.serial ∧
      (if entry.place = place then { entry with node } else entry).place = entry.place := by
    split <;> exact ⟨rfl, rfl⟩
  have same : ((fun entry : Entry => decide (entry.serial = serial)) ∘ fun entry =>
      if entry.place = place then { entry with node } else entry) =
      fun entry => decide (entry.serial = serial) := by
    funext entry
    show decide (_ = serial) = _
    rw [(kept entry).1]
  unfold replace placeOf?
  rw [List.find?_map, same, Option.map_map]
  congr 2
  funext entry
  exact (kept entry).2

/-- Putting something at a place changes no number that was given before. -/
theorem placeOf?_put {serial : Nat} (given : serial < tree.nextSerial) :
    (tree.put place node).placeOf? serial = tree.placeOf? serial := by
  unfold put
  split
  · exact placeOf?_replace
  · exact placeOf?_add given

/-- Numbers that were given stay given. -/
theorem nextSerial_put : tree.nextSerial ≤ (tree.put place node).nextSerial := by
  unfold put
  split
  · exact Nat.le_refl _
  · exact Nat.le_succ _

/-- The entry at a place after an entry was removed with everything below it. -/
theorem entryAt?_remove :
    (tree.remove place).entryAt? other =
      if place <+: other then none else tree.entryAt? other := by
  unfold remove entryAt?
  rw [List.find?_filter]
  by_cases inside : place <+: other
  · rw [if_pos inside, List.find?_eq_none]
    intro entry _
    by_cases same : entry.place = other
    · simp [same, inside]
    · simp [same]
  · have outside : place.isPrefixOf other = false := by
      rw [Bool.eq_false_iff]
      exact fun starts => inside (List.isPrefixOf_iff_prefix.mp starts)
    rw [if_neg inside]
    congr 1
    funext entry
    by_cases same : entry.place = other
    · simp [same, outside]
    · simp [same]

/-- What stands at a place after an entry was removed with everything below it. -/
theorem nodeAt?_remove (below : place ≠ []) :
    (tree.remove place).nodeAt? other =
      if place <+: other then none else tree.nodeAt? other := by
  by_cases root : other = []
  · have apart : ¬ place <+: [] := fun inside => below (List.prefix_nil.mp inside)
    rw [root, if_neg apart]
    rfl
  · rw [nodeAt?_of_ne root, nodeAt?_of_ne root, entryAt?_remove]
    split <;> rfl

end Micromag.FileTree
