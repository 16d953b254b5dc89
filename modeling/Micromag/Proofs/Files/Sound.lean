import Mathlib.Data.List.Induction
import Mathlib.Data.List.Nodup
import Micromag.Proofs.Files.Walk

/-!
# Sound trees

In a sound tree every entry stands in a directory, under a name that a path can spell, and no two
entries share a place or a number. Writing a file, making a directory and removing an entry where a
path leads keep a tree sound.
-/

namespace Micromag

/-- Whether a name can stand in a directory. -/
structure Path.Plain (name : String) : Prop where
  /-- It is one part of a path. -/
  solid : Path.Solid name
  /-- It goes into the directory. -/
  enters : FileSystem.Enters name

namespace FileTree

/-- Whether a tree is one that operations on files can make. -/
structure Sound (tree : FileTree) : Prop where
  /-- No two entries stand at one place. -/
  places : (tree.entries.map (·.place)).Nodup
  /-- No two entries have one number. -/
  serials : (tree.entries.map (·.serial)).Nodup
  /-- The next number is not that of the root. -/
  next : 0 < tree.nextSerial
  /-- Numbers are given in order, from one on. -/
  numbered : ∀ entry ∈ tree.entries, 0 < entry.serial ∧ entry.serial < tree.nextSerial
  /-- Every entry stands in a directory, under a name that a path can spell. -/
  rooted : ∀ entry ∈ tree.entries, ∃ parent name, entry.place = parent ++ [name] ∧
    tree.nodeAt? parent = some .directory ∧ Path.Plain name

variable {tree : FileTree} {place other above : Place} {node : Node} {entry : Entry}
  {name : String} {serial : Nat}

namespace Sound

/-- The empty tree is sound. -/
theorem empty : Sound {} := ⟨.nil, .nil, by decide, nofun, nofun⟩

/-- An entry is found by its number. -/
theorem placeOf?_eq (sound : tree.Sound) (member : entry ∈ tree.entries) :
    tree.placeOf? entry.serial = some entry.place := by
  have positive := (sound.numbered entry member).1
  unfold placeOf?
  rw [if_neg (by omega)]
  cases found : tree.entries.find? (fun other => decide (other.serial = entry.serial)) with
  | none => exact absurd (List.find?_eq_none.mp found entry member) (by simp)
  | some first =>
    have inside := List.mem_of_find?_eq_some found
    have same : first.serial = entry.serial := by simpa using List.find?_some found
    rw [List.inj_on_of_nodup_map sound.serials inside member same]
    rfl

/-- The number of a place leads back to it. -/
theorem placeOf?_of_serialAt? (sound : tree.Sound) (numbered : tree.serialAt? place = some serial) :
    tree.placeOf? serial = some place := by
  unfold serialAt? at numbered
  split at numbered
  · rename_i root
    rw [← Option.some.inj numbered, List.isEmpty_iff.mp root]
    rfl
  · obtain ⟨entry, found, rfl⟩ := Option.map_eq_some_iff.mp numbered
    obtain ⟨member, same⟩ := mem_of_entryAt? found
    rw [← same]
    exact sound.placeOf?_eq member

/-- What stands somewhere stands in a directory, under a name that a path can spell. -/
theorem parent (sound : tree.Sound) (stands : tree.nodeAt? (above ++ [name]) = some node) :
    tree.nodeAt? above = some .directory ∧ Path.Plain name := by
  rw [nodeAt?_of_ne (List.concat_ne_nil _ _)] at stands
  obtain ⟨entry, found, _⟩ := Option.map_eq_some_iff.mp stands
  obtain ⟨member, same⟩ := mem_of_entryAt? found
  obtain ⟨front, last, split, directory, plain⟩ := sound.rooted entry member
  obtain ⟨rfl, names⟩ := List.append_inj' (split.symm.trans same) rfl
  obtain rfl := List.singleton_inj.mp names
  exact ⟨directory, plain⟩

/-- Above anything there are directories only. -/
theorem directory_above (sound : tree.Sound) {rest : Place} (below : rest ≠ [])
    (stands : tree.nodeAt? (place ++ rest) = some node) : tree.nodeAt? place = some .directory := by
  induction rest using List.reverseRecOn generalizing node with
  | nil => exact absurd rfl below
  | append_singleton front name ih =>
    rw [← List.append_assoc] at stands
    have directory := (sound.parent stands).1
    by_cases last : front = []
    · rwa [last, List.append_nil] at directory
    · exact ih last directory

/-- Nothing stands below a free place. -/
theorem free_below (sound : tree.Sound) (free : tree.nodeAt? place = none)
    (inside : place <+: other) : tree.nodeAt? other = none := by
  obtain ⟨rest, rfl⟩ := inside
  by_cases same : rest = []
  · rwa [same, List.append_nil]
  · cases stands : tree.nodeAt? (place ++ rest) with
    | none => rfl
    | some node =>
      rw [sound.directory_above same stands] at free
      cases free

/-- The parent of a directory is a directory. -/
theorem dropLast (sound : tree.Sound) (stands : tree.nodeAt? place = some .directory) :
    tree.nodeAt? place.dropLast = some .directory := by
  induction place using List.reverseRecOn with
  | nil => rfl
  | append_singleton front name _ =>
    rw [List.dropLast_concat]
    exact (sound.parent stands).1

/-- Something may be made at a free place in a directory. -/
theorem add (sound : tree.Sound) (stands : tree.nodeAt? above = some .directory)
    (plain : Path.Plain name) (free : tree.nodeAt? (above ++ [name]) = none) :
    (tree.add (above ++ [name]) node).Sound where
  places := by
    show (List.map Entry.place (tree.entries ++ [_])).Nodup
    rw [List.map_append, List.map_singleton]
    refine List.Nodup.append sound.places (List.nodup_singleton _) fun _ first second => ?_
    obtain ⟨entry, member, rfl⟩ := List.mem_map.mp first
    exact notMem_of_free free entry member (List.mem_singleton.mp second)
  serials := by
    show (List.map Entry.serial (tree.entries ++ [_])).Nodup
    rw [List.map_append, List.map_singleton]
    refine List.Nodup.append sound.serials (List.nodup_singleton _) fun _ first second => ?_
    obtain ⟨entry, member, rfl⟩ := List.mem_map.mp first
    have same : entry.serial = tree.nextSerial := List.mem_singleton.mp second
    have before := (sound.numbered entry member).2
    omega
  next := Nat.succ_pos _
  numbered := by
    intro entry member
    show 0 < entry.serial ∧ entry.serial < tree.nextSerial + 1
    rcases List.mem_append.mp member with member | member
    · have both := sound.numbered entry member
      omega
    · rw [List.mem_singleton.mp member]
      exact ⟨sound.next, Nat.lt_succ_self _⟩
  rooted := by
    have kept (place : Place) (directory : tree.nodeAt? place = some .directory) :
        (tree.add (above ++ [name]) node).nodeAt? place = some .directory := by
      have other : place ≠ above ++ [name] := by
        rintro rfl
        rw [free] at directory
        cases directory
      rw [nodeAt?_add free, if_neg other, directory]
    intro entry member
    rcases List.mem_append.mp member with member | member
    · obtain ⟨front, last, split, directory, named⟩ := sound.rooted entry member
      exact ⟨front, last, split, kept front directory, named⟩
    · rw [List.mem_singleton.mp member]
      exact ⟨above, name, rfl, kept above stands, plain⟩

/-- A file may be replaced. -/
theorem replace (sound : tree.Sound) (noDirectory : tree.nodeAt? place ≠ some .directory) :
    (tree.replace place node).Sound where
  places := by
    have same : (tree.replace place node).entries.map (·.place) = tree.entries.map (·.place) := by
      unfold FileTree.replace
      rw [List.map_map]
      refine List.map_congr_left fun entry _ => ?_
      rw [Function.comp_apply]
      split <;> rfl
    rw [same]
    exact sound.places
  serials := by
    have same : (tree.replace place node).entries.map (·.serial) =
        tree.entries.map (·.serial) := by
      unfold FileTree.replace
      rw [List.map_map]
      refine List.map_congr_left fun entry _ => ?_
      rw [Function.comp_apply]
      split <;> rfl
    rw [same]
    exact sound.serials
  next := sound.next
  numbered := by
    intro entry member
    obtain ⟨old, inside, rfl⟩ := List.mem_map.mp member
    have both := sound.numbered old inside
    split <;> exact both
  rooted := by
    intro entry member
    obtain ⟨old, inside, rfl⟩ := List.mem_map.mp member
    obtain ⟨front, last, parts, directory, named⟩ := sound.rooted old inside
    have kept : (tree.replace place node).nodeAt? front = some .directory := by
      by_cases root : front = []
      · rw [root]
        rfl
      · have other : front ≠ place := fun same => noDirectory (same ▸ directory)
        rw [nodeAt?_of_ne root, entryAt?_replace, if_neg other, ← nodeAt?_of_ne root, directory]
    refine ⟨front, last, ?_, kept, named⟩
    split
    · exact parts
    · exact parts

/-- A file may be written where none is, in a directory, or in place of another. -/
theorem put (sound : tree.Sound) (stands : tree.nodeAt? above = some .directory)
    (plain : Path.Plain name) (ends : tree.nodeAt? (above ++ [name]) ≠ some .directory) :
    (tree.put (above ++ [name]) node).Sound := by
  unfold FileTree.put
  by_cases occupied : (tree.entryAt? (above ++ [name])).isSome = true
  · rw [if_pos occupied]
    exact sound.replace ends
  · rw [if_neg occupied]
    refine sound.add stands plain ?_
    rw [nodeAt?_of_ne (List.concat_ne_nil _ _), Option.map_eq_none_iff]
    simpa using occupied

/-- An entry may be removed with everything below it. -/
theorem remove (sound : tree.Sound) (below : place ≠ []) : (tree.remove place).Sound where
  places := sound.places.sublist (List.filter_sublist.map _)
  serials := sound.serials.sublist (List.filter_sublist.map _)
  next := sound.next
  numbered := fun entry member => sound.numbered entry (List.mem_filter.mp member).1
  rooted := by
    intro entry member
    obtain ⟨inside, kept⟩ := List.mem_filter.mp member
    obtain ⟨front, last, split, directory, named⟩ := sound.rooted entry inside
    have outside : ¬ place <+: front := by
      intro starts
      have within : place <+: entry.place := by
        rw [split]
        exact starts.trans (List.prefix_append _ _)
      rw [List.isPrefixOf_iff_prefix.mpr within] at kept
      cases kept
    refine ⟨front, last, split, ?_, named⟩
    rw [nodeAt?_remove below, if_neg outside, directory]

end Sound

end FileTree

namespace FileSystem

/-- Whether the tree of a file system is sound and its working directory is a directory, unless it
is gone. -/
structure Sound (system : FileSystem) : Prop where
  /-- The tree is sound. -/
  tree : system.tree.Sound
  /-- The number of the working directory was given. -/
  given : system.workingDir < system.tree.nextSerial
  /-- The working directory is a directory. -/
  working : ∀ place, system.workingPlace? = some place →
    system.tree.nodeAt? place = some .directory

/-- The file system of an empty tree is sound. -/
theorem Sound.empty : Sound {} where
  tree := .empty
  given := by decide
  working place root := by
    have root : some [] = some place := root
    rw [← Option.some.inj root]
    rfl

variable {tree : FileTree} {last : Bool} {links : Nat} {place : Place} {names : List String}
  {spot : Spot}

/-- In a sound tree steps lead to a directory or to a name in a directory. -/
theorem Leads.ends (leads : Leads tree last links place names spot) (sound : tree.Sound)
    (solid : ∀ name ∈ names, Path.Solid name) (starts : tree.nodeAt? place = some .directory) :
    spot.node = some .directory ∨
      ∃ above name, spot.place = above ++ [name] ∧ tree.nodeAt? above = some .directory ∧
        Path.Plain name ∧ ∀ target, spot.node = some (.link target) → last = true := by
  induction leads with
  | arrive => exact .inl starts
  | stay _ ih => exact ih (fun name member => solid name (List.mem_cons_of_mem _ member)) starts
  | back _ ih =>
    exact ih (fun name member => solid name (List.mem_cons_of_mem _ member)) (sound.dropLast starts)
  | @reach _ place name enters ends =>
    refine .inr ⟨place, name, rfl, starts, ⟨solid name List.mem_cons_self, enters⟩, ?_⟩
    exact fun target stands => absurd stands ((FileTree.guide?_eq_none.mp ends).2 target)
  | enter _ stands _ ih =>
    exact ih (fun name member => solid name (List.mem_cons_of_mem _ member)) stands
  | @mean _ place name _ enters _ meant =>
    exact .inr ⟨place, name, rfl, starts, ⟨solid name List.mem_cons_self, enters⟩,
      fun _ _ => meant⟩
  | @through _ place _ target rest _ _ _ _ _ ih =>
    refine ih (fun name member => ?_) ?_
    · rcases List.mem_append.mp member with member | member
      · exact solid_of_mem_steps member
      · exact solid name (List.mem_cons_of_mem _ member)
    · split
      · rfl
      · exact starts

end FileSystem

end Micromag
