import Micromag.Proofs.Files.Renumbering
import Micromag.Proofs.Files.Room

/-!
# Changes below a place

What changes the files in a directory only leaves everything beside it as it is: the same entries in
the same order with the same numbers. If the directory was new and is removed afterwards, all is as
it was, but some numbers are used up.
-/

namespace Micromag

namespace FileTree

/-- The entries that are not below a place. The entry at the place is one of them. -/
def beside (tree : FileTree) (place : Place) : List Entry :=
  tree.entries.filter fun entry => !(place.isPrefixOf entry.place && entry.place ≠ place)

variable {tree later : FileTree} {place other : Place} {node : Node} {entry : Entry}

/-- An entry is beside a place if it is not below it. -/
theorem mem_beside : entry ∈ tree.beside place ↔
    entry ∈ tree.entries ∧ (place <+: entry.place → entry.place = place) := by
  unfold beside
  rw [List.mem_filter]
  refine and_congr_right fun _ => ?_
  simp only [Bool.not_eq_true', Bool.and_eq_false_imp, List.isPrefixOf_iff_prefix,
    decide_eq_false_iff_not, not_not]

/-- What stands beside a place is found among the entries there. -/
theorem find?_beside (outside : place <+: other → other = place) :
    (tree.beside place).find? (fun entry => entry.place = other) = tree.entryAt? other := by
  unfold beside entryAt?
  rw [List.find?_filter]
  congr 1
  funext entry
  by_cases same : entry.place = other
  · by_cases inside : place <+: other
    · simp [same, outside inside]
    · have other : place.isPrefixOf other = false := by
        rw [Bool.eq_false_iff]
        exact fun starts => inside (List.isPrefixOf_iff_prefix.mp starts)
      simp [same, other]
  · simp [same]

/-- Where the entries beside a place are the same, the same stands beside it. -/
theorem entryAt?_of_beside (same : later.beside place = tree.beside place)
    (outside : place <+: other → other = place) : later.entryAt? other = tree.entryAt? other := by
  rw [← find?_beside outside, same, find?_beside outside]

/-- So the same nodes are found beside it. -/
theorem nodeAt?_of_beside (same : later.beside place = tree.beside place)
    (outside : place <+: other → other = place) : later.nodeAt? other = tree.nodeAt? other := by
  unfold nodeAt?
  rw [entryAt?_of_beside same outside]

/-- So are the same numbers. -/
theorem serialAt?_of_beside (same : later.beside place = tree.beside place)
    (outside : place <+: other → other = place) : later.serialAt? other = tree.serialAt? other := by
  unfold serialAt?
  rw [entryAt?_of_beside same outside]

/-- Putting something below a place changes nothing beside it. -/
theorem beside_put (inside : place <+: other) (below : other ≠ place) :
    (tree.put other node).beside place = tree.beside place := by
  have gone : (!(place.isPrefixOf other && other ≠ place)) = false := by
    simp [List.isPrefixOf_iff_prefix.mpr inside, below]
  unfold put
  split
  · unfold beside replace
    rw [List.filter_map]
    have kept : ((fun entry : Entry => !(place.isPrefixOf entry.place && entry.place ≠ place)) ∘
        fun entry : Entry => if entry.place = other then { entry with node } else entry) =
        fun entry => !(place.isPrefixOf entry.place && entry.place ≠ place) := by
      funext entry
      by_cases same : entry.place = other <;> simp [same]
    rw [kept]
    refine (List.map_congr_left fun entry member => ?_).trans (List.map_id _)
    have apart : entry.place ≠ other := by
      intro same
      have shown := (List.mem_filter.mp member).2
      rw [same, gone] at shown
      cases shown
    rw [if_neg apart]
    rfl
  · unfold beside add
    rw [List.filter_append, List.filter_cons_of_neg (by simpa using gone)]
    exact List.append_nil _

/-- What stays when a directory is removed stands beside it. -/
theorem remove_of_beside (same : later.beside place = tree.beside place) :
    (later.remove place).entries = (tree.remove place).entries := by
  have split (tree : FileTree) : (tree.remove place).entries =
      (tree.beside place).filter fun entry => !place.isPrefixOf entry.place := by
    unfold remove beside
    rw [List.filter_filter]
    refine List.filter_congr fun entry _ => ?_
    cases place.isPrefixOf entry.place <;> rfl
  rw [split, split, same]

/-- When a new directory is removed again, the entries are those of before. -/
theorem Sound.remove_add (sound : tree.Sound) (free : tree.nodeAt? place = none) :
    ((tree.add place node).remove place).entries = tree.entries := by
  unfold FileTree.remove FileTree.add
  dsimp only
  rw [List.filter_append, List.filter_cons_of_neg (by simp), List.filter_nil, List.append_nil]
  refine List.filter_eq_self.mpr fun entry member => ?_
  rw [Bool.not_eq_true', Bool.eq_false_iff]
  intro starts
  have nothing := sound.free_below free (List.isPrefixOf_iff_prefix.mp starts)
  exact absurd rfl (notMem_of_free nothing entry member)

/-- The number of the working directory is that of its place. -/
theorem Sound.serialAt?_of_placeOf? (sound : tree.Sound) {serial : Nat}
    (found : tree.placeOf? serial = some place) : tree.serialAt? place = some serial := by
  unfold placeOf? at found
  by_cases root : serial = 0
  · rw [if_pos root] at found
    rw [← Option.some.inj found, root]
    rfl
  · rw [if_neg root] at found
    obtain ⟨entry, inside, rfl⟩ := Option.map_eq_some_iff.mp found
    have member := List.mem_of_find?_eq_some inside
    have number : entry.serial = serial := by simpa using List.find?_some inside
    obtain ⟨parent, name, split, -⟩ := sound.rooted entry member
    unfold serialAt?
    rw [if_neg (by simp [split])]
    have other : tree.entryAt? entry.place = some entry := by
      cases at_ : tree.entryAt? entry.place with
      | none => exact absurd (List.find?_eq_none.mp at_ entry member) (by simp)
      | some first =>
        obtain ⟨inside, same⟩ := mem_of_entryAt? at_
        rw [List.inj_on_of_nodup_map sound.places inside member same]
    rw [other, Option.map_some, number]

end FileTree

namespace FileSystem

open FileTree

/-- Files that changed below a place only. -/
structure Within (place : Place) (files after : FileSystem) : Prop where
  /-- Everything beside the place is as it was. -/
  beside : after.tree.beside place = files.tree.beside place
  /-- Numbers that were given stay given. -/
  next : files.tree.nextSerial ≤ after.tree.nextSerial
  /-- The same files beside it are programs. -/
  marks : ∀ entry ∈ files.tree.beside place,
    entry.serial ∈ after.runnable ↔ entry.serial ∈ files.runnable
  /-- No other numbers are marked than those that were given. -/
  marked : (∀ serial ∈ files.runnable, serial < files.tree.nextSerial) →
    ∀ serial ∈ after.runnable, serial < after.tree.nextSerial

/-- Files as they were, but for numbers that were given in between. -/
structure Restored (files after : FileSystem) : Prop where
  /-- The same entries are there. -/
  entries : after.tree.entries = files.tree.entries
  /-- Numbers that were given stay given. -/
  next : files.tree.nextSerial ≤ after.tree.nextSerial
  /-- The working directory is the same. -/
  workingDir : after.workingDir = files.workingDir
  /-- The same files are programs. -/
  marks : ∀ entry ∈ files.tree.entries,
    entry.serial ∈ after.runnable ↔ entry.serial ∈ files.runnable
  /-- No other numbers are marked than those that were given. -/
  marked : (∀ serial ∈ files.runnable, serial < files.tree.nextSerial) →
    ∀ serial ∈ after.runnable, serial < after.tree.nextSerial

variable {files middle after : FileSystem} {place : Place} {path name : String}

namespace Within

/-- Files that did not change. -/
theorem refl (place : Place) (files : FileSystem) : Within place files files :=
  ⟨rfl, le_rfl, fun _ _ => Iff.rfl, id⟩

/-- Changes one after the other. -/
theorem trans (first : Within place files middle) (second : Within place middle after) :
    Within place files after where
  beside := second.beside.trans first.beside
  next := first.next.trans second.next
  marks entry member :=
    (second.marks entry (first.beside ▸ member)).trans (first.marks entry member)
  marked given := second.marked (first.marked given)

/-- Something is put below the place. -/
theorem put {other : Place} {node : Node} (inside : place <+: other) (below : other ≠ place) :
    Within place files { files with tree := files.tree.put other node } :=
  ⟨beside_put inside below, nextSerial_put, fun _ _ => Iff.rfl,
    fun given serial mark => (given serial mark).trans_le nextSerial_put⟩

end Within

namespace Restored

/-- Files as they are. -/
theorem refl (files : FileSystem) : Restored files files :=
  ⟨rfl, le_rfl, rfl, fun _ _ => Iff.rfl, id⟩

/-- Files that are as they were are like those of before: the numbers that are still to be given are
moved by those that were used up. -/
theorem alike (restored : Restored files after) (regular : files.Regular) :
    Alike (moved files.tree.nextSerial (after.tree.nextSerial - files.tree.nextSerial)) files
      after where
  regular := regular
  numbers := renumbers_moved regular.tree.next _
  tree := by
    have same : files.tree.entries.map (Entry.renumbered (moved files.tree.nextSerial
        (after.tree.nextSerial - files.tree.nextSerial))) = files.tree.entries := by
      refine (List.map_congr_left fun entry member => ?_).trans (List.map_id _)
      unfold Entry.renumbered
      rw [moved_of_lt (regular.tree.numbered entry member).2]
      rfl
    have last : moved files.tree.nextSerial (after.tree.nextSerial - files.tree.nextSerial)
        files.tree.nextSerial = after.tree.nextSerial := by
      have next := restored.next
      unfold moved
      rw [if_neg (lt_irrefl _)]
      omega
    unfold renumbered
    rw [same, last, ← restored.entries]
  workingDir := by
    rw [moved_of_lt regular.given]
    exact restored.workingDir
  marks entry member := by
    rw [moved_of_lt (regular.tree.numbered entry member).2]
    exact restored.marks entry member
  marked := restored.marked regular.marked

/-- The same is listed for each directory. -/
theorem list_eq (restored : Restored files after) (regular : files.Regular) (path : String) :
    after.list path = files.list path := by
  unfold FileSystem.list FileTree.children
  rw [(restored.alike regular).directoryOf, restored.entries]

end Restored

/-! ## A new directory -/

/-- Files after a directory was made at a free place, with changes below it only. -/
structure Passing (place : Place) (files after : FileSystem) : Prop where
  /-- The files before are sound. -/
  sound : files.Sound
  /-- Nothing was there. -/
  free : files.tree.nodeAt? place = none
  /-- The changes are below it. -/
  within : Within place { files with tree := files.tree.add place .directory } after
  /-- The working directory is the same. -/
  workingDir : after.workingDir = files.workingDir

namespace Passing

variable {other : Place} {last : Bool}

/-- What stood somewhere stands there. -/
theorem stays (passing : Passing place files after) {node : Node}
    (stands : files.tree.nodeAt? other = some node) : after.tree.nodeAt? other = some node := by
  have outside : ¬place <+: other := fun inside => by
    rw [passing.sound.tree.free_below passing.free inside] at stands
    cases stands
  have apart : other ≠ place := fun same => outside (same ▸ List.prefix_refl _)
  rw [nodeAt?_of_beside passing.within.beside fun inside => absurd inside outside,
    nodeAt?_add passing.free, if_neg apart, stands]

/-- The directory is there. -/
theorem stands (passing : Passing place files after) :
    after.tree.nodeAt? place = some .directory := by
  rw [nodeAt?_of_beside passing.within.beside fun _ => rfl, nodeAt?_add passing.free, if_pos rfl]

/-- Directories and links are where they were. -/
theorem extends_ (passing : Passing place files after) : Extends files.tree after.tree :=
  extends_of_stays fun _ _ => passing.stays

/-- The working directory stands where it did. -/
theorem serialAt?_work (passing : Passing place files after) {work : Place}
    (working : files.workingPlace? = some work) :
    after.tree.serialAt? work = some files.workingDir := by
  have stands := passing.sound.working work working
  have outside : ¬place <+: work := fun inside => by
    rw [passing.sound.tree.free_below passing.free inside] at stands
    cases stands
  have apart : work ≠ place := fun same => outside (same ▸ List.prefix_refl _)
  rw [serialAt?_of_beside passing.within.beside fun inside => absurd inside outside]
  unfold serialAt?
  rw [entryAt?_add passing.free, if_neg apart]
  exact passing.sound.tree.serialAt?_of_placeOf? working

/-- When the directory is removed, all is as it was. -/
theorem removeTree (passing : Passing place files after)
    (free : files.locate path true = .ok ⟨place, none⟩) (starts : Path.isAbsolute path = true) :
    ∃ left, after.removeTree path = .ok left ∧ Restored files left := by
  have noLink (target : String) : after.tree.nodeAt? place ≠ some (.link target) := by
    rw [passing.stands]
    exact nofun
  have located := locate_extends passing.extends_ (by rw [startOf_absolute starts,
    startOf_absolute starts]) (fun _ => noLink) (.inl rfl) free
  dsimp only at located
  rw [passing.stands] at located
  refine ⟨{ after with tree := after.tree.remove place }, ?_, ?_, ?_, passing.workingDir, ?_, ?_⟩
  · unfold FileSystem.removeTree
    rw [located]
    rfl
  · exact (remove_of_beside passing.within.beside).trans
      (passing.sound.tree.remove_add passing.free)
  · exact (Nat.le_succ _).trans passing.within.next
  · intro entry member
    refine passing.within.marks entry (mem_beside.mpr ⟨List.mem_append_left _ member, ?_⟩)
    intro inside
    have nothing := passing.sound.tree.free_below passing.free inside
    exact absurd rfl (notMem_of_free nothing entry member)
  · exact fun given => passing.within.marked fun serial mark =>
      (given serial mark).trans (Nat.lt_succ_self _)

end Passing

end FileSystem

end Micromag
