import Mathlib.Order.Monotone.Basic
import Mathlib.Tactic.SplitIfs
import Micromag.Proofs.Files.Children
import Micromag.Proofs.Files.Directories

/-!
# Files with other numbers

The numbers of entries tell in which order these were made, and nothing else. If all numbers are
changed so that their order stays, and so that the numbers still to be given follow one another as
before, then paths lead where they led, and writing a file or making a directory comes to the same
up to the numbers.
-/

namespace Micromag

/-- Whether numbers can be changed by a map when those from `next` on are still to be given. -/
structure Renumbers (f : Nat → Nat) (next : Nat) : Prop where
  /-- The root keeps its number. -/
  root : f 0 = 0
  /-- The order of the numbers stays. -/
  mono : StrictMono f
  /-- The numbers to be given follow one another as before. -/
  shift : ∀ k, f (next + k) = f next + k

namespace Renumbers

variable {f g : Nat → Nat} {next : Nat}

/-- All numbers may stay. -/
theorem refl (next : Nat) : Renumbers id next := ⟨rfl, strictMono_id, fun _ => rfl⟩

/-- Numbers may be changed twice. -/
theorem trans (first : Renumbers f next) (second : Renumbers g (f next)) :
    Renumbers (g ∘ f) next where
  root := (congrArg g first.root).trans second.root
  mono := second.mono.comp first.mono
  shift k := (congrArg g (first.shift k)).trans (second.shift k)

/-- A map still fits when more numbers were given. -/
theorem later (numbers : Renumbers f next) {more : Nat} (grows : next ≤ more) :
    Renumbers f more := by
  refine ⟨numbers.root, numbers.mono, fun k => ?_⟩
  obtain ⟨given, rfl⟩ := Nat.exists_eq_add_of_le grows
  rw [Nat.add_assoc, numbers.shift, numbers.shift, Nat.add_assoc]

/-- Only the root has the number of the root. -/
theorem eq_zero_iff (numbers : Renumbers f next) {serial : Nat} : f serial = 0 ↔ serial = 0 := by
  constructor
  · exact fun same => numbers.mono.injective (same.trans numbers.root.symm)
  · rintro rfl
    exact numbers.root

end Renumbers

/-- Numbers from one on are moved by an amount. -/
def moved (next amount serial : Nat) : Nat := if serial < next then serial else serial + amount

/-- Smaller numbers stay. -/
theorem moved_of_lt {next amount serial : Nat} (less : serial < next) :
    moved next amount serial = serial := if_pos less

/-- The numbers that are still to be given can be moved. -/
theorem renumbers_moved {next : Nat} (positive : 0 < next) (amount : Nat) :
    Renumbers (moved next amount) next where
  root := moved_of_lt positive
  mono := by
    intro first second less
    unfold moved
    split_ifs <;> omega
  shift k := by
    unfold moved
    rw [if_neg (by omega), if_neg (lt_irrefl _)]
    omega

/-- An entry with another number. -/
def Entry.renumbered (f : Nat → Nat) (entry : Entry) : Entry :=
  { entry with serial := f entry.serial }

namespace FileTree

/-- A tree with other numbers. -/
def renumbered (f : Nat → Nat) (tree : FileTree) : FileTree :=
  ⟨tree.entries.map (Entry.renumbered f), f tree.nextSerial⟩

variable {f : Nat → Nat} {tree : FileTree} {place : Place} {node : Node} {serial : Nat}

/-- At each place stands the entry with the other number. -/
theorem entryAt?_renumbered :
    (tree.renumbered f).entryAt? place = (tree.entryAt? place).map (Entry.renumbered f) := by
  unfold renumbered entryAt?
  rw [List.find?_map]
  rfl

/-- At each place stands what stood there. -/
@[simp] theorem nodeAt?_renumbered :
    (tree.renumbered f).nodeAt? place = tree.nodeAt? place := by
  unfold nodeAt?
  rw [entryAt?_renumbered, Option.map_map]
  rfl

/-- The number of a place is the other number. -/
theorem serialAt?_renumbered (root : f 0 = 0) :
    (tree.renumbered f).serialAt? place = (tree.serialAt? place).map f := by
  unfold serialAt?
  rw [entryAt?_renumbered, Option.map_map]
  split
  · rw [Option.map_some, root]
  · rw [Option.map_map]
    rfl

/-- The other number leads to the same place. -/
theorem placeOf?_renumbered {next : Nat} (numbers : Renumbers f next) :
    (tree.renumbered f).placeOf? (f serial) = tree.placeOf? serial := by
  have same : ((fun entry : Entry => decide (entry.serial = f serial)) ∘ Entry.renumbered f) =
      fun entry => decide (entry.serial = serial) := by
    funext entry
    exact decide_eq_decide.mpr numbers.mono.injective.eq_iff
  unfold placeOf? renumbered
  rw [List.find?_map, same, Option.map_map]
  by_cases root : serial = 0
  · rw [if_pos root, if_pos (numbers.eq_zero_iff.mpr root)]
  · rw [if_neg root, if_neg fun zero => root (numbers.eq_zero_iff.mp zero)]
    rfl

/-- The same names are in each directory. -/
theorem children_renumbered :
    ((tree.renumbered f).children place).map (·.1) = (tree.children place).map (·.1) := by
  rw [children_names, children_names]
  unfold renumbered
  rw [List.map_map]
  rfl

/-- An entry is added with the next of the other numbers. -/
theorem renumbered_add (numbers : Renumbers f tree.nextSerial) :
    (tree.add place node).renumbered f = (tree.renumbered f).add place node := by
  unfold renumbered add
  rw [List.map_append, numbers.shift 1]
  rfl

/-- What is replaced keeps the other number. -/
theorem renumbered_replace :
    (tree.replace place node).renumbered f = (tree.renumbered f).replace place node := by
  unfold renumbered replace
  dsimp only
  rw [List.map_map, List.map_map]
  congr 2
  funext entry
  by_cases same : entry.place = place <;> simp [Entry.renumbered, same]

/-- Something is put at a place with the other number or the next of these. -/
theorem renumbered_put (numbers : Renumbers f tree.nextSerial) :
    (tree.put place node).renumbered f = (tree.renumbered f).put place node := by
  unfold put
  rw [entryAt?_renumbered, Option.isSome_map]
  split
  · exact renumbered_replace
  · exact renumbered_add numbers

/-- The numbers after something was put at a place are those of before and perhaps the next. -/
theorem serial_of_mem_put {entry : Entry} (member : entry ∈ (tree.put place node).entries) :
    (∃ old ∈ tree.entries, old.serial = entry.serial) ∨ entry.serial = tree.nextSerial := by
  unfold put at member
  split at member
  · obtain ⟨old, inside, rfl⟩ := List.mem_map.mp member
    refine .inl ⟨old, inside, ?_⟩
    split <;> rfl
  · rcases List.mem_append.mp member with inside | last
    · exact .inl ⟨entry, inside, rfl⟩
    · rw [List.mem_singleton.mp last]
      exact .inr rfl

/-- A tree with other numbers is as sound. -/
theorem Sound.renumbered (sound : tree.Sound) (numbers : Renumbers f tree.nextSerial) :
    (tree.renumbered f).Sound where
  places := by
    show ((tree.entries.map (Entry.renumbered f)).map (·.place)).Nodup
    rw [List.map_map]
    exact sound.places
  serials := by
    show ((tree.entries.map (Entry.renumbered f)).map (·.serial)).Nodup
    have serials := sound.serials.map numbers.mono.injective
    rw [List.map_map] at serials ⊢
    exact serials
  next := by
    have less := numbers.mono sound.next
    rwa [numbers.root] at less
  numbered entry member := by
    obtain ⟨old, inside, rfl⟩ := List.mem_map.mp member
    obtain ⟨positive, given⟩ := sound.numbered old inside
    have less := numbers.mono positive
    rw [numbers.root] at less
    exact ⟨less, numbers.mono given⟩
  rooted entry member := by
    obtain ⟨old, inside, rfl⟩ := List.mem_map.mp member
    obtain ⟨parent, name, split, directory, plain⟩ := sound.rooted old inside
    exact ⟨parent, name, split, nodeAt?_renumbered.trans directory, plain⟩

end FileTree

namespace FileSystem

/-! ## Where paths lead -/

section Congruence

variable {tree later : FileTree} {last : Bool} {files others : FileSystem} {path : String}

/-- Following steps depends on what stands at the places. -/
theorem follow_congr (nodes : ∀ place, later.nodeAt? place = tree.nodeAt? place)
    (resume : Place → List String → Except FileFault Spot) (place : Place) (names : List String) :
    follow later last resume place names = follow tree last resume place names := by
  induction names generalizing place with
  | nil => simp only [follow, nodes]
  | cons name rest ih => simp only [follow, nodes, ih]

/-- So does following them through links. -/
theorem walk_congr (nodes : ∀ place, later.nodeAt? place = tree.nodeAt? place) (links : Nat) :
    walk later last links = walk tree last links := by
  induction links with
  | zero =>
    funext place names
    exact follow_congr nodes _ place names
  | succ links ih =>
    funext place names
    unfold walk
    rw [ih]
    exact follow_congr nodes _ place names

/-- A path leads to the same in files with the same at all places and one working directory. -/
theorem locate_congr (nodes : ∀ place, others.tree.nodeAt? place = files.tree.nodeAt? place)
    (working : others.workingPlace? = files.workingPlace?) (last : Bool) :
    others.locate path last = files.locate path last := by
  unfold locate
  rw [startOf_congr working, walk_congr nodes]

end Congruence

/-- Files that are sound and in which only numbers that were given are marked as programs. -/
structure Regular (files : FileSystem) : Prop extends Sound files where
  /-- Marks are on numbers that were given. -/
  marked : ∀ serial ∈ files.runnable, serial < files.tree.nextSerial

/-- The empty tree is regular. -/
theorem Regular.empty : Regular {} := ⟨.empty, nofun⟩

/-- Files that differ in the numbers of their entries only. -/
structure Alike (f : Nat → Nat) (files others : FileSystem) : Prop where
  /-- The files are regular. -/
  regular : files.Regular
  /-- The numbers can be changed. -/
  numbers : Renumbers f files.tree.nextSerial
  /-- The trees are the same up to the numbers. -/
  tree : others.tree = files.tree.renumbered f
  /-- The working directories have corresponding numbers. -/
  workingDir : others.workingDir = f files.workingDir
  /-- The same entries are marked as programs. -/
  marks : ∀ entry ∈ files.tree.entries,
    f entry.serial ∈ others.runnable ↔ entry.serial ∈ files.runnable
  /-- Marks are on numbers that were given. -/
  marked : ∀ serial ∈ others.runnable, serial < others.tree.nextSerial

/-- Two results of a change: the same refusal, or files that are alike. -/
inductive AlikeResults (f : Nat → Nat) :
    Except FileFault FileSystem → Except FileFault FileSystem → Prop
  /-- The same refusal. -/
  | error (cause : FileFault) : AlikeResults f (.error cause) (.error cause)
  /-- Files that are alike. -/
  | ok {files others : FileSystem} (alike : Alike f files others) :
      AlikeResults f (.ok files) (.ok others)

namespace Alike

variable {f g : Nat → Nat} {files others last : FileSystem} {path : String}

/-- Regular files are like themselves. -/
theorem refl (regular : files.Regular) : Alike id files files where
  regular := regular
  numbers := .refl _
  tree := by
    unfold FileTree.renumbered Entry.renumbered
    simp
  workingDir := rfl
  marks _ _ := Iff.rfl
  marked := regular.marked

/-- Files that are like others are like those that these are like. -/
theorem trans (first : Alike f files others) (second : Alike g others last) :
    Alike (g ∘ f) files last where
  regular := first.regular
  numbers := by
    refine first.numbers.trans ?_
    have numbers := second.numbers
    rwa [first.tree] at numbers
  tree := by
    rw [second.tree, first.tree]
    unfold FileTree.renumbered
    dsimp only
    rw [List.map_map]
    rfl
  workingDir := second.workingDir.trans (congrArg g first.workingDir)
  marks entry member := by
    have inside : entry.renumbered f ∈ others.tree.entries := by
      rw [first.tree]
      exact List.mem_map_of_mem member
    exact (second.marks _ inside).trans (first.marks entry member)
  marked := second.marked

/-- The same stands at each place. -/
theorem nodeAt? (alike : Alike f files others) (place : Place) :
    others.tree.nodeAt? place = files.tree.nodeAt? place := by
  rw [alike.tree, FileTree.nodeAt?_renumbered]

/-- The working directory is at the same place. -/
theorem workingPlace? (alike : Alike f files others) :
    others.workingPlace? = files.workingPlace? := by
  unfold FileSystem.workingPlace?
  rw [alike.tree, alike.workingDir, FileTree.placeOf?_renumbered alike.numbers]

/-- The others are regular too. -/
theorem regular_others (alike : Alike f files others) : others.Regular where
  tree := by
    rw [alike.tree]
    exact alike.regular.tree.renumbered alike.numbers
  given := by
    rw [alike.tree, alike.workingDir]
    exact alike.numbers.mono alike.regular.given
  working place found := by
    rw [alike.workingPlace?] at found
    rw [alike.nodeAt?]
    exact alike.regular.working place found
  marked := alike.marked

/-- Paths lead to the same. -/
theorem locate (alike : Alike f files others) (path : String) (last : Bool) :
    others.locate path last = files.locate path last :=
  locate_congr alike.nodeAt? alike.workingPlace? last

/-- The same is found. -/
theorem nodeOf (alike : Alike f files others) (path : String) :
    others.nodeOf path = files.nodeOf path := by
  unfold FileSystem.nodeOf
  rw [alike.locate]

/-- The same directories are found. -/
theorem directoryOf (alike : Alike f files others) (path : String) :
    others.directoryOf path = files.directoryOf path := by
  unfold FileSystem.directoryOf
  rw [alike.nodeOf]

/-- The same paths lead to directories. -/
theorem isDirectory (alike : Alike f files others) (path : String) :
    others.isDirectory path = files.isDirectory path := by
  unfold FileSystem.isDirectory
  rw [alike.directoryOf]

/-- The same paths lead to files. -/
theorem isFile (alike : Alike f files others) (path : String) :
    others.isFile path = files.isFile path := by
  unfold FileSystem.isFile
  rw [alike.nodeOf]

/-- The files have the same bytes. -/
theorem contentOf (alike : Alike f files others) (path : String) :
    others.contentOf path = files.contentOf path := by
  unfold FileSystem.contentOf
  rw [alike.nodeOf]

/-- The path of the working directory is the same. -/
theorem currentPath (alike : Alike f files others) : others.currentPath = files.currentPath := by
  unfold FileSystem.currentPath
  rw [alike.workingPlace?]

/-- What is found has the other number. -/
theorem serialOf? (alike : Alike f files others) (path : String) :
    others.serialOf? path = (files.serialOf? path).map f := by
  unfold FileSystem.serialOf?
  rw [alike.nodeOf]
  cases files.nodeOf path with
  | error cause => rfl
  | ok found =>
    dsimp only
    rw [alike.tree, FileTree.serialAt?_renumbered alike.numbers.root]

/-- The same names are listed. -/
theorem names (alike : Alike f files others) (path : String) :
    (others.list path).map (·.map (·.1)) = (files.list path).map (·.map (·.1)) := by
  unfold FileSystem.list
  rw [alike.directoryOf]
  cases files.directoryOf path with
  | error cause => rfl
  | ok place =>
    rw [alike.tree]
    exact congrArg Except.ok FileTree.children_renumbered

/-! ## Changes -/

/-- Files stay alike when their trees change to trees that are the same up to the numbers, if
entries keep their numbers and new ones get new numbers. -/
theorem withTree (alike : Alike f files others) {tree : FileTree}
    (sound : FileSystem.Sound { files with tree })
    (grows : files.tree.nextSerial ≤ tree.nextSerial)
    (origin : ∀ entry ∈ tree.entries,
      (∃ old ∈ files.tree.entries, old.serial = entry.serial) ∨
        entry.serial = files.tree.nextSerial) :
    Alike f { files with tree } { others with tree := tree.renumbered f } where
  regular := ⟨sound, fun serial mark => (alike.regular.marked serial mark).trans_le grows⟩
  numbers := alike.numbers.later grows
  tree := rfl
  workingDir := alike.workingDir
  marks entry member := by
    rcases origin entry member with ⟨old, inside, same⟩ | new
    · rw [← same]
      exact alike.marks old inside
    · -- a number that was not given is marked nowhere
      constructor
      · intro mark
        have less := alike.marked _ mark
        rw [new, alike.tree] at less
        exact absurd less (lt_irrefl _)
      · intro mark
        have less := alike.regular.marked _ mark
        rw [new] at less
        exact absurd less (lt_irrefl _)
  marked serial mark := by
    have less := alike.marked serial mark
    rw [alike.tree] at less
    exact less.trans_le (alike.numbers.mono.monotone grows)

/-- A file is written to both or refused by both. -/
theorem writeFile (alike : Alike f files others) (path : String) (content : List UInt8) :
    AlikeResults f (files.writeFile path content) (others.writeFile path content) := by
  have located : others.locateFile path = files.locateFile path := by
    unfold locateFile
    rw [alike.locate, alike.locate]
  cases found : files.locateFile path with
  | error cause =>
    have refused (system : FileSystem) (same : system.locateFile path = .error cause) :
        system.writeFile path content = .error cause := by
      unfold FileSystem.writeFile
      rw [same]
      rfl
    rw [refused files found, refused others (located.trans found)]
    exact .error cause
  | ok spot =>
    by_cases directory : spot.node = some .directory
    · have refused (system : FileSystem) (same : system.locateFile path = .ok spot) :
          system.writeFile path content = .error .isDirectory := by
        unfold FileSystem.writeFile
        rw [same]
        dsimp only [bind, Except.bind]
        rw [directory]
      rw [refused files found, refused others (located.trans found)]
      exact .error .isDirectory
    · have written (system : FileSystem) (same : system.locateFile path = .ok spot) :
          system.writeFile path content =
            .ok { system with tree := system.tree.put spot.place (.file content) } := by
        unfold FileSystem.writeFile
        rw [same]
        dsimp only [bind, Except.bind]
        split
        · rename_i stands
          exact absurd stands directory
        · rfl
      have kept := written files found
      rw [kept, written others (located.trans found)]
      refine .ok ?_
      rw [alike.tree, ← FileTree.renumbered_put alike.numbers]
      exact alike.withTree (alike.regular.writeFile kept).1 FileTree.nextSerial_put
        fun _ => FileTree.serial_of_mem_put

/-- A directory is made in both or refused by both. -/
theorem makeDirectory (alike : Alike f files others) (path : String) :
    AlikeResults f (files.makeDirectory path) (others.makeDirectory path) := by
  have located : others.locateNew path = files.locateNew path := by
    unfold locateNew
    rw [alike.locate]
  unfold FileSystem.makeDirectory
  rw [located]
  cases found : files.locateNew path with
  | error cause => exact .error cause
  | ok place =>
    have made : files.makeDirectory path =
        .ok { files with tree := files.tree.add place .directory } := by
      unfold FileSystem.makeDirectory
      rw [found]
      rfl
    refine .ok ?_
    rw [alike.tree, ← FileTree.renumbered_add alike.numbers]
    refine alike.withTree (alike.regular.grown_makeDirectory made).sound (Nat.le_succ _)
      fun entry member => ?_
    rcases List.mem_append.mp member with inside | last
    · exact .inl ⟨entry, inside, rfl⟩
    · rw [List.mem_singleton.mp last]
      exact .inr rfl

/-- Directories are made in both, or none is made in both, as far as they can be made. -/
theorem ensureDirectory (alike : Alike f files others) (path : String) :
    (others.ensureDirectory path).2 = (files.ensureDirectory path).2 ∧
      Alike f (files.ensureDirectory path).1 (others.ensureDirectory path).1 := by
  have made := alike.makeDirectory path
  unfold FileSystem.ensureDirectory
  rw [alike.isDirectory]
  generalize files.makeDirectory path = result, others.makeDirectory path = other at made
  cases made with
  | error cause => exact ⟨rfl, alike⟩
  | ok made => exact ⟨rfl, made⟩

/-- Directories one after the other. -/
theorem ensureEach (alike : Alike f files others) (paths : List String) :
    (others.ensureEach paths).2 = (files.ensureEach paths).2 ∧
      Alike f (files.ensureEach paths).1 (others.ensureEach paths).1 := by
  induction paths generalizing files others with
  | nil => exact ⟨rfl, alike⟩
  | cons path rest ih =>
    obtain ⟨same, made⟩ := alike.ensureDirectory path
    unfold FileSystem.ensureEach
    rcases one : files.ensureDirectory path with ⟨grown, result⟩
    rcases other : others.ensureDirectory path with ⟨raised, ended⟩
    rw [one, other] at same made
    obtain rfl : ended = result := same
    cases ended with
    | error cause => exact ⟨rfl, made⟩
    | ok _ => exact ih made

/-- A directory with those on the way to it. -/
theorem makeDirectories (alike : Alike f files others) (path : String) :
    (others.makeDirectories path).2 = (files.makeDirectories path).2 ∧
      Alike f (files.makeDirectories path).1 (others.makeDirectories path).1 := by
  unfold FileSystem.makeDirectories
  cases checkPath path with
  | error cause => exact ⟨rfl, alike⟩
  | ok _ => exact alike.ensureEach (ancestors path)

/-- The working directory changes in both or in none. -/
theorem changeDirectory (alike : Alike f files others) (path : String) :
    AlikeResults f (files.changeDirectory path) (others.changeDirectory path) := by
  have leading : others.directoryOf path = files.directoryOf path := alike.directoryOf path
  cases leads : files.directoryOf path with
  | error cause =>
    have refused (system : FileSystem) (same : system.directoryOf path = .error cause) :
        system.changeDirectory path = .error cause := by
      unfold FileSystem.changeDirectory
      rw [same]
      rfl
    rw [refused files leads, refused others (leading.trans leads)]
    exact .error cause
  | ok place =>
    have stands : files.tree.nodeAt? place = some .directory :=
      (node_of_locate (directoryOf_ok.mp leads)).symm
    obtain ⟨serial, numbered⟩ := FileTree.serialAt?_of_nodeAt? stands
    have other : others.tree.serialAt? place = some (f serial) := by
      rw [alike.tree, FileTree.serialAt?_renumbered alike.numbers.root, numbered, Option.map_some]
    rw [changeDirectory_ok.mpr ⟨place, serial, leads, numbered, rfl⟩,
      changeDirectory_ok.mpr ⟨place, f serial, leading.trans leads, other, rfl⟩]
    have sound := (sound_enter alike.regular.tree stands numbered).1
    exact .ok ⟨⟨sound, alike.regular.marked⟩, alike.numbers, alike.tree, rfl, alike.marks,
      alike.marked⟩

end Alike

end FileSystem

end Micromag
