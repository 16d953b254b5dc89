import Micromag.Proofs.Files.Additions

/-!
# What is removed

A path that ends in a name leads to an entry of the directory to which the rest of it leads, however
that is spelled. Where there are no links, removing what a path leads to takes away that entry and
what is below it, and nothing else; a removal that the host stops takes away a part of this.
-/

namespace Micromag

/-- Whether no entry of a tree is a link. -/
def FileTree.Linkless (tree : FileTree) : Prop :=
  ∀ entry ∈ tree.entries, ∀ target, entry.node ≠ .link target

namespace FileTree

variable {tree fewer : FileTree} {place : Place} {spares : Entry → Bool}

/-- No link stands anywhere in such a tree. -/
theorem Linkless.nodeAt? (linkless : tree.Linkless) (place : Place) (target : String) :
    tree.nodeAt? place ≠ some (.link target) := by
  intro stands
  by_cases root : place = []
  · rw [root] at stands
    cases stands
  · rw [nodeAt?_of_ne root] at stands
    obtain ⟨entry, found, link⟩ := Option.map_eq_some_iff.mp stands
    exact linkless entry (mem_of_entryAt? found).1 target link

/-- What stands somewhere in a part of the entries of a sound tree stands there in the tree. -/
theorem Sound.nodeAt?_of_sublist (sound : tree.Sound)
    (part : fewer.entries.Sublist tree.entries) {node : Node}
    (stands : fewer.nodeAt? place = some node) : tree.nodeAt? place = some node := by
  by_cases root : place = []
  · rw [root] at stands ⊢
    exact stands
  rw [nodeAt?_of_ne root] at stands ⊢
  obtain ⟨entry, found, rfl⟩ := Option.map_eq_some_iff.mp stands
  obtain ⟨member, rfl⟩ := mem_of_entryAt? found
  have inside := part.subset member
  cases whole : tree.entryAt? entry.place with
  | none => exact absurd (List.find?_eq_none.mp whole entry inside) (by simp)
  | some other =>
    obtain ⟨among, same⟩ := mem_of_entryAt? whole
    rw [List.inj_on_of_nodup_map sound.places among inside same]
    rfl

end FileTree

namespace FileSystem

open FileTree

variable {tree : FileTree} {files after : FileSystem} {last : Bool} {links : Nat}
  {place goal base : Place} {path name : String} {names rest front : List String} {spot : Spot}

/-! ## Where a path with one more name leads -/

/-- A single point leads nowhere else. -/
theorem walk_point :
    walk tree last links place ("." :: rest) = walk tree last links place rest := by
  obtain ⟨resume, same⟩ := walk_eq_follow tree last links
  rw [same, follow, if_pos rfl]

/-- Two points lead back. -/
theorem walk_back :
    walk tree last links place (".." :: rest) = walk tree last links place.dropLast rest := by
  obtain ⟨resume, same⟩ := walk_eq_follow tree last links
  rw [same, follow, if_neg (by decide), if_pos rfl]

/-- The name of a directory leads into it. -/
theorem walk_into (enters : Enters name)
    (stands : tree.nodeAt? (place ++ [name]) = some .directory) :
    walk tree last links place (name :: rest) = walk tree last links (place ++ [name]) rest := by
  obtain ⟨resume, same⟩ := walk_eq_follow tree last links
  rw [same, follow_cons enters, stands]

/-- The names of a directory lead to it from one above. -/
theorem walk_down (sound : tree.Sound)
    (stands : tree.nodeAt? (base ++ place) = some .directory) :
    walk tree last links base (place ++ rest) = walk tree last links (base ++ place) rest := by
  induction place generalizing base with
  | nil => rw [List.append_nil, List.nil_append]
  | cons name more ih =>
    have split : base ++ name :: more = base ++ [name] ++ more := by simp
    rw [split] at stands ⊢
    have above : tree.nodeAt? (base ++ [name]) = some .directory := by
      by_cases none : more = []
      · rwa [none, List.append_nil] at stands
      · exact sound.directory_above none stands
    rw [List.cons_append, walk_into (sound.parent above).2.enters above, ih stands]

/-- Where there are no links, steps to a directory that start with a name lead into another one. -/
theorem directory_of_walk (linkless : tree.Linkless) (notHere : name ≠ ".") (notUp : name ≠ "..")
    (leads : walk tree false links place (name :: rest) = .ok ⟨goal, some .directory⟩) :
    Enters name ∧ tree.nodeAt? (place ++ [name]) = some .directory := by
  have enters := enters_of_walk notHere notUp leads
  refine ⟨enters, ?_⟩
  obtain ⟨resume, same⟩ := walk_eq_follow tree false links
  rw [same, follow_cons enters] at leads
  cases stands : tree.nodeAt? (place ++ [name]) with
  | none =>
    rw [stands] at leads
    dsimp only at leads
    split at leads
    · cases leads
    · cases leads
  | some node =>
    cases node with
    | directory => rfl
    | link target => exact absurd stands (linkless.nodeAt? _ target)
    | file content =>
      rw [stands] at leads
      dsimp only at leads
      split at leads
      · cases leads
      · cases leads

/-- There single points may be left out on the way to a directory. -/
theorem walk_telling (linkless : tree.Linkless) :
    walk tree false links place (names.filter (· ≠ ".")) = .ok ⟨goal, some .directory⟩ ↔
      walk tree false links place names = .ok ⟨goal, some .directory⟩ := by
  induction names generalizing place with
  | nil => exact Iff.rfl
  | cons name rest ih =>
    by_cases here : name = "."
    · rw [List.filter_cons_of_neg (by simpa using here), here, walk_point]
      exact ih
    rw [List.filter_cons_of_pos (by simpa using here)]
    by_cases up : name = ".."
    · rw [up, walk_back, walk_back]
      exact ih
    constructor
    · intro leads
      obtain ⟨enters, stands⟩ := directory_of_walk linkless here up leads
      rw [walk_into enters stands] at leads ⊢
      exact ih.mp leads
    · intro leads
      obtain ⟨enters, stands⟩ := directory_of_walk linkless here up leads
      rw [walk_into enters stands] at leads ⊢
      exact ih.mpr leads

/-- Steps that end in a name lead to an entry of the directory to which the others lead, where no
link is followed. -/
theorem walk_concat (sound : tree.Sound) (starts : tree.nodeAt? place = some .directory)
    (notHere : name ≠ ".") (notUp : name ≠ "..")
    (noLink : last = true ∨ ∀ base target, tree.nodeAt? (base ++ [name]) ≠ some (.link target)) :
    walk tree last links place (names ++ [name]) = .ok spot ↔ Enters name ∧
      ∃ base, walk tree false links place names = .ok ⟨base, some .directory⟩ ∧
        spot = ⟨base ++ [name], tree.nodeAt? (base ++ [name])⟩ := by
  constructor
  · intro leads
    obtain ⟨base, front⟩ :=
      (walk_ok_iff.mp leads).front sound starts rfl (List.cons_ne_nil name [])
    obtain ⟨left, prolonged⟩ := front.append rfl
    rw [prolonged last [name] (List.cons_ne_nil _ _)] at leads
    have enters := enters_of_walk notHere notUp leads
    rw [walk_name enters (noLink.imp_right fun noLink => noLink base)] at leads
    exact ⟨enters, base, walk_ok_iff.mpr front, (Except.ok.inj leads).symm⟩
  · rintro ⟨enters, base, front, rfl⟩
    obtain ⟨left, prolonged⟩ := (walk_ok_iff.mp front).append rfl
    rw [prolonged last [name] (List.cons_ne_nil _ _),
      walk_name enters (noLink.imp_right fun noLink => noLink base)]

/-- Whether a path leads to a directory, however long it is. The empty path leads to the working
directory. -/
def Reaches (files : FileSystem) (path : String) (place : Place) : Prop :=
  ∃ start, files.startOf path = .ok start ∧
    walk files.tree false maxLinks start (steps path) = .ok ⟨place, some .directory⟩

/-- What a path of a fair length leads to is its directory. -/
theorem directoryOf_iff_reaches :
    files.directoryOf path = .ok place ↔ checkPath path = .ok () ∧ files.Reaches path place := by
  rw [directoryOf_ok, locate_ok_iff]
  refine and_congr_right fun _ => exists_congr fun start => and_congr_right fun _ => ?_
  exact walk_ok_iff.symm

/-- A path leads to one directory only. -/
theorem Reaches.unique {other : Place} (first : files.Reaches path place)
    (second : files.Reaches path other) : place = other := by
  obtain ⟨start, starts, leads⟩ := first
  obtain ⟨_, again, also⟩ := second
  obtain rfl := Except.ok.inj (starts.symm.trans again)
  exact (Spot.mk.inj (Except.ok.inj (leads.symm.trans also))).1

/-- Where there are no links, a path leads to the directory to which its telling names lead from the
root behind those of the directory where it starts. -/
theorem Sound.reaches_iff (sound : files.Sound) (linkless : files.tree.Linkless) {start : Place}
    (starts : files.startOf path = .ok start) : files.Reaches path place ↔
      walk files.tree false maxLinks [] (start ++ Path.telling path) =
        .ok ⟨place, some .directory⟩ := by
  have stands : files.tree.nodeAt? ([] ++ start) = some .directory := sound.start starts
  rw [walk_down sound.tree stands, telling_eq, walk_telling linkless]
  constructor
  · rintro ⟨other, same, leads⟩
    obtain rfl := Except.ok.inj (starts.symm.trans same)
    exact leads
  · exact fun leads => ⟨start, starts, leads⟩

/-- There a path whose names are those of another path and one more leads to an entry of the
directory to which that path leads. -/
theorem Sound.locate_below (sound : files.Sound) (linkless : files.tree.Linkless) {start : Place}
    {longer : String} (starts : files.startOf path = .ok start)
    (spells : Path.Spells longer (start ++ Path.telling path ++ [name]))
    (notHere : name ≠ ".") (notUp : name ≠ "..") :
    files.locate longer last = .ok spot ↔ checkPath longer = .ok () ∧ Enters name ∧
      ∃ base, files.Reaches path base ∧
        spot = ⟨base ++ [name], files.tree.nodeAt? (base ++ [name])⟩ := by
  have noLink (base : Place) (target : String) :
      files.tree.nodeAt? (base ++ [name]) ≠ some (.link target) := linkless.nodeAt? _ target
  rw [locate_spells spells, walk_concat sound.tree rfl notHere notUp (.inr noLink)]
  refine and_congr_right fun _ => and_congr_right fun _ => exists_congr fun base => ?_
  rw [sound.reaches_iff linkless starts]

/-! ## What a removal takes away -/

/-- Files from which nothing is gone but at and below a place. -/
structure Cleared (place : Place) (files after : FileSystem) : Prop where
  /-- Nothing is made and nothing is changed. -/
  part : after.tree.entries.Sublist files.tree.entries
  /-- What is not at or below the place is still there. -/
  kept : ∀ entry ∈ files.tree.entries, ¬place <+: entry.place → entry ∈ after.tree.entries
  /-- The next number is the same. -/
  nextSerial : after.tree.nextSerial = files.tree.nextSerial
  /-- The working directory is the same. -/
  workingDir : after.workingDir = files.workingDir
  /-- The same files may be carried out. -/
  runnable : after.runnable = files.runnable

namespace Cleared

/-- Files as they are. -/
theorem refl (place : Place) (files : FileSystem) : Cleared place files files :=
  ⟨.refl _, fun _ member _ => member, rfl, rfl, rfl⟩

/-- Clearing twice. -/
theorem trans {later : FileSystem} (first : Cleared place files after)
    (second : Cleared place after later) : Cleared place files later where
  part := second.part.trans first.part
  kept entry member outside := second.kept entry (first.kept entry member outside) outside
  nextSerial := second.nextSerial.trans first.nextSerial
  workingDir := second.workingDir.trans first.workingDir
  runnable := second.runnable.trans first.runnable

/-- An entry is removed with everything below it. -/
theorem remove (place : Place) (files : FileSystem) :
    Cleared place files { files with tree := files.tree.remove place } where
  part := List.filter_sublist
  kept entry member outside := by
    refine List.mem_filter.mpr ⟨member, ?_⟩
    rwa [Bool.not_eq_true', Bool.eq_false_iff, ne_eq, List.isPrefixOf_iff_prefix]
  nextSerial := rfl
  workingDir := rfl
  runnable := rfl

/-- A removal that is stopped takes away a part of that. -/
theorem sparing (cleared : Cleared place files after) (spares : Entry → Bool) :
    Cleared place files { files with tree := files.tree.sparing after.tree spares } where
  part := List.filter_sublist
  kept entry member outside := by
    refine List.mem_filter.mpr ⟨member, Bool.or_eq_true_iff.mpr (.inl ?_)⟩
    exact List.contains_iff_mem.mpr (cleared.kept entry member outside)
  nextSerial := rfl
  workingDir := rfl
  runnable := rfl

/-- What a path leads to afterwards, it led to before, where there are no links. -/
theorem locate_before (cleared : Cleared place files after) (sound : files.tree.Sound)
    (linkless : files.tree.Linkless) (absolute : Path.isAbsolute path = true)
    (located : after.locate path last = .ok spot) :
    ∃ node, files.locate path last = .ok ⟨spot.place, node⟩ := by
  have grows : Extends after.tree files.tree :=
    extends_of_stays fun _ _ stands => sound.nodeAt?_of_sublist cleared.part stands
  have starts : files.startOf path = after.startOf path := by
    rw [startOf_absolute absolute, startOf_absolute absolute]
  exact ⟨_, locate_extends grows starts (fun _ => linkless.nodeAt? _) (.inl rfl) located⟩

end Cleared

/-- An attempt to remove what a path leads to takes away nothing else, and all of it if it
succeeds. -/
theorem cleared_removeUntil (denial : Option Denial) (below : place ≠ [])
    (leads : ∀ spot, files.locate path true = .ok spot → spot.place = place) :
    Cleared place files (files.removeUntil path denial).1 ∧
      ((files.removeUntil path denial).2 = .ok () →
        (files.removeUntil path denial).1.tree.nodeAt? place = none) := by
  unfold removeUntil
  cases removed : files.removeTree path with
  | error cause => exact ⟨.refl place files, (nomatch ·)⟩
  | ok after =>
    obtain ⟨spot, located, -, rfl⟩ := removeTree_ok removed
    obtain rfl := leads spot located
    have cleared := Cleared.remove spot.place files
    cases denial with
    | none =>
      refine ⟨cleared, fun _ => ?_⟩
      dsimp only
      rw [nodeAt?_remove below, if_pos (List.prefix_refl _)]
    | some denial => exact ⟨cleared.sparing denial.spares, (nomatch ·)⟩

/-- So does the removal with its second attempt. -/
theorem Sound.cleared_removeStubborn (sound : files.Sound) (linkless : files.tree.Linkless)
    (guard : Guard) (absolute : Path.isAbsolute path = true) (below : place ≠ [])
    (leads : ∀ spot, files.locate path true = .ok spot → spot.place = place) :
    Cleared place files (files.removeStubborn path guard).1 ∧
      ((files.removeStubborn path guard).2 = .ok () →
        (files.removeStubborn path guard).1.tree.nodeAt? place = none) := by
  have first := cleared_removeUntil guard.first below leads
  unfold removeStubborn
  rcases begun : files.removeUntil path guard.first with ⟨left, result⟩
  rw [begun] at first
  split
  · rename_i same
    obtain ⟨rfl, -⟩ := Prod.mk.inj same
    cases left.makeWritable path guard.unlock with
    | error cause => exact ⟨first.1, (nomatch ·)⟩
    | ok _ =>
      have again (spot : Spot) (located : left.locate path true = .ok spot) :
          spot.place = place := by
        obtain ⟨node, before⟩ := first.1.locate_before sound.tree linkless absolute located
        exact leads ⟨spot.place, node⟩ before
      have second := cleared_removeUntil guard.second below again
      exact ⟨first.1.trans second.1, second.2⟩
  · exact first

end FileSystem

end Micromag
