import Micromag.Proofs.Drive.Home
import Micromag.Proofs.Drive.Listing

/-!
# Making the directory of a problem and directories in it

A directory that is asked for at the path of a problem is made when it is missing. A directory that
is made in it is either that of the next drive, or it bears no number and no drive takes notice of
it.
-/

namespace Micromag.Drive

open FileSystem

/-- Whether nothing below a place is a directory or a link. -/
def Hollow (place : Place) (files : FileSystem) : Prop :=
  ∀ below, place <+: below → below ≠ place → files.tree.guide? below = none

variable {files after : FileSystem} {place : Place} {name path : String} {count : Nat}
  {home : Home} {result : Except FileFault Unit}

/-- Nothing is below a new directory. -/
theorem hollow_add (sound : files.Sound) (free : files.tree.nodeAt? place = none) :
    Hollow place { files with tree := files.tree.add place .directory } := by
  intro below inside other
  rw [guide?_add free, if_neg other]
  unfold FileTree.guide?
  rw [sound.tree.free_below free inside]

namespace Home

/-- The path of the directory without what is said twice. -/
def plainPath (home : Home) : String := (home.front ++ [home.name]).foldl Path.join "/"

/-- It has the same names. -/
theorem spells_plainPath (home : Home) : Path.Spells home.plainPath (home.front ++ [home.name]) :=
  Path.spells_foldl_join (by decide) (fun part member => (home.parts part member).1)
    (List.concat_ne_nil _ _)

/-- It is the last on the way to itself. -/
theorem trail_whole (home : Home) :
    trail (home.front ++ [home.name]) = trail home.front ++ [home.plainPath] :=
  trail_concat home.front home.name

/-- The path can be followed. -/
theorem checkPath_path (home : Home) : checkPath home.path = .ok () :=
  ((locate_spells home.spells).mp home.free).1

/-- It leads where the path leads. -/
theorem locate_plainPath {last : Bool} {spot : Spot}
    (located : files.locate home.plainPath last = .ok spot) :
    files.locate home.path last = .ok spot := by
  have followed := ((locate_spells home.spells_plainPath).mp located).2
  exact (locate_spells home.spells).mpr ⟨home.checkPath_path, followed⟩

/-- Nothing is at the path of a directory that is not there. -/
theorem Lacks.not_exists (lacks : home.Lacks files) : files.exists? home.path = false := by
  obtain ⟨made, asked, keeps, free⟩ := lacks.made
  have grown := lacks.sound.grown_ensureEach (trail home.front)
  rw [asked] at grown
  rw [Bool.eq_false_iff]
  intro there
  obtain ⟨place, node, located⟩ := exists?_iff.mp there
  have leads := keeps.locate false (fun target => by rw [free]; exact nofun)
  rw [grown.locate_some located, free] at leads
  cases leads

/-- The way stays when the files grow. -/
theorem Keeps.grown (keeps : home.Keeps files) (grown : Grown files after) : home.Keeps after :=
  ⟨grown.sound, grown.working.trans keeps.working, keeps.grows.trans grown.extends_⟩

namespace Holds

/-- The path leads to the directory. -/
theorem locate (holds : home.Holds count files) (last : Bool) :
    files.locate home.path last = .ok ⟨home.place, some .directory⟩ := by
  have leads := holds.toKeeps.locate last (fun target => by rw [holds.stands]; exact nofun)
  rwa [holds.stands] at leads

/-- A path with one more name leads into the directory, where no link is followed. -/
theorem locate_child (holds : home.Holds count files) {longer : String}
    (further : Path.Spells longer (home.front ++ [home.name] ++ [name])) (notHere : name ≠ ".")
    (notUp : name ≠ "..") {last : Bool} {spot : Spot}
    (noLink : last = true ∨
      ∀ target, files.tree.nodeAt? (home.place ++ [name]) ≠ some (.link target)) :
    files.locate longer last = .ok spot ↔ checkPath longer = .ok () ∧ Enters name ∧
      spot = ⟨home.place ++ [name], files.tree.nodeAt? (home.place ++ [name])⟩ :=
  FileSystem.locate_child home.spells further notHere notUp (holds.locate false) noLink

/-- A directory without the number of a drive may be made. -/
theorem add_other (holds : home.Holds count files) (unnumbered : indexOfName? name = none)
    (grown : Grown files { files with tree := files.tree.add (home.place ++ [name]) .directory })
    (free : files.tree.nodeAt? (home.place ++ [name]) = none) :
    home.Holds count
      { files with tree := files.tree.add (home.place ++ [name]) .directory } where
  toKeeps := holds.toKeeps.grown grown
  stands := grown.stays _ _ holds.stands
  drives index less := ⟨grown.stays _ _ (holds.drives index less).1, (holds.drives index less).2⟩
  others other numbered differs := by
    have apart : home.place ++ [other] ≠ home.place ++ [name] := by
      intro same
      obtain rfl := List.singleton_inj.mp (List.append_cancel_left same)
      rw [unnumbered] at numbered
      cases numbered
    rw [guide?_add free, if_neg apart, holds.others other numbered differs]

/-- The directory of the next drive may be made. -/
theorem add_drive (holds : home.Holds count files) (fits : count < 2 ^ 64)
    (checked : checkPath (Path.join home.path (directoryName count)) = .ok ())
    (grown : Grown files
      { files with tree := files.tree.add (home.place ++ [directoryName count]) .directory })
    (free : files.tree.nodeAt? (home.place ++ [directoryName count]) = none) :
    home.Holds (count + 1)
      { files with tree := files.tree.add (home.place ++ [directoryName count]) .directory } where
  toKeeps := holds.toKeeps.grown grown
  stands := grown.stays _ _ holds.stands
  drives index less := by
    rcases Nat.lt_succ_iff_lt_or_eq.mp less with less | rfl
    · exact ⟨grown.stays _ _ (holds.drives index less).1, (holds.drives index less).2⟩
    · exact ⟨by rw [FileTree.nodeAt?_add free, if_pos rfl], checked⟩
  others other numbered differs := by
    have apart : home.place ++ [other] ≠ home.place ++ [directoryName count] := by
      intro same
      exact differs count (Nat.lt_succ_self _)
        (List.singleton_inj.mp (List.append_cancel_left same))
    rw [guide?_add free, if_neg apart]
    exact holds.others other numbered fun index less => differs index (by omega)

end Holds

/-- When a missing directory is asked for, it is made or it stays missing. -/
theorem Lacks.ensure (lacks : home.Lacks files)
    (asked : files.ensureEach (trail (home.front ++ [home.name])) = (after, result)) :
    result = .ok () ∧ home.Holds 0 after ∨ result ≠ .ok () ∧ home.Lacks after := by
  obtain ⟨made, way, keeps, free⟩ := lacks.made
  have leads (last : Bool) : made.locate home.path last = .ok ⟨home.place, none⟩ := by
    have leads := keeps.locate last (fun target => by rw [free]; exact nofun)
    rwa [free] at leads
  rw [home.trail_whole, ensureEach_append way, ensureEach_singleton] at asked
  unfold ensureDirectory at asked
  cases new : made.makeDirectory home.plainPath with
  | ok grown =>
    rw [new] at asked
    obtain ⟨rfl, rfl⟩ := Prod.mk.inj asked
    obtain ⟨place, located, rfl⟩ := (makeDirectory_ok home.spells_plainPath.plainEnd).mp new
    have same := locate_plainPath located
    rw [leads true] at same
    obtain rfl : home.place = place := (Spot.mk.inj (Except.ok.inj same)).1
    have grown := keeps.sound.add located
    refine .inl ⟨rfl, keeps.grown grown, ?_, nofun, fun name _ _ => ?_⟩
    · rw [FileTree.nodeAt?_add free, if_pos rfl]
    · have below : home.place ++ [name] ≠ home.place := by simp
      exact hollow_add keeps.sound free _ (List.prefix_append _ _) below
  | error cause =>
    rw [new] at asked
    have missing : made.isDirectory home.plainPath = false := by
      rw [Bool.eq_false_iff]
      intro stands
      obtain ⟨place, located⟩ := isDirectory_iff.mp stands
      have same := locate_plainPath located
      rw [leads false] at same
      cases same
    dsimp only at asked
    rw [missing, if_neg Bool.false_ne_true] at asked
    obtain ⟨rfl, rfl⟩ := Prod.mk.inj asked
    exact .inr ⟨nofun, keeps.lacks free⟩

/-- A directory that is there is not made again. -/
theorem Holds.ensure (holds : home.Holds count files)
    (asked : files.ensureEach (trail (home.front ++ [home.name])) = (after, result)) :
    after = files := by
  rw [home.trail_whole, ensureEach_append holds.way, ensureEach_singleton] at asked
  unfold ensureDirectory at asked
  cases new : files.makeDirectory home.plainPath with
  | ok grown =>
    obtain ⟨place, located, _⟩ := (makeDirectory_ok home.spells_plainPath.plainEnd).mp new
    have same := locate_plainPath located
    rw [holds.locate true] at same
    cases same
  | error cause =>
    rw [new] at asked
    exact (Prod.mk.inj asked).1.symm

/-- When the directory is asked for, it is there afterwards or could not be made. -/
theorem At.ensure (stands : home.At count files)
    (asked : files.ensureEach (trail (home.front ++ [home.name])) = (after, result)) :
    home.At count after ∧ (result = .ok () → home.Holds count after) := by
  rcases stands with ⟨lacks, rfl⟩ | holds
  · rcases lacks.ensure asked with ⟨_, holds⟩ | ⟨failed, lacks⟩
    · exact ⟨.inr holds, fun _ => holds⟩
    · exact ⟨.inl ⟨lacks, rfl⟩, fun made => absurd made failed⟩
  · rw [holds.ensure asked]
    exact ⟨.inr holds, fun _ => holds⟩

/-- A directory is made in the directory where nothing is. -/
theorem Holds.makeDirectory (holds : home.Holds count files) {longer : String}
    (further : Path.Spells longer (home.front ++ [home.name] ++ [name])) (notHere : name ≠ ".")
    (notUp : name ≠ "..") (made : files.makeDirectory longer = .ok after) :
    files.tree.nodeAt? (home.place ++ [name]) = none ∧
      after = { files with tree := files.tree.add (home.place ++ [name]) .directory } ∧
      Grown files after := by
  obtain ⟨place, located, rfl⟩ := (makeDirectory_ok further.plainEnd).mp made
  obtain ⟨_, _, same⟩ := (holds.locate_child further notHere notUp (.inl rfl)).mp located
  obtain ⟨rfl, free⟩ := Spot.mk.inj same
  exact ⟨free.symm, rfl, holds.sound.add located⟩

/-- The directories on the way to a directory in the directory. -/
theorem ancestors_child (solid : Path.Solid name) (notHere : name ≠ ".") :
    ancestors (Path.join home.path name) =
      trail (home.front ++ [home.name]) ++ [Path.join home.plainPath name] := by
  have points : ∀ part ∈ home.front ++ [home.name] ++ [name], part ≠ "." :=
    List.forall_mem_append.mpr
      ⟨fun part member => (home.parts part member).2, List.forall_mem_singleton.mpr notHere⟩
  rw [ancestors_eq (home.spells.join solid) points, trail_concat (home.front ++ [home.name]),
    List.foldl_append]
  rfl

/-- No directory and no link bears the number of the next drive. -/
theorem Holds.next_free (holds : home.Holds count files) (fits : count < 2 ^ 64) :
    files.tree.guide? (home.place ++ [directoryName count]) = none := by
  refine holds.others _ ?_ fun index less same => ?_
  · rw [indexOfName?_directoryName fits]
    rfl
  · have equal := directoryName_inj (by omega) (by omega) same
    omega

/-- The name of a drive's directory is neither one nor two points. -/
theorem directoryName_ne {index : Nat} (fits : index < 2 ^ 64) :
    directoryName index ≠ "." ∧ directoryName index ≠ ".." := by
  refine (solid_of_indexOfName? ?_).2
  rw [indexOfName?_directoryName fits]
  rfl

/-- Nothing is in a directory that is not there. -/
theorem Lacks.not_exists_child (lacks : home.Lacks files) (solid : Path.Solid name) :
    files.exists? (Path.join home.path name) = false :=
  lacks.sound.not_exists_child solid home.checkPath_path (not_isDirectory lacks.not_exists)

/-- Nothing is at the path to a free place in the directory. -/
theorem Holds.not_exists_child (holds : home.Holds count files) (solid : Path.Solid name)
    (notHere : name ≠ ".") (notUp : name ≠ "..")
    (free : files.tree.nodeAt? (home.place ++ [name]) = none) :
    files.exists? (Path.join home.path name) = false := by
  rw [Bool.eq_false_iff]
  intro there
  obtain ⟨place, node, located⟩ := exists?_iff.mp there
  obtain ⟨_, _, same⟩ := (holds.locate_child (home.spells.join solid) notHere notUp
    (.inr fun target => by rw [free]; exact nofun)).mp located
  rw [free] at same
  cases same

/-- When the directory of the next drive is asked for, it is made where none was and is empty, or
the drives are those that were there before. -/
theorem At.makeDrive (stands : home.At count files) (fits : count < 2 ^ 64)
    (asked : files.makeDirectories (Path.join home.path (directoryName count)) = (after, result)) :
    (result = .ok () ∧ files.exists? (Path.join home.path (directoryName count)) = false ∧
        home.Holds (count + 1) after ∧
        Hollow (home.place ++ [directoryName count]) after) ∨
      result ≠ .ok () ∧ home.At count after := by
  have solid := solid_directoryName count
  obtain ⟨notHere, notUp⟩ := directoryName_ne fits
  have further := home.spells_plainPath.join solid
  unfold makeDirectories at asked
  cases checked : checkPath (Path.join home.path (directoryName count)) with
  | error cause =>
    rw [checked] at asked
    obtain ⟨rfl, rfl⟩ := Prod.mk.inj asked
    exact .inr ⟨nofun, stands⟩
  | ok _ =>
    rw [checked, ancestors_child solid notHere] at asked
    dsimp only at asked
    rcases way : files.ensureEach (trail (home.front ++ [home.name])) with ⟨middle, reached⟩
    obtain ⟨still, holds⟩ := stands.ensure way
    cases reached with
    | error cause =>
      rw [ensureEach_append_error way] at asked
      obtain ⟨rfl, rfl⟩ := Prod.mk.inj asked
      exact .inr ⟨nofun, still⟩
    | ok _ =>
      replace holds := holds rfl
      rw [ensureEach_append way, ensureEach_singleton] at asked
      have free := FileTree.guide?_eq_none.mp (holds.next_free fits)
      unfold ensureDirectory at asked
      cases new : middle.makeDirectory (Path.join home.plainPath (directoryName count)) with
      | ok grown =>
        rw [new] at asked
        obtain ⟨rfl, rfl⟩ := Prod.mk.inj asked
        obtain ⟨nothing, rfl, grown⟩ := holds.makeDirectory further notHere notUp new
        refine .inl ⟨rfl, ?_, holds.add_drive fits checked grown nothing,
          hollow_add holds.sound nothing⟩
        rcases stands with ⟨lacks, _⟩ | before
        · exact lacks.not_exists_child solid
        · have same := before.ensure way
          exact before.not_exists_child solid notHere notUp (same ▸ nothing)
      | error cause =>
        rw [new] at asked
        dsimp only at asked
        have missing : middle.isDirectory (Path.join home.plainPath (directoryName count)) =
            false := by
          rw [Bool.eq_false_iff]
          intro directory
          obtain ⟨place, located⟩ := isDirectory_iff.mp directory
          obtain ⟨_, _, same⟩ :=
            (holds.locate_child further notHere notUp (.inr free.2)).mp located
          exact free.1 (Spot.mk.inj same).2.symm
        rw [missing, if_neg Bool.false_ne_true] at asked
        obtain ⟨rfl, rfl⟩ := Prod.mk.inj asked
        exact .inr ⟨nofun, still⟩

end Home

end Micromag.Drive

/-!
## Finding the drives of a problem

The numbers that are found in the directory of a problem are those of its drives, in order. The
number of the next drive follows the last of them, and nothing changes when it is looked up.
-/

namespace Micromag.Drive

open FileSystem

variable {files : FileSystem} {name path : String} {count : Nat} {home : Home}

/-- The directories of drives at a path are those of the first drives. -/
structure Numbered (path : String) (count : Nat) (files : FileSystem) : Prop where
  /-- The numbers that are found are the first, and nothing changes when they are looked up. -/
  found : indices path files = (.ok (List.range count), files)
  /-- The directories with numbers in their names have the names of the first drives. -/
  directories : ∀ name, (indexOfName? name).isSome = true →
    (files.isDirectory (Path.join path name) = true ↔ ∃ index < count, name = directoryName index)

/-- No drives are found where no directory is. -/
theorem numbered_zero (sound : files.Sound) (checked : checkPath path = .ok ())
    (absent : files.exists? path = false) : Numbered path 0 files where
  found := by
    rw [indices_eq, directoriesIn_eq_nil (not_isDirectory absent), indicesOf_nil, List.range_zero]
  directories name numbered := by
    have solid := (solid_of_indexOfName? numbered).1
    rw [not_isDirectory (sound.not_exists_child solid checked (not_isDirectory absent))]
    exact ⟨(nomatch ·), fun ⟨_, less, _⟩ => absurd less (Nat.not_lt_zero _)⟩

namespace Home

/-- A directory with the number of a drive in its name is that of a drive. -/
theorem Holds.isDirectory_child (holds : home.Holds count files)
    (numbered : (indexOfName? name).isSome = true) :
    files.isDirectory (Path.join home.path name) = true ↔
      ∃ index < count, name = directoryName index := by
  obtain ⟨solid, notHere, notUp⟩ := solid_of_indexOfName? numbered
  have further := home.spells.join solid
  rw [isDirectory_iff]
  constructor
  · rintro ⟨place, located⟩
    by_contra none
    have differs (index : Nat) (less : index < count) : name ≠ directoryName index :=
      fun same => none ⟨index, less, same⟩
    have free := FileTree.guide?_eq_none.mp (holds.others name numbered differs)
    obtain ⟨_, _, same⟩ := (holds.locate_child further notHere notUp (.inr free.2)).mp located
    exact free.1 (Spot.mk.inj same).2.symm
  · rintro ⟨index, less, rfl⟩
    obtain ⟨stands, checked⟩ := holds.drives index less
    have noLink (target : String) : files.tree.nodeAt? (home.place ++ [directoryName index]) ≠
        some (.link target) := by
      rw [stands]
      exact nofun
    refine ⟨home.place ++ [directoryName index], ?_⟩
    refine (holds.locate_child further notHere notUp (.inr noLink)).mpr ⟨checked, ?_, ?_⟩
    · exact (holds.sound.tree.parent stands).2.enters
    · rw [stands]

/-- The numbers that are found are those of the drives. -/
theorem Holds.indices (holds : home.Holds count files) (fits : count ≤ 2 ^ 64) :
    indices home.path files = (.ok (List.range count), files) := by
  have exactly (name : String) (numbered : (indexOfName? name).isSome = true) :
      name ∈ ((files.tree.children home.place).map (·.1)).filter
          (fun name => files.isDirectory (Path.join home.path name)) ↔
        ∃ index < count, name = directoryName index := by
    rw [List.mem_filter, FileTree.mem_children_names, holds.isDirectory_child numbered]
    refine ⟨And.right, fun drive => ⟨?_, drive⟩⟩
    obtain ⟨index, less, rfl⟩ := drive
    rw [(holds.drives index less).1]
    exact Option.some_ne_none _
  rw [indices_eq, directoriesIn_eq (holds.locate false),
    indicesOf_eq (holds.sound.tree.nodup_children_names.filter _) fits exactly]

/-- The directory of a problem holds the directories of the drives, and no others. -/
theorem At.numbered (stands : home.At count files) (fits : count ≤ 2 ^ 64) :
    Numbered home.path count files := by
  rcases stands with ⟨lacks, rfl⟩ | holds
  · exact numbered_zero lacks.sound home.checkPath_path lacks.not_exists
  · exact ⟨holds.indices fits, fun _ => holds.isDirectory_child⟩

end Home

/-- The number of the next drive is the number of the drives, if another drive may be added. -/
theorem Numbered.nextIndex (numbered : Numbered path count files) (fits : count < 2 ^ 64)
    (append : Bool) :
    nextIndex path append files =
      (if append = false ∧ 0 < count then
        .error ⟨.directoryExists, "RUN.DRIVE_EXISTS",
          s!"{path} already holds {count} drive(s); pass append to add another", none⟩
      else .ok count, files) := by
  unfold Drive.nextIndex
  rw [Action.bind_apply, numbered.found]
  dsimp only
  cases count with
  | zero => rw [if_neg fun many => absurd many.2 (Nat.lt_irrefl 0)]; rfl
  | succ last =>
    rw [List.length_range, List.range_succ, List.getLast?_concat]
    dsimp only
    cases append with
    | true =>
      rw [if_pos rfl, if_neg (by simp), Nat.mod_eq_of_lt fits]
      rfl
    | false =>
      rw [if_neg Bool.false_ne_true, if_pos ⟨rfl, Nat.succ_pos _⟩]
      rfl

end Micromag.Drive
