import Micromag.Proofs.Drive.Making
import Micromag.Proofs.Drive.Writing

/-!
# Running an engine in a directory

An engine that stays inside its directory leaves all directories and links where they were and makes
none beside its own. The working directory is the directory of the engine for the time of the run,
and afterwards it is the one before. So the directory of a problem holds the same drives after a run
in one of its directories.
-/

namespace Micromag

open FileSystem

/-- Whether an engine stays inside its working directory when that holds files only: the file tree
is sound afterwards, no directory and no link is gone, and none is new beside the working
directory. -/
def Engine.Confined (engine : Engine) : Prop :=
  ∀ script files above own, files.Sound → files.workingPlace? = some (above ++ [own]) →
    Drive.Hollow (above ++ [own]) files →
      (engine script files).2.tree.Sound ∧
        FileTree.Extends files.tree (engine script files).2.tree ∧
        ∀ other, (engine script files).2.tree.guide? (above ++ [other]) =
          files.tree.guide? (above ++ [other])

/-- An action in a directory runs there between entering and leaving. -/
theorem WorkingDir.within_apply {α : Type} (path : String) (action : FileAction α)
    (files : FileSystem) : within path action files =
      match enter path files with
      | (.error fault, left) => (.error fault, left)
      | (.ok previous, entered) => ((action entered).1, leave previous (action entered).2) := by
  show Action.andThen (enter path) (fun previous files =>
    ((action files).1, leave previous (action files).2)) files = _
  unfold Action.andThen
  rcases enter path files with ⟨result, entered⟩
  cases result <;> rfl

namespace Drive.Home

variable {files after : FileSystem} {name : String} {count : Nat} {home : Home}

/-- Entering a directory remembers the path of the one before, or changes nothing. -/
theorem Keeps.enter (keeps : home.Keeps files) (path : String) :
    (∃ fault, WorkingDir.enter path files = (.error fault, files)) ∨
      ∃ place serial, files.locate path false = .ok ⟨place, some .directory⟩ ∧
        files.tree.serialAt? place = some serial ∧
        WorkingDir.enter path files =
          (.ok (pathOf home.work), { files with workingDir := serial }) := by
  have current : files.currentPath = .ok (pathOf home.work) := by
    unfold currentPath
    rw [keeps.working]
  have looked : FileAction.look "IO.CURRENT_DIR" "failed to read current working directory"
      FileSystem.currentPath files = (.ok (pathOf home.work), files) := by
    unfold FileAction.look
    rw [current]
    rfl
  unfold WorkingDir.enter
  rw [Action.bind_apply, looked]
  dsimp only
  rw [Action.bind_apply]
  unfold FileAction.change
  dsimp only
  cases changed : files.changeDirectory path with
  | error cause => exact .inl ⟨_, rfl⟩
  | ok entered =>
    obtain ⟨place, serial, leads, numbered, rfl⟩ := changeDirectory_ok.mp changed
    exact .inr ⟨place, serial, directoryOf_ok.mp leads, numbered, rfl⟩

/-- A run of a confined engine in a directory that holds files only leaves everything outside of it
where it was, and the working directory too. -/
theorem Holds.invoke (holds : home.Holds count files) {engine : Engine} (confined : engine.Confined)
    (solid : Path.Solid name) (notHere : name ≠ ".") (notUp : name ≠ "..")
    (stands : files.tree.nodeAt? (home.place ++ [name]) = some .directory)
    (hollow : Hollow (home.place ++ [name]) files) (script : String) :
    home.Holds count (invoke engine (Path.join home.path name) script files).2 ∧
      (invoke engine (Path.join home.path name) script files).2.tree.nodeAt?
        (home.place ++ [name]) = some .directory := by
  unfold Drive.invoke
  rw [WorkingDir.within_apply]
  rcases holds.toKeeps.enter (Path.join home.path name) with ⟨fault, same⟩ |
    ⟨place, serial, located, numbered, same⟩
  · rw [same]
    exact ⟨holds, stands⟩
  rw [same]
  dsimp only
  have noLink (target : String) :
      files.tree.nodeAt? (home.place ++ [name]) ≠ some (.link target) := by
    rw [stands]
    exact nofun
  obtain ⟨_, _, spot⟩ :=
    (holds.locate_child (home.spells.join solid) notHere notUp (.inr noLink)).mp located
  obtain rfl := (Spot.mk.inj spot).1
  obtain ⟨entered, working⟩ := sound_enter holds.sound.tree stands numbered
  obtain ⟨sound, stay, beside⟩ := confined script _ _ _ entered working hollow
  generalize (engine script { files with workingDir := serial }).2 = left at sound stay beside ⊢
  have grows : FileTree.Extends home.bare.tree left.tree := holds.grows.trans stay
  have home_stands : left.tree.nodeAt? home.work = some .directory :=
    grows.directory (home.sound.working _ home.working)
  obtain ⟨number, found⟩ := FileTree.serialAt?_of_nodeAt? home_stands
  have leaves : WorkingDir.leave (pathOf home.work) left =
      { left with workingDir := number } := by
    have changed : left.changeDirectory (pathOf home.work) =
        .ok { left with workingDir := number } :=
      changeDirectory_ok.mpr ⟨home.work, number, reenters_of_extends grows, found, rfl⟩
    unfold WorkingDir.leave
    rw [changed]
  rw [leaves]
  obtain ⟨sorted, returned⟩ := sound_enter sound home_stands found
  refine ⟨⟨⟨sorted, returned, grows⟩, stay.directory holds.stands, fun index less => ?_,
    fun other numbered differs => ?_⟩, stay.directory stands⟩
  · obtain ⟨there, checked⟩ := holds.drives index less
    exact ⟨stay.directory there, checked⟩
  · exact (beside other).trans (holds.others other numbered differs)

/-- The drives stay on the same ground. -/
theorem Holds.sameGround (holds : home.Holds count files) (sound : after.Sound)
    (same : SameGround files after) : home.Holds count after where
  sound := sound
  working := same.working.trans holds.working
  grows := holds.grows.trans same.extends_
  stands := same.extends_.directory holds.stands
  drives index less :=
    ⟨same.extends_.directory (holds.drives index less).1, (holds.drives index less).2⟩
  others other numbered differs :=
    (same.guides _).trans (holds.others other numbered differs)

/-- Files with a directory in the directory of a problem in which an engine can run. -/
structure Works (home : Home) (count : Nat) (name : String) (files : FileSystem) : Prop
    extends home.Holds count files where
  /-- The name is a part of a path. -/
  solid : Path.Solid name
  /-- It is no single point. -/
  notHere : name ≠ "."
  /-- It is not two points. -/
  notUp : name ≠ ".."
  /-- The directory is there. -/
  directory : files.tree.nodeAt? (home.place ++ [name]) = some .directory
  /-- It holds files only. -/
  hollow : Hollow (home.place ++ [name]) files

/-- Such a directory stays one on the same ground. -/
theorem Works.keepsGround (works : home.Works count name files) {α : Type} {action : FileAction α}
    (keeps : FileAction.KeepsGround action) : home.Works count name (action files).2 := by
  obtain ⟨sound, same⟩ := keeps files works.sound
  refine ⟨works.toHolds.sameGround sound same, works.solid, works.notHere, works.notUp,
    same.extends_.directory works.directory, fun below inside other => ?_⟩
  rw [same.guides, works.hollow below inside other]

end Drive.Home

namespace Drive

/-- What follows in a drive when its directory was made: fill the directory, run the engine there
and write the manifest. -/
def finish (now : Timestamp) (engine : Engine) (intent : Intent) (problem : Problem) (index : Nat)
    (directory : String) (script : LoweredScript) : FileAction DriveOutcome := do
  let path ← fill directory problem.name script
  let output ← Action.attempt (invoke engine directory path)
  let manifest := Manifest.ofTime now index intent.driverName intent.manifestArguments
  match ← Action.attempt (writeManifest directory manifest), output with
  | .error fault, .ok _ => Action.fail fault
  | _, .error fault => Action.fail fault
  | .ok _, .ok output => return ⟨index, directory, ← requireSuccess output path⟩

/-- A drive whose directory was made. -/
structure Opened where
  /-- Its script. -/
  script : LoweredScript
  /-- Its number. -/
  index : Nat
  /-- Its directory. -/
  directory : String

/-- What a drive does until its directory is made. -/
def opening (options : DriveOptions) (intent : Intent) (problem : Problem) : FileAction Opened := do
  let script ← problem.lower intent options.settings options.platform
  let base ← problemDirectory options.directory problem.name
  let index ← nextIndex base options.append
  let directory := Path.join base (directoryName index)
  FileAction.makeDirectories "IO.DRIVE_DIR" directory
  return ⟨script, index, directory⟩

/-- A drive makes its directory before anything else is written. -/
theorem run_eq (now : Timestamp) (engine : Engine) (options : DriveOptions) (intent : Intent)
    (problem : Problem) : run now engine options intent problem =
      (opening options intent problem >>= fun opened =>
        finish now engine intent problem opened.index opened.directory opened.script) := by
  unfold run opening
  simp only [prepare_eq, Action.bind_assoc]
  rfl

variable {files : FileSystem} {home : Home} {count : Nat} {name : String}

/-- What follows when the directory of a drive was made leaves the drives, whatever comes of it. -/
theorem Home.Works.finish (works : home.Works count name files) {engine : Engine}
    (confined : engine.Confined) (now : Timestamp) (intent : Intent) (problem : Problem)
    (index : Nat) (script : LoweredScript) :
    home.Holds count
      (finish now engine intent problem index (Path.join home.path name) script files).2 := by
  unfold Drive.finish
  rw [Action.bind_apply]
  have filled := works.keepsGround
    (keepsGround_fill (Path.join home.path name) problem.name script)
  rcases wrote : fill (Path.join home.path name) problem.name script files with ⟨result, middle⟩
  rw [wrote] at filled
  cases result with
  | error fault => exact filled.toHolds
  | ok path =>
    dsimp only at filled ⊢
    have ran := (filled.toHolds.invoke confined filled.solid filled.notHere filled.notUp
      filled.directory filled.hollow path).1
    rw [Action.bind_apply, Action.attempt_apply]
    dsimp only
    rcases ended : invoke engine (Path.join home.path name) path middle with ⟨output, left⟩
    rw [ended] at ran
    obtain ⟨sound, same⟩ := keepsGround_writeManifest (Path.join home.path name)
      (Manifest.ofTime now index intent.driverName intent.manifestArguments) left ran.sound
    have written := ran.sameGround sound same
    rw [Action.bind_apply, Action.attempt_apply]
    dsimp only
    rcases closed : writeManifest (Path.join home.path name)
      (Manifest.ofTime now index intent.driverName intent.manifestArguments) left with
      ⟨manifested, last⟩
    rw [closed] at written
    cases manifested with
    | error fault => cases output <;> exact written
    | ok _ =>
      cases output with
      | error fault => exact written
      | ok output =>
        dsimp only
        rw [Action.bind_apply, Action.lift_apply]
        cases requireSuccess output path with
        | error fault => exact written
        | ok output => exact written

end Drive

end Micromag

/-!
## Removing directories

When the directory of a problem is removed, it is gone with all its drives and can be made again.
When a passing directory in it is removed, its drives stay.
-/

namespace Micromag.Drive.Home

open FileSystem

variable {files after : FileSystem} {name path : String} {count : Nat} {home : Home}

/-- The working directory is not in the directory of the problem. -/
theorem work_outside (home : Home) : ¬home.place <+: home.work :=
  outside_of_guide
    (FileTree.guide?_eq_directory.mpr (home.sound.working _ home.working))

/-- Removing something in the directory of a problem, or the directory itself, leaves the way. -/
theorem Keeps.remove (keeps : home.Keeps files) {place : Place} (inside : home.place <+: place) :
    home.Keeps { files with tree := files.tree.remove place } := by
  have below : place ≠ [] := fun root => place_ne_nil (List.prefix_nil.mp (root ▸ inside))
  have working : FileSystem.workingPlace? { files with tree := files.tree.remove place } =
      some home.work :=
    keeps.sound.tree.placeOf?_remove keeps.working fun starts =>
      home.work_outside (inside.trans starts)
  refine ⟨⟨keeps.sound.tree.remove below, keeps.sound.given, fun other found => ?_⟩, working,
    fun other node guides => ?_⟩
  · have same : some home.work = some other := working.symm.trans found
    rw [← Option.some.inj same, FileTree.nodeAt?_remove below,
      if_neg fun starts => home.work_outside (inside.trans starts)]
    exact keeps.sound.working _ keeps.working
  · have outside := outside_of_guide guides
    rw [FileTree.guide?_remove below, if_neg fun starts => outside (inside.trans starts),
      keeps.grows other node guides]

/-- After the directory of a problem was removed, it can be made again. -/
theorem Holds.removeTree (holds : home.Holds count files) :
    ∃ after, files.removeTree home.path = .ok after ∧ home.Lacks after := by
  have removed : files.removeTree home.path =
      .ok { files with tree := files.tree.remove home.place } := by
    unfold FileSystem.removeTree
    rw [holds.locate true]
    rfl
  have keeps := holds.toKeeps.remove (List.prefix_refl _)
  refine ⟨_, removed, keeps.lacks ?_⟩
  rw [FileTree.nodeAt?_remove place_ne_nil, if_pos (List.prefix_refl _)]

/-- Entries of a directory with different names are not inside each other. -/
theorem not_prefix_concat {place : Place} {other : String} (differ : name ≠ other) :
    ¬place ++ [name] <+: place ++ [other] := by
  intro starts
  have same := starts.eq_of_length (by rw [List.length_append, List.length_append]; rfl)
  exact differ (List.singleton_inj.mp (List.append_cancel_left same))

/-- A directory in the directory of a problem that bears no number of a drive may be removed. -/
theorem Holds.remove_other (holds : home.Holds count files) (fits : count ≤ 2 ^ 64)
    (unnumbered : indexOfName? name = none) :
    home.Holds count
      { files with tree := files.tree.remove (home.place ++ [name]) } where
  toKeeps := holds.toKeeps.remove (List.prefix_append _ _)
  stands := by
    have apart : ¬home.place ++ [name] <+: home.place := fun starts => by
      have length := starts.length_le
      rw [List.length_append, List.length_singleton] at length
      omega
    rw [FileTree.nodeAt?_remove (List.concat_ne_nil _ _), if_neg apart, holds.stands]
  drives index less := by
    obtain ⟨stands, checked⟩ := holds.drives index less
    have differ : name ≠ directoryName index := by
      rintro rfl
      rw [indexOfName?_directoryName (by omega)] at unnumbered
      cases unnumbered
    refine ⟨?_, checked⟩
    rw [FileTree.nodeAt?_remove (List.concat_ne_nil _ _), if_neg (not_prefix_concat differ), stands]
  others other numbered differs := by
    have differ : name ≠ other := by
      rintro rfl
      rw [unnumbered] at numbered
      cases numbered
    rw [FileTree.guide?_remove (List.concat_ne_nil _ _), if_neg (not_prefix_concat differ)]
    exact holds.others other numbered differs

/-- A passing directory is made in the directory of a problem and holds nothing, or nothing
changes. -/
theorem Holds.makeScratch (holds : home.Holds count files) :
    (∃ fault, Compute.makeScratch home.path files = (.error fault, files)) ∨
      ∃ name after, Compute.makeScratch home.path files = (.ok (Path.join home.path name), after) ∧
        Path.Solid name ∧ name ≠ "." ∧ name ≠ ".." ∧ indexOfName? name = none ∧
        home.Holds count after ∧
        after.tree.nodeAt? (home.place ++ [name]) = some .directory ∧
        Hollow (home.place ++ [name]) after := by
  have listed : files.list home.path = .ok (files.tree.children home.place) := by
    unfold FileSystem.list
    rw [directoryOf_ok.mpr (holds.locate false)]
    rfl
  unfold Compute.makeScratch
  dsimp only
  rw [Action.bind_apply]
  unfold FileAction.look
  dsimp only
  rw [listed]
  dsimp only [Except.mapError]
  generalize (files.tree.children home.place).map (·.1) = taken
  rw [Action.bind_apply]
  unfold FileAction.change
  dsimp only
  obtain ⟨solid, notHere, notUp⟩ := Compute.solid_freshName taken
  have unnumbered := Compute.indexOfName?_freshName taken
  cases made : files.makeDirectory (Path.join home.path (Compute.freshName taken)) with
  | error cause => exact .inl ⟨_, rfl⟩
  | ok after =>
    obtain ⟨free, rfl, grown⟩ :=
      holds.makeDirectory (home.spells.join solid) notHere notUp made
    refine .inr ⟨_, _, rfl, solid, notHere, notUp, unnumbered,
      holds.add_other unnumbered grown free, ?_, hollow_add holds.sound free⟩
    rw [FileTree.nodeAt?_add free, if_pos rfl]

/-- Discarding a passing directory leaves the drives. -/
theorem Holds.discard (holds : home.Holds count files) (fits : count ≤ 2 ^ 64)
    (solid : Path.Solid name) (notHere : name ≠ ".") (notUp : name ≠ "..")
    (unnumbered : indexOfName? name = none) :
    home.Holds count (Compute.discard (Path.join home.path name) files) := by
  unfold Compute.discard
  cases removed : files.removeTree (Path.join home.path name) with
  | error cause => exact holds
  | ok after =>
    obtain ⟨spot, located, _, rfl⟩ := removeTree_ok removed
    obtain ⟨_, _, rfl⟩ :=
      (holds.locate_child (home.spells.join solid) notHere notUp (.inl rfl)).mp located
    exact holds.remove_other fits unnumbered

end Micromag.Drive.Home
