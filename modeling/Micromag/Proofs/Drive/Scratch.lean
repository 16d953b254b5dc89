import Micromag.Proofs.Drive.Filling
import Micromag.Proofs.Files.Within

/-!
# Passing directories

A computation runs in a directory that is made for it where nothing was, and that is removed
afterwards. Script and field files are written into it, and the engine runs in it. If the engine
changes nothing beside it, the files are afterwards as they were, wherever the computation failed,
but for the directories on the way to the directory of the problem.
-/

namespace Micromag

open FileSystem

namespace FileAction

variable {α β : Type}

/-- Whether an action changes nothing beside what is in the working directory when that holds files
only. -/
def Tidy (action : FileAction α) : Prop :=
  ∀ files place, files.Sound → files.workingPlace? = some place → Drive.Hollow place files →
    Within place files (action files).2

namespace Tidy

/-- Looking changes nothing. -/
theorem of_looksOnly {action : FileAction α} (looks : Action.LooksOnly action) : Tidy action := by
  intro files place _ _ _
  rw [looks files]
  exact .refl place files

/-- Actions one after the other. -/
theorem bind {first : FileAction α} {next : α → FileAction β} (ground : KeepsGround first)
    (head : Tidy first) (tail : ∀ value, Tidy (next value)) : Tidy (first >>= next) := by
  intro files place sound working hollow
  have early := head files place sound working hollow
  obtain ⟨kept, same⟩ := ground files sound
  rw [Action.bind_apply]
  rcases ran : first files with ⟨result, middle⟩
  rw [ran] at early kept same
  cases result with
  | error fault => exact early
  | ok value =>
    have still : Drive.Hollow place middle := fun below inside other => by
      rw [same.guides, hollow below inside other]
    exact early.trans (tail value middle place kept (same.working.trans working) still)

/-- A file is written into the working directory. -/
theorem writeFile {name : String} (relative : Path.isAbsolute name = false)
    (one : steps name = [name]) (notHere : name ≠ ".") (notUp : name ≠ "..") (code what : String)
    (content : List UInt8) : Tidy (FileAction.change code what (·.writeFile name content)) := by
  intro files place sound working hollow
  unfold FileAction.change
  dsimp only
  cases wrote : files.writeFile name content with
  | error cause => exact .refl place files
  | ok after =>
    obtain ⟨above, last, node, located, -, -, -, rfl⟩ := sound.writeFile_ok wrote
    obtain ⟨-, start, starts, leads⟩ := locate_ok_iff.mp located
    unfold startOf at starts
    rw [relative, if_neg Bool.false_ne_true, working] at starts
    obtain rfl := Except.ok.inj starts
    rw [one] at leads
    have walked := walk_ok_iff.mpr leads
    have ends := hollow (place ++ [name]) (List.prefix_append _ _) (by simp)
    rw [walk_name (enters_of_walk notHere notUp walked)
      (.inr (FileTree.guide?_eq_none.mp ends).2)] at walked
    rw [← (Spot.mk.inj (Except.ok.inj walked)).1]
    exact .put (List.prefix_append _ _) (by simp)

end Tidy

end FileAction

/-- Whether an engine changes nothing beside what is in its working directory when that holds files
only. -/
def Engine.Tidy (engine : Engine) : Prop := ∀ script, FileAction.Tidy (engine script)

/-! ## Filling -/

namespace FileAction

variable {α β : Type} {path : String} {place : Place}

/-- Whether an action in a directory changes nothing beside it and puts no link into it. -/
def Fills (path : String) (place : Place) (action : FileAction α) : Prop :=
  ∀ files, Room path place files → Room path place (action files).2 ∧
    Within place files (action files).2 ∧ (action files).2.workingDir = files.workingDir

namespace Fills

/-- An action that only looks changes nothing. -/
theorem of_looksOnly {action : FileAction α} (looks : Action.LooksOnly action) :
    Fills path place action := by
  intro files room
  rw [looks files]
  exact ⟨room, .refl _ _, rfl⟩

/-- Actions one after the other. -/
theorem bind {first : FileAction α} {next : α → FileAction β} (head : Fills path place first)
    (tail : ∀ value, Fills path place (next value)) : Fills path place (first >>= next) := by
  intro files room
  obtain ⟨kept, early, same⟩ := head files room
  rw [Action.bind_apply]
  rcases ran : first files with ⟨result, middle⟩
  rw [ran] at kept early same
  cases result with
  | error fault => exact ⟨kept, early, same⟩
  | ok value =>
    obtain ⟨last, late, still⟩ := tail value middle kept
    exact ⟨last, early.trans late, still.trans same⟩

/-- A file is written under a name in the directory. -/
theorem writeFile {name : String} (proper : Path.Proper name) (code what : String)
    (content : List UInt8) :
    Fills path place (FileAction.change code what (·.writeFile (Path.join path name) content)) := by
  intro files room
  unfold FileAction.change
  dsimp only
  cases wrote : files.writeFile (Path.join path name) content with
  | error cause => exact ⟨room, .refl _ _, rfl⟩
  | ok after =>
    obtain ⟨kept, rfl, -⟩ := room.writeFile proper wrote
    exact ⟨kept, .put (List.prefix_append _ _) (by simp), rfl⟩

end Fills

end FileAction

namespace Drive

open FileAction

/-- Script and field files are written into a directory. -/
theorem fills_fill {problem : Problem} {intent : Intent} {settings : ScriptSettings}
    {platform : Platform} {script : LoweredScript}
    (lowers : problem.lower intent settings platform = .ok script) (path : String) (place : Place) :
    Fills path place (fill path problem.name script) := by
  have noSlash : '/' ∉ problem.name.toList :=
    (Problem.solid_of_isLegalName (Problem.isLegalName_of_lower lowers)).1.noSlash
  have supplies := (Problem.lower_supplies lowers).2
  have proper : ∀ sidecar ∈ script.sidecars, Path.Proper sidecar.fileName :=
    fun sidecar member => (supplies.fits sidecar (supplies.asked ▸ member)).proper
  have written : Fills path place (writeSidecars path script.sidecars) := by
    generalize script.sidecars = sidecars at proper
    induction sidecars with
    | nil => exact .of_looksOnly (Action.looksOnly_pure _)
    | cons sidecar rest ih =>
      obtain ⟨first, others⟩ := List.forall_mem_cons.mp proper
      exact (Fills.writeFile first _ _ _).bind fun _ => ih others
  refine (Fills.writeFile ?_ _ _ _).bind fun _ => written.bind fun _ =>
    .of_looksOnly (Action.looksOnly_pure _)
  exact Path.proper_append noSlash (by decide) (by decide)

end Drive

/-! ## Running -/

/-- A directory that is not entered is not entered in part. -/
theorem WorkingDir.enter_error {path : String} {files left : FileSystem} {fault : Fault}
    (refused : enter path files = (.error fault, left)) : left = files := by
  unfold enter at refused
  rw [Action.bind_apply, (FileAction.looksOnly_look _ _ _).apply] at refused
  cases looked : (FileAction.look "IO.CURRENT_DIR" "failed to read current working directory"
      FileSystem.currentPath files).1 with
  | error fault =>
    rw [looked] at refused
    exact (Prod.mk.inj refused).2.symm
  | ok previous =>
    rw [looked] at refused
    dsimp only at refused
    rw [Action.bind_apply] at refused
    unfold FileAction.change at refused
    dsimp only at refused
    cases changed : files.changeDirectory path with
    | error cause =>
      rw [changed] at refused
      exact (Prod.mk.inj refused).2.symm
    | ok entered =>
      rw [changed] at refused
      cases (Prod.mk.inj refused).1

/-- Files whose working directory is there and can be entered by its path. -/
structure FileSystem.Enterable (files : FileSystem) (work : Place) : Prop where
  /-- The working directory is there. -/
  working : files.workingPlace? = some work
  /-- Its path leads there. -/
  reenters : files.directoryOf (pathOf work) = .ok work

namespace FileSystem

variable {files after : FileSystem} {work place : Place} {path : String}

/-- The path of a directory is absolute. -/
theorem isAbsolute_pathOf (sound : files.tree.Sound)
    (stands : files.tree.nodeAt? work = some .directory) :
    Path.isAbsolute (pathOf work) = true := by
  have solid : ∀ part ∈ work, Path.Solid part := fun part member =>
    (sound.plain_of_mem stands part member).solid
  rw [Path.pathOf_eq solid, Path.isAbsolute_foldl_join solid]
  decide

/-- The working directory can be entered as long as directories and links stay. -/
theorem Enterable.reenters_of_extends (enterable : files.Enterable work) (sound : files.Sound)
    (grows : FileTree.Extends files.tree after.tree) : after.directoryOf (pathOf work) = .ok work := by
  have absolute := isAbsolute_pathOf sound.tree (sound.working work enterable.working)
  have starts : after.startOf (pathOf work) = files.startOf (pathOf work) := by
    rw [startOf_absolute absolute, startOf_absolute absolute]
  exact directoryOf_ok.mpr
    (locate_extends_directory grows starts (directoryOf_ok.mp enterable.reenters))

/-- A run of a tidy engine in a passing directory changes nothing beside it. -/
theorem Passing.invoke (passing : Passing place files after) (enterable : files.Enterable work)
    (room : Room path place after) (hollow : Drive.Hollow place after) {engine : Engine}
    (tidy : engine.Tidy) (script : String) :
    Passing place files (Drive.invoke engine path script after).2 := by
  have known : after.workingPlace? = some work := by
    unfold FileSystem.workingPlace?
    rw [passing.workingDir]
    exact room.sound.tree.placeOf?_of_serialAt? (passing.serialAt?_work enterable.working)
  unfold Drive.invoke
  rw [WorkingDir.within_apply]
  rcases enters : WorkingDir.enter path after with ⟨result, entered⟩
  cases result with
  | error fault =>
    obtain rfl := WorkingDir.enter_error enters
    exact passing
  | ok previous =>
    obtain ⟨told, changed⟩ := WorkingDir.enter_ok.mp enters
    obtain rfl : pathOf work = previous := by
      unfold currentPath at told
      rw [known] at told
      exact Except.ok.inj told
    obtain ⟨other, serial, leads, numbered, rfl⟩ := changeDirectory_ok.mp changed
    obtain rfl : place = other :=
      (Spot.mk.inj (Except.ok.inj (room.leads.symm.trans (directoryOf_ok.mp leads)))).1
    obtain ⟨sound, working⟩ := sound_enter room.sound.tree passing.stands numbered
    have run := tidy script _ place sound working hollow
    dsimp only
    generalize (engine script { after with workingDir := serial }).2 = left at run
    have back : Passing place files { left with workingDir := files.workingDir } :=
      ⟨passing.sound, passing.free,
        passing.within.trans ⟨run.beside, run.next, run.marks, run.marked⟩, rfl⟩
    have leaves : WorkingDir.leave (pathOf work) left =
        { left with workingDir := files.workingDir } := by
      have changed : left.changeDirectory (pathOf work) =
          .ok { left with workingDir := files.workingDir } :=
        changeDirectory_ok.mpr ⟨work, files.workingDir,
          enterable.reenters_of_extends passing.sound back.extends_,
          back.serialAt?_work enterable.working, rfl⟩
      unfold WorkingDir.leave
      rw [changed]
    rw [leaves]
    exact back

end FileSystem

/-! ## Computing -/

namespace Compute

variable {files after : FileSystem} {work place : Place} {path : String} {names : List String}

/-- A passing directory is made at a free place, or nothing is made. -/
theorem makeScratch_cases (parent : String) (files : FileSystem) :
    (∃ fault, makeScratch parent files = (.error fault, files)) ∨
      ∃ name place, Path.Proper name ∧
        files.locate (Path.join parent name) true = .ok ⟨place, none⟩ ∧
        makeScratch parent files = (.ok (Path.join parent name),
          { files with tree := files.tree.add place .directory }) := by
  unfold makeScratch
  dsimp only
  rw [Action.bind_apply]
  unfold FileAction.look
  dsimp only
  cases files.list parent with
  | error cause => exact .inl ⟨_, rfl⟩
  | ok found =>
    dsimp only [Except.mapError]
    generalize found.map (·.1) = taken
    obtain ⟨solid, notHere, notUp⟩ := solid_freshName taken
    rw [Action.bind_apply]
    unfold FileAction.change
    dsimp only
    cases made : files.makeDirectory (Path.join parent (freshName taken)) with
    | error cause => exact .inl ⟨_, rfl⟩
    | ok after =>
      obtain ⟨place, free, rfl⟩ := (makeDirectory_ok (Path.endsInSlash_join solid)).mp made
      exact .inr ⟨_, place, ⟨solid, notHere, notUp⟩, free, rfl⟩

/-- What is done in a passing directory changes nothing beside it. -/
theorem passing_work (sound : files.Sound) (enterable : files.Enterable work)
    (spells : Path.Spells path names) (noPoint : ∀ name ∈ names, name ≠ ".")
    (free : files.locate path true = .ok ⟨place, none⟩) {engine : Engine} (tidy : engine.Tidy)
    {problem : Problem} {intent : Intent} {settings : ScriptSettings} {platform : Platform}
    {script : LoweredScript} (lowers : problem.lower intent settings platform = .ok script)
    (quantity : Quantity) (identifier : String) :
    Passing place files (Compute.work problem quantity identifier script engine path
      { files with tree := files.tree.add place .directory }).2 := by
  have nothing : files.tree.nodeAt? place = none := (node_of_locate free).symm
  have grown := sound.add free
  have leads := sound.locate_add free
  have passing : Passing place files { files with tree := files.tree.add place .directory } :=
    ⟨sound, nothing, .refl _ _, rfl⟩
  have hollow := Drive.hollow_add sound nothing
  have room : Room path place { files with tree := files.tree.add place .directory } := by
    refine ⟨grown.sound, ⟨names, spells⟩, leads, fun name target link => ?_⟩
    have none := hollow (place ++ [name]) (List.prefix_append _ _) (by simp)
    exact (FileTree.guide?_eq_none.mp none).2 target link
  generalize FileSystem.mk (files.tree.add place .directory) files.workingDir files.runnable = made
    at *
  unfold Compute.work
  rw [Drive.prepare_eq, Action.bind_assoc, Action.bind_apply]
  unfold FileAction.makeDirectories
  rw [room.sound.makeDirectories_of_isDirectory spells noPoint (isDirectory_iff.mpr ⟨place, leads⟩)]
  dsimp only [Except.mapError]
  rw [Action.bind_apply]
  obtain ⟨kept, within, same⟩ := Drive.fills_fill lowers path place made room
  obtain ⟨-, ground⟩ := Drive.keepsGround_fill path problem.name script made room.sound
  rcases wrote : Drive.fill path problem.name script made with ⟨result, filled⟩
  rw [wrote] at kept within same ground
  have still : Passing place files filled :=
    ⟨sound, nothing, passing.within.trans within, same.trans passing.workingDir⟩
  cases result with
  | error fault => exact still
  | ok script =>
    have empty : Drive.Hollow place filled := fun below inside other => by
      rw [ground.guides, hollow below inside other]
    have ran := still.invoke enterable kept empty tidy script
    dsimp only
    rw [Action.bind_apply]
    rcases ended : Drive.invoke engine path script filled with ⟨result, left⟩
    rw [ended] at ran
    cases result with
    | error fault => exact ran
    | ok output =>
      dsimp only
      rw [Action.bind_apply, Action.lift_apply]
      cases Drive.requireSuccess output script with
      | error fault => exact ran
      | ok _ =>
        dsimp only
        rw [looksOnly_value]
        exact ran

end Compute

namespace Problem

variable {files : FileSystem} {work : Place} {problem : Problem}

/-- A computation leaves the files as they were or as they are when the directory of the problem is
made, wherever it fails. -/
theorem compute_restores (sound : files.Sound) (enterable : files.Enterable work) {engine : Engine}
    (tidy : engine.Tidy) (target : Target) (quantity : Quantity) (options : DriveOptions) :
    Restored files (problem.compute target quantity engine options files).2 ∨
      ∃ path, Drive.problemPath options.directory problem.name files.workingPlace? = .ok path ∧
        Restored (files.makeDirectories path).1
          (problem.compute target quantity engine options files).2 := by
  unfold compute
  rw [Action.bind_apply, Action.lift_apply]
  cases problem.outputIdentifier target quantity options.platform with
  | error fault => exact .inl (.refl files)
  | ok identifier =>
    dsimp only
    rw [Action.bind_apply, Action.lift_apply]
    cases lowers : problem.lower Compute.intent
      (Compute.settingsFor options.settings quantity identifier) options.platform with
    | error fault => exact .inl (.refl files)
    | ok script =>
      dsimp only
      rw [Action.bind_apply, Drive.problemDirectory_apply]
      cases found : Drive.problemPath options.directory problem.name files.workingPlace? with
      | error fault => exact .inl (.refl files)
      | ok path =>
        obtain ⟨front, spells, parts, -⟩ := Drive.spells_of_problemPath
          (Problem.isLegalName_of_lower lowers)
          (fun place known => sound.tree.plain_of_mem (sound.working place known)) found
        have noPoint : ∀ part ∈ front ++ [problem.name], part ≠ "." :=
          fun part member => (parts part member).2
        refine .inr ⟨path, rfl, ?_⟩
        dsimp only
        rw [Action.bind_apply]
        unfold FileAction.makeDirectories
        have grown := sound.grown_makeDirectories path
        rcases asked : files.makeDirectories path with ⟨base, result⟩
        rw [asked] at grown
        cases result with
        | error cause => exact .refl base
        | ok _ =>
          dsimp only [Except.mapError] at grown ⊢
          have enters : base.Enterable work := ⟨grown.working.trans enterable.working,
            enterable.reenters_of_extends sound grown.extends_⟩
          rw [Compute.withScratch_apply]
          rcases Compute.makeScratch_cases path base with
            ⟨fault, same⟩ | ⟨name, place, proper, free, made⟩
          · rw [same]
            exact .refl base
          · have further := spells.join proper.solid
            have points : ∀ part ∈ front ++ [problem.name] ++ [name], part ≠ "." :=
              List.forall_mem_append.mpr
                ⟨noPoint, List.forall_mem_singleton.mpr proper.notHere⟩
            have worked := Compute.passing_work grown.sound enters further points free tidy lowers
              quantity identifier
            obtain ⟨left, removed, restored⟩ := worked.removeTree free further.absolute
            rw [made]
            dsimp only
            unfold Compute.discard
            unfold Compute.work at removed
            rw [removed]
            exact restored

end Problem

end Micromag
