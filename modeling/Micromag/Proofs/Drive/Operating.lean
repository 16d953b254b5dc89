import Micromag.Drive.Basic
import Micromag.Proofs.Drive.Failure
import Micromag.Proofs.Drive.Making
import Micromag.Proofs.Drive.Running
import Micromag.Proofs.Lowering.Problem

/-!
# What drives, computations and removals leave behind

A drive that comes so far makes the directory of the next number, and nothing takes that directory
away again, whatever comes of the drive. A drive that does not come so far, and every computation,
leaves the drives as they are. After a removal there are none.
-/

namespace Micromag

open FileSystem

namespace Problem

variable {problem : Problem}

/-- Nothing is computed of a problem whose name is not legal. -/
theorem compute_of_illegal (illegal : isLegalName problem.name = false) (target : Target)
    (quantity : Quantity) (engine : Engine) (options : DriveOptions) (files : FileSystem) :
    (problem.compute target quantity engine options files).2 = files := by
  unfold compute
  rw [Action.bind_apply, Action.lift_apply]
  cases problem.outputIdentifier target quantity options.platform with
  | error fault => rfl
  | ok identifier =>
    dsimp only
    rw [lower_of_illegal illegal]
    rfl

end Problem

namespace Drive

/-- The directory of such a problem is not removed. -/
theorem removeDirectoryOn_of_illegal {name : String} (illegal : Problem.isLegalName name = false)
    (guard : Guard) (directory : String) (silent : Bool) (files : FileSystem) :
    removeDirectoryOn guard directory name silent files =
      (.error (ProblemFault.fault (.illegalName name)), files) := by
  unfold removeDirectoryOn Problem.validateName
  rw [illegal]
  rfl

/-- The directory of a problem with a legal name is removed if it is seen under its path. -/
theorem removeDirectoryOn_apply {name : String} (legal : Problem.isLegalName name = true)
    (guard : Guard) (directory : String) (silent : Bool) (files : FileSystem) :
    removeDirectoryOn guard directory name silent files =
      match problemPath directory name files.workingPlace? with
      | .error fault => (.error fault, files)
      | .ok path =>
        if (guard.visible && files.exists? path) = true then
          ((files.removeStubborn path guard).2.mapError fun cause =>
            cause.fault "IO.PROBLEM_DIR_DELETE" s!"failed to delete {path}",
            (files.removeStubborn path guard).1)
        else if silent = true then (.ok (), files)
        else (.error (.absent "IO.PROBLEM_DIR_MISSING"
          s!"problem directory {path} does not exist"), files) := by
  have accepted : Problem.validateName name = .ok () := if_pos legal
  unfold removeDirectoryOn
  rw [accepted, Action.bind_apply]
  dsimp only [Except.mapError, Action.lift_apply]
  rw [Action.bind_apply, problemDirectory_apply]
  cases problemPath directory name files.workingPlace? with
  | error fault => rfl
  | ok path =>
    dsimp only
    rw [Action.bind_apply, Action.read_apply]
    dsimp only
    split_ifs <;> rfl

end Drive

namespace Drive

variable {intent : Intent} {problem : Problem} {fault : Fault}

/-- Without a script no directory is made. -/
theorem opening_of_lower (options : DriveOptions) (files : FileSystem)
    (refused : problem.lower intent options.settings options.platform = .error fault) :
    opening options intent problem files = (.error fault, files) := by
  unfold opening
  rw [refused]
  rfl

/-- No directory is made for a problem whose name is not legal. -/
theorem opening_of_illegal (illegal : Problem.isLegalName problem.name = false)
    (options : DriveOptions) (intent : Intent) (files : FileSystem) :
    opening options intent problem files =
      (.error (ProblemFault.fault (.illegalName problem.name)), files) :=
  opening_of_lower options files
    (Problem.lower_of_illegal illegal intent options.settings options.platform)

end Drive

namespace Drive.Home

variable {files after : FileSystem} {name : String} {count : Nat} {home : Home}

/-- The working directory is where it was. -/
theorem At.working (stands : home.At count files) : files.workingPlace? = some home.work :=
  stands.elim (fun lacks => lacks.1.working) fun holds => holds.working

/-- The directory of the problem is found as it was at first. -/
theorem At.problemDirectory {directory : String} (stands : home.At count files)
    (found : problemPath directory name (some home.work) = .ok home.path) :
    problemDirectory directory name files = (.ok home.path, files) := by
  rw [problemDirectory_apply, stands.working, found]

/-- A problem with a script gets the directory of the next number, unless there are drives and none
may be added. -/
theorem At.opening_lowered (stands : home.At count files) (fits : count < 2 ^ 64)
    (options : DriveOptions) (intent : Intent) {problem : Problem} {script : LoweredScript}
    (found : problemPath options.directory problem.name (some home.work) = .ok home.path)
    (lowered : problem.lower intent options.settings options.platform = .ok script) :
    Drive.opening options intent problem files =
      if options.append = false ∧ 0 < count then
        (.error ⟨.directoryExists, "RUN.DRIVE_EXISTS",
          s!"{home.path} already holds {count} drive(s); pass append to add another", none⟩, files)
      else
        let directory := Path.join home.path (directoryName count)
        (FileAction.makeDirectories "IO.DRIVE_DIR" directory >>= fun _ =>
          pure ⟨script, count, directory⟩) files := by
  unfold Drive.opening
  rw [lowered, Action.bind_apply, Action.lift_apply]
  dsimp only
  rw [Action.bind_apply, stands.problemDirectory found]
  dsimp only
  rw [Action.bind_apply, (stands.numbered fits.le).nextIndex fits]
  by_cases blocked : options.append = false ∧ 0 < count
  · rw [if_pos blocked, if_pos blocked]
  · rw [if_neg blocked, if_neg blocked]

/-- A drive makes the directory of the next number where none was, or it fails and leaves the drives
as they are. -/
theorem At.opening (stands : home.At count files) (fits : count < 2 ^ 64)
    (options : DriveOptions) (intent : Intent) {problem : Problem}
    (found : problemPath options.directory problem.name (some home.work) = .ok home.path) :
    (∃ script after, opening options intent problem files =
        (.ok ⟨script, count, Path.join home.path (directoryName count)⟩, after) ∧
      files.exists? (Path.join home.path (directoryName count)) = false ∧
      home.Works (count + 1) (directoryName count) after) ∨
    ∃ fault after, opening options intent problem files = (.error fault, after) ∧
      home.At count after := by
  cases lowered : problem.lower intent options.settings options.platform with
  | error fault => exact .inr ⟨fault, files, opening_of_lower options files lowered, stands⟩
  | ok script =>
    rw [stands.opening_lowered fits options intent found lowered]
    by_cases blocked : options.append = false ∧ 0 < count
    · rw [if_pos blocked]
      exact .inr ⟨_, files, rfl, stands⟩
    rw [if_neg blocked, Action.bind_apply]
    unfold FileAction.makeDirectories
    rcases asked : files.makeDirectories (Path.join home.path (directoryName count)) with
      ⟨made, result⟩
    rcases stands.makeDrive fits asked with ⟨rfl, new, holds, hollow⟩ | ⟨failed, still⟩
    · obtain ⟨notHere, notUp⟩ := directoryName_ne fits
      have stood := (holds.drives count (Nat.lt_succ_self _)).1
      exact .inl ⟨script, made, rfl, new,
        ⟨holds, solid_directoryName count, notHere, notUp, stood, hollow⟩⟩
    · cases result with
      | ok _ => exact absurd rfl failed
      | error cause => exact .inr ⟨_, made, rfl, still⟩

/-- A directory in which an engine can run is not made again. -/
theorem Works.makeAgain (works : home.Works count name files) :
    (files.makeDirectories (Path.join home.path name)).1 = files := by
  unfold makeDirectories
  cases checkPath (Path.join home.path name) with
  | error cause => rfl
  | ok _ =>
    dsimp only
    rw [ancestors_child works.solid works.notHere]
    rcases way : files.ensureEach (trail (home.front ++ [home.name])) with ⟨middle, reached⟩
    obtain rfl := works.ensure way
    cases reached with
    | error cause => rw [ensureEach_append_error way]
    | ok _ =>
      rw [ensureEach_append way, ensureEach_singleton]
      unfold ensureDirectory
      cases new : middle.makeDirectory (Path.join home.plainPath name) with
      | ok grown =>
        obtain ⟨free, _⟩ := works.makeDirectory (home.spells_plainPath.join works.solid)
          works.notHere works.notUp new
        rw [works.directory] at free
        cases free
      | error cause => dsimp only

/-- When the directory of a problem is asked for, it is there afterwards or could not be made. -/
theorem At.makeDirectories (stands : home.At count files) {result : Except FileFault Unit}
    (asked : files.makeDirectories home.path = (after, result)) :
    home.At count after ∧ (result = .ok () → home.Holds count after) := by
  unfold FileSystem.makeDirectories at asked
  cases checked : checkPath home.path with
  | error cause =>
    rw [checked] at asked
    obtain ⟨rfl, rfl⟩ := Prod.mk.inj asked
    exact ⟨stands, (nomatch ·)⟩
  | ok _ =>
    have points (part : String) (member : part ∈ home.front ++ [home.name]) : part ≠ "." :=
      (home.parts part member).2
    rw [checked, ancestors_eq home.spells points] at asked
    exact stands.ensure asked

end Drive.Home

namespace Compute

/-- Reading a computed value changes no file. -/
theorem looksOnly_value (directory name identifier : String) (quantity : Quantity) :
    (value directory name identifier quantity).LooksOnly := by
  unfold value
  cases quantity.filePattern? with
  | none =>
    refine (Artifact.looksOnly_readTable _ _).bind fun table => ?_
    cases table.last? identifier with
    | some x => exact Action.looksOnly_pure _
    | none => exact Action.looksOnly_fail _
  | some pattern =>
    refine (Artifact.looksOnly_latest? _ _).bind fun found => ?_
    cases found with
    | some path => exact (Artifact.looksOnly_readField _).bind fun _ => Action.looksOnly_pure _
    | none => exact Action.looksOnly_fail _

/-- An action with a passing directory runs between making it and discarding it. -/
theorem withScratch_apply {α : Type} (parent : String) (action : String → FileAction α)
    (files : FileSystem) : withScratch parent action files =
      match makeScratch parent files with
      | (.error fault, left) => (.error fault, left)
      | (.ok path, made) => ((action path made).1, discard path (action path made).2) := by
  show Action.andThen (makeScratch parent) (fun path files =>
    ((action path files).1, discard path (action path files).2)) files = _
  unfold Action.andThen
  rcases makeScratch parent files with ⟨result, made⟩
  cases result <;> rfl

/-- What is done in the passing directory of a computation. -/
def work (problem : Problem) (quantity : Quantity) (identifier : String) (script : LoweredScript)
    (engine : Engine) (directory : String) : FileAction ComputedValue := do
  let path ← Drive.prepare directory problem.name script
  let output ← Drive.invoke engine directory path
  let _ ← Drive.requireSuccess output path
  value directory problem.name identifier quantity

end Compute

namespace Drive.Home

variable {files after : FileSystem} {name : String} {count : Nat} {home : Home}

/-- The work in a passing directory leaves the drives as they are. -/
theorem Works.work (works : home.Works count name files) {engine : Engine}
    (confined : engine.Confined) (problem : Problem) (quantity : Quantity) (identifier : String)
    (script : LoweredScript) :
    home.Holds count (Compute.work problem quantity identifier script engine
      (Path.join home.path name) files).2 := by
  unfold Compute.work
  rw [prepare_eq, Action.bind_assoc, Action.bind_apply]
  unfold FileAction.makeDirectories
  have again := works.makeAgain
  rcases made : files.makeDirectories (Path.join home.path name) with ⟨same, result⟩
  rw [made] at again
  obtain rfl : same = files := again
  cases result with
  | error cause => exact works.toHolds
  | ok _ =>
    dsimp only [Except.mapError]
    rw [Action.bind_apply]
    have filled := works.keepsGround
      (keepsGround_fill (Path.join home.path name) problem.name script)
    rcases wrote : fill (Path.join home.path name) problem.name script same with ⟨result, middle⟩
    rw [wrote] at filled
    cases result with
    | error fault => exact filled.toHolds
    | ok path =>
      dsimp only at filled ⊢
      have ran := (filled.toHolds.invoke confined filled.solid filled.notHere filled.notUp
        filled.directory filled.hollow path).1
      rw [Action.bind_apply]
      rcases ended : invoke engine (Path.join home.path name) path middle with ⟨result, left⟩
      rw [ended] at ran
      cases result with
      | error fault => exact ran
      | ok output =>
        dsimp only
        rw [Action.bind_apply, Action.lift_apply]
        cases requireSuccess output path with
        | error fault => exact ran
        | ok _ =>
          dsimp only
          rw [Compute.looksOnly_value]
          exact ran

/-- A computation leaves the drives as they are, whatever comes of it. -/
theorem At.compute (stands : home.At count files) (fits : count ≤ 2 ^ 64) (options : DriveOptions)
    {engine : Engine} (confined : engine.Confined) {problem : Problem}
    (found : problemPath options.directory problem.name (some home.work) = .ok home.path)
    (target : Target) (quantity : Quantity) :
    home.At count (problem.compute target quantity engine options files).2 := by
  unfold Problem.compute
  rw [Action.bind_apply, Action.lift_apply]
  cases problem.outputIdentifier target quantity options.platform with
  | error fault => exact stands
  | ok identifier =>
    dsimp only
    rw [Action.bind_apply, Action.lift_apply]
    cases problem.lower Compute.intent (Compute.settingsFor options.settings quantity identifier)
      options.platform with
    | error fault => exact stands
    | ok script =>
      dsimp only
      rw [Action.bind_apply, stands.problemDirectory found]
      dsimp only
      rw [Action.bind_apply]
      unfold FileAction.makeDirectories
      rcases asked : files.makeDirectories home.path with ⟨middle, result⟩
      obtain ⟨still, holds⟩ := stands.makeDirectories asked
      cases result with
      | error cause => exact still
      | ok _ =>
        dsimp only [Except.mapError]
        rw [Compute.withScratch_apply]
        rcases (holds rfl).makeScratch with ⟨fault, same⟩ |
          ⟨name, scratch, made, solid, notHere, notUp, unnumbered, held, stood, hollow⟩
        · rw [same]
          exact .inr (holds rfl)
        · rw [made]
          have worked := Works.work ⟨held, solid, notHere, notUp, stood, hollow⟩ confined problem
            quantity identifier script
          exact .inr (worked.discard fits solid notHere notUp unnumbered)

/-- Removing the directory of a problem leaves no drives, or fails and leaves the files as they
are. -/
theorem At.removeDirectory {directory : String} (stands : home.At count files)
    (legal : Problem.isLegalName name = true)
    (found : problemPath directory name (some home.work) = .ok home.path) (silent : Bool) :
    (∃ after, removeDirectory directory name silent files = (.ok (), after) ∧ home.At 0 after) ∨
      ∃ fault, removeDirectory directory name silent files = (.error fault, files) := by
  unfold Drive.removeDirectory
  rw [removeDirectoryOn_apply legal, stands.working, found]
  dsimp only
  rw [Bool.true_and]
  rcases stands with ⟨lacks, _⟩ | holds
  · rw [lacks.not_exists, if_neg Bool.false_ne_true]
    cases silent with
    | true => exact .inl ⟨files, rfl, .inl ⟨lacks, rfl⟩⟩
    | false => exact .inr ⟨_, rfl⟩
  · obtain ⟨after, removed, lacks⟩ := holds.removeTree
    have finished : files.removeStubborn home.path {} = (after, .ok ()) := by
      unfold removeStubborn removeUntil
      rw [removed]
    rw [exists?_iff.mpr ⟨_, _, holds.locate false⟩, if_pos rfl, finished]
    exact .inl ⟨after, rfl, .inl ⟨lacks, rfl⟩⟩

end Drive.Home

namespace Drive

/-- Taking over a run leaves the files, the name of the problem and its number. -/
theorem hydrate_keeps (directory : String) (session : Session) :
    (hydrate directory session).2.files = session.files ∧
      (hydrate directory session).2.problem.name = session.problem.name ∧
      (hydrate directory session).2.problem.driveNumber = session.problem.driveNumber := by
  rw [hydrate_apply]
  cases takenMagnetisation directory session with
  | error fault => exact ⟨rfl, rfl, rfl⟩
  | ok m =>
    dsimp only
    cases (Artifact.readTable (tablePath directory session.problem) true session.files).1 <;>
      exact ⟨rfl, rfl, rfl⟩

end Drive

namespace Session

variable {session : Session} {options : DriveOptions} {intent : Intent} {fault : Fault}
  {left : FileSystem}

/-- A drive that does not come to making its directory fails, whatever the engine would have
done. -/
theorem drive_of_opening
    (refused : Drive.opening options intent session.problem session.files = (.error fault, left))
    (now : Timestamp) (engine : Engine) :
    Session.drive now engine options intent session =
      (.error fault, { session with files := left }) := by
  rw [drive_apply, Drive.run_eq, Action.bind_apply, refused]

/-- The directory of a problem is removed, and then the number is reset. -/
theorem deleteOn_apply (guard : Guard) (directory : String) (silent : Bool) :
    Session.deleteOn guard directory silent session =
    match Drive.removeDirectoryOn guard directory session.problem.name silent session.files with
    | (.error fault, files) => (.error fault, { session with files })
    | (.ok _, files) => (.ok (), ⟨files, { session.problem with driveNumber := 0 }⟩) := by
  simp only [Session.deleteOn, Action.bind_apply, Action.read_apply, SessionAction.onFiles_apply,
    SessionAction.changeProblem_apply]
  rcases Drive.removeDirectoryOn guard directory session.problem.name silent session.files with
    ⟨result, files⟩
  cases result <;> rfl

/-- So it is on a host that denies nothing. -/
theorem delete_apply (directory : String) (silent : Bool) :
    Session.delete directory silent session =
    match Drive.removeDirectory directory session.problem.name silent session.files with
    | (.error fault, files) => (.error fault, { session with files })
    | (.ok _, files) => (.ok (), ⟨files, { session.problem with driveNumber := 0 }⟩) :=
  deleteOn_apply {} directory silent

end Session

namespace Drive.Home

variable {name : String} {count : Nat} {home : Home} {session after : Session}
  {options : DriveOptions} {intent : Intent}

/-- A drive that comes to making its directory adds one to the drives, whatever comes of it. The
number of the problem tells whether it succeeded. -/
theorem Works.drive {opened : Opened} {made : FileSystem} {engine : Engine}
    (works : home.Works (count + 1) (directoryName count) made)
    (ran : opening options intent session.problem session.files = (.ok opened, made))
    (place : opened.directory = Path.join home.path (directoryName count))
    (confined : engine.Confined) (now : Timestamp) {result : Except Fault DriveOutcome}
    (driven : Session.drive now engine options intent session = (result, after)) :
    home.At (count + 1) after.files ∧ after.problem.name = session.problem.name ∧
      after.problem.driveNumber =
        session.problem.driveNumber + if result.toBool then 1 else 0 := by
  have holds := works.finish confined now intent session.problem opened.index opened.script
  rw [← place] at holds
  rw [Session.drive_apply, Drive.run_eq, Action.bind_apply, ran] at driven
  dsimp only at driven
  rcases ended : Drive.finish now engine intent session.problem opened.index opened.directory
    opened.script made with ⟨outcome, left⟩
  rw [ended] at driven holds
  cases outcome with
  | error fault =>
    obtain ⟨rfl, rfl⟩ := Prod.mk.inj driven
    exact ⟨.inr holds, rfl, rfl⟩
  | ok outcome =>
    dsimp only at driven
    obtain ⟨files, title, number⟩ :=
      hydrate_keeps outcome.directory { session with files := left }
    rcases taken : hydrate outcome.directory { session with files := left } with ⟨taking, last⟩
    rw [taken] at driven files title number
    dsimp only at files title number
    cases taking with
    | error fault =>
      obtain ⟨rfl, rfl⟩ := Prod.mk.inj driven
      exact ⟨.inr (files ▸ holds), title, number⟩
    | ok _ =>
      obtain ⟨rfl, rfl⟩ := Prod.mk.inj driven
      exact ⟨.inr (files ▸ holds), title, congrArg (· + 1) number⟩

end Drive.Home

end Micromag
