import Micromag.Drive.Basic
import Micromag.Proofs.Files.System
import Micromag.Proofs.Result

/-!
# Failed drives

A drive changes the problem of a session in three places: the magnetisation after the snapshot is
read, the table after the table is read, and the number at the end. A failure before the snapshot is
read changes none of them, whatever the engine did to the files. A failure of the table comes too
late for that: the magnetisation is then already that of the snapshot, while the table and the
number are those of the drive before. The main statement says that this is the only way in which a
failed drive leaves a mark on the problem.
-/

namespace Micromag

namespace SessionAction

/-- An action on the files of a session leaves its problem alone. -/
theorem onFiles_apply {α : Type} (action : FileAction α) (session : Session) :
    onFiles action session =
      ((action session.files).1, { session with files := (action session.files).2 }) := rfl

/-- An action that only looks at the files leaves the whole session alone. -/
theorem onFiles_of_looksOnly {α : Type} {action : FileAction α} (looks : action.LooksOnly)
    (session : Session) : onFiles action session = ((action session.files).1, session) := by
  rw [onFiles_apply, looks session.files]

/-- A change of the problem leaves the files alone. -/
theorem changeProblem_apply (f : Problem → Problem) (session : Session) :
    changeProblem f session = (.ok (), { session with problem := f session.problem }) := rfl

end SessionAction

namespace Artifact

/-- Looking for the latest file changes no file. -/
theorem looksOnly_latest? (directory text : String) : (latest? directory text).LooksOnly :=
  (Action.looksOnly_lift _).bind fun _ =>
    (FileAction.looksOnly_look _ _ _).bind fun _ =>
      (Action.looksOnly_read _).bind fun _ => Action.looksOnly_pure _

/-- Reading a field changes no file. -/
theorem looksOnly_readField (path : String) : (readField path).LooksOnly :=
  (FileAction.looksOnly_look _ _ _).bind fun _ => Action.looksOnly_lift _

/-- Reading a table changes no file. -/
theorem looksOnly_readTable (path : String) (rename : Bool) : (readTable path rename).LooksOnly :=
  Action.LooksOnly.bind (FileAction.looksOnly_look _ _ _) fun _ => fun _ => rfl

end Artifact

/-- Taking over values keeps everything else of a field. -/
theorem Field.assign_ok {α : Type} [Scalar α] {field other taken : Field α}
    (assigned : field.assign other = .ok taken) :
    taken = { field with values := other.values } := by
  unfold Field.assign at assigned
  split at assigned
  · exact (Except.ok.inj assigned).symm
  · cases assigned

namespace Drive

/-- Looking for the snapshot changes no file. -/
theorem looksOnly_snapshot (directory name : String) : (snapshot directory name).LooksOnly := by
  refine (Artifact.looksOnly_latest? _ _).bind fun found => ?_
  cases found with
  | none => exact Action.looksOnly_fail _
  | some path => exact Action.looksOnly_pure _

/-- The path of the table of a problem in the directory of a drive. -/
def tablePath (directory : String) (problem : Problem) : String :=
  Path.join directory (problem.name ++ ".odt")

/-- The magnetisation that a problem takes over from the snapshot in a directory. -/
def takenMagnetisation (directory : String) (session : Session) : Except Fault (Field Float) := do
  let path ← (snapshot directory session.problem.name session.files).1
  let found ← (Artifact.readField path session.files).1
  (session.problem.m.assign found).mapError FieldFault.fault

/-- What is taken over differs from the magnetisation before in its values only. -/
theorem takenMagnetisation_ok {directory : String} {session : Session} {m : Field Float}
    (taken : takenMagnetisation directory session = .ok m) :
    m = { session.problem.m with values := m.values } := by
  obtain ⟨path, _, taken⟩ := Result.bind_ok.mp taken
  obtain ⟨found, _, taken⟩ := Result.bind_ok.mp taken
  rw [Field.assign_ok (Result.mapError_ok.mp taken)]

/-- Taking over a run reads the snapshot and then the table; the problem changes after each. -/
theorem hydrate_apply (directory : String) (session : Session) :
    hydrate directory session =
      match takenMagnetisation directory session with
      | .error fault => (.error fault, session)
      | .ok m =>
        match (Artifact.readTable (tablePath directory session.problem) true session.files).1 with
        | .error fault => (.error fault, { session with problem := { session.problem with m } })
        | .ok table =>
          (.ok (),
            { session with problem := { session.problem with m, table := some table } }) := by
  simp only [hydrate, takenMagnetisation, Action.bind_apply, Action.read_apply,
    SessionAction.onFiles_of_looksOnly (looksOnly_snapshot _ _)]
  cases (snapshot directory session.problem.name session.files).1 with
  | error fault => rfl
  | ok path =>
    simp only [SessionAction.onFiles_of_looksOnly (Artifact.looksOnly_readField _)]
    cases read : (Artifact.readField path session.files).1 with
    | error fault => simp [read, bind, Except.bind]
    | ok found =>
      simp only [Action.lift_apply]
      cases assigned : session.problem.m.assign found with
      | error fault => simp [read, assigned, bind, Except.bind, Except.mapError]
      | ok m =>
        simp only [Except.mapError, SessionAction.changeProblem_apply,
          SessionAction.onFiles_of_looksOnly (Artifact.looksOnly_readTable _ _)]
        simp only [read, assigned, bind, Except.bind, tablePath]
        cases (Artifact.readTable (Path.join directory (session.problem.name ++ ".odt")) true
          session.files).1 <;> rfl

end Drive

namespace Session

variable {now : Timestamp} {engine : Engine} {options : DriveOptions} {intent : Intent}
  {session after : Session} {fault : Fault} {m : Field Float}

/-- The run of a drive succeeds and `m` is taken over from its snapshot, but its table is
refused. -/
def DrivesWithoutTable (session : Session) (now : Timestamp) (engine : Engine)
    (options : DriveOptions) (intent : Intent) (m : Field Float) (fault : Fault) : Prop :=
  ∃ outcome files,
    Drive.run now engine options intent session.problem session.files = (.ok outcome, files) ∧
      Drive.takenMagnetisation outcome.directory { session with files } = .ok m ∧
      (Artifact.readTable (Drive.tablePath outcome.directory session.problem) true files).1 =
        .error fault

/-- A drive is a run, then the taking over of what it wrote, then the counting. -/
theorem drive_apply : Session.drive now engine options intent session =
    match Drive.run now engine options intent session.problem session.files with
    | (.error fault, files) => (.error fault, { session with files })
    | (.ok outcome, files) =>
      match Drive.hydrate outcome.directory { session with files } with
      | (.error fault, taken) => (.error fault, taken)
      | (.ok _, taken) =>
        (.ok outcome, { taken with
          problem := { taken.problem with driveNumber := taken.problem.driveNumber + 1 } }) := by
  simp only [Session.drive, Action.bind_apply, Action.read_apply, SessionAction.onFiles_apply,
    SessionAction.changeProblem_apply, Action.pure_apply]
  rcases Drive.run now engine options intent session.problem session.files with ⟨result, files⟩
  cases result with
  | error fault => rfl
  | ok outcome =>
    dsimp only
    rcases Drive.hydrate outcome.directory { session with files } with ⟨taking, taken⟩
    cases taking <;> rfl

/-- A failed drive either leaves the problem as it was, and then it is no drive without a table, or
it is one and leaves the magnetisation of its snapshot behind. -/
theorem drive_error_cases
    (failed : Session.drive now engine options intent session = (.error fault, after)) :
    (after.problem = session.problem ∧
        ∀ m, ¬session.DrivesWithoutTable now engine options intent m fault) ∨
      ∃ m, session.DrivesWithoutTable now engine options intent m fault ∧
        after.problem = { session.problem with m } := by
  rw [drive_apply] at failed
  rcases ran : Drive.run now engine options intent session.problem session.files with
    ⟨result, files⟩
  rw [ran] at failed
  cases result with
  | error other =>
    cases failed
    refine .inl ⟨rfl, fun m ⟨_, _, succeeded, _, _⟩ => ?_⟩
    rw [ran] at succeeded
    cases succeeded
  | ok outcome =>
    dsimp only at failed
    rw [Drive.hydrate_apply] at failed
    cases taken : Drive.takenMagnetisation outcome.directory { session with files } with
    | error other =>
      rw [taken] at failed
      cases failed
      refine .inl ⟨rfl, fun m ⟨_, _, same, accepted, _⟩ => ?_⟩
      rw [ran] at same
      cases same
      rw [taken] at accepted
      cases accepted
    | ok m =>
      rw [taken] at failed
      dsimp only at failed
      cases refused : (Artifact.readTable
          (Drive.tablePath outcome.directory session.problem) true files).1 with
      | error other =>
        rw [refused] at failed
        cases failed
        exact .inr ⟨m, ⟨outcome, files, ran, taken, refused⟩, rfl⟩
      | ok table =>
        rw [refused] at failed
        cases failed

/-- Only the values of the magnetisation can differ in a drive without a table. -/
theorem DrivesWithoutTable.m_eq
    (refused : session.DrivesWithoutTable now engine options intent m fault) :
    m = { session.problem.m with values := m.values } := by
  obtain ⟨_, _, _, taken, _⟩ := refused
  have kept := Drive.takenMagnetisation_ok taken
  exact kept

/-- A drive without a table takes over one magnetisation. -/
theorem DrivesWithoutTable.unique {other : Field Float}
    (refused : session.DrivesWithoutTable now engine options intent m fault)
    (again : session.DrivesWithoutTable now engine options intent other fault) : m = other := by
  obtain ⟨_, _, ran, taken, _⟩ := refused
  obtain ⟨_, _, same, takenAgain, _⟩ := again
  rw [ran] at same
  cases same
  rw [taken] at takenAgain
  exact Except.ok.inj takenAgain

/-- A failed drive keeps everything of a problem but perhaps the values of its magnetisation. These
change exactly when the run succeeded and its snapshot was taken over before its table was refused,
and they are then those of the snapshot. -/
theorem problem_of_failed_drive
    (failed : Session.drive now engine options intent session = (.error fault, after)) :
    after.problem.table = session.problem.table ∧
      after.problem.driveNumber = session.problem.driveNumber ∧
      after.problem = { session.problem with
        m := { session.problem.m with values := after.problem.m.values } } ∧
      (after.problem ≠ session.problem ↔
        ∃ m, session.DrivesWithoutTable now engine options intent m fault ∧
          m.values ≠ session.problem.m.values) ∧
      ∀ m, session.DrivesWithoutTable now engine options intent m fault →
        after.problem.m.values = m.values := by
  rcases drive_error_cases failed with ⟨kept, never⟩ | ⟨m, refused, left⟩
  · rw [kept]
    refine ⟨rfl, rfl, rfl, ⟨fun changed => absurd rfl changed, ?_⟩, fun m refused => ?_⟩
    · rintro ⟨m, refused, _⟩
      exact absurd refused (never m)
    · exact absurd refused (never m)
  · have values : after.problem.m = m := by rw [left]
    refine ⟨by rw [left], by rw [left], ?_, ?_, fun other again => ?_⟩
    · rw [values, ← refused.m_eq, left]
    · rw [left]
      constructor
      · intro changed
        refine ⟨m, refused, fun same => changed ?_⟩
        have back := refused.m_eq
        rw [same] at back
        rw [back]
      · rintro ⟨other, again, differ⟩ same
        rw [← refused.unique again] at differ
        exact differ (congrArg (fun problem => problem.m.values) same)
    · rw [values, refused.unique again]

/-- A problem without energy on one cell that was never driven. -/
def undriven : Session where
  files := {}
  problem := {
    name := "p"
    m := {
      mesh := { region := ⟨.fill 0, .fill 1⟩, cell := .fill 1 }
      dim := 3
      values := [0, 0, 1] } }

/-- An engine that writes one snapshot with another vector, and no table. -/
def snapshotEngine : Engine := fun _ => do
  let lines := ["# oommf ovf 2", "# xmin:0", "# ymin:0", "# zmin:0", "# xmax:1", "# ymax:1",
    "# zmax:1", "# xstepsize:1", "# ystepsize:1", "# zstepsize:1", "# begin:data text", "0 0 2"]
  FileAction.change "IO.SNAPSHOT" "failed to write a snapshot" fun files =>
    files.writeFile "p-1.omf" (lines.flatMap fun line => Text.Utf8.encode (line.toList ++ ['\n']))
  return {}

/-- A run that ends with success but without a table fails as a drive and still replaces the
magnetisation, while the table and the number stay those of the drive before. -/
theorem undriven_failed_drive :
    ∃ fault after, Session.drive ⟨2020, 1, 1, 0, 0, 0⟩ snapshotEngine {} { goal := .minimise }
        undriven = (.error fault, after) ∧
      after.problem.m.values = [0, 0, 2] ∧ undriven.problem.m.values = [0, 0, 1] ∧
      after.problem.table = none ∧ after.problem.driveNumber = 0 := by
  have ran : (Session.drive ⟨2020, 1, 1, 0, 0, 0⟩ snapshotEngine {} { goal := .minimise }
        undriven).1.toBool = false ∧
      (Session.drive ⟨2020, 1, 1, 0, 0, 0⟩ snapshotEngine {} { goal := .minimise }
        undriven).2.problem.m.values = [0, 0, 2] := by
    decide +kernel
  rcases failed : Session.drive ⟨2020, 1, 1, 0, 0, 0⟩ snapshotEngine {} { goal := .minimise }
    undriven with ⟨result, after⟩
  rw [failed] at ran
  cases result with
  | ok outcome => cases ran.1
  | error fault =>
    obtain ⟨table, number, _⟩ := problem_of_failed_drive failed
    exact ⟨fault, after, rfl, ran.2, rfl, table, number⟩

end Session

end Micromag
