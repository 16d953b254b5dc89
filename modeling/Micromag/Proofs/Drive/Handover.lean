import Micromag.Proofs.Drive.Accounting
import Micromag.Proofs.Drive.Snapshot

/-!
# One drive after the other

Drives leave sound files behind, and a magnetisation with as many values as there were, whatever
comes of them. So what holds of one drive holds of every drive in a row: the engine finds the
magnetisation that the drive before took over, and what it leaves is taken over. This needs the
directory of the drive to be made where nothing was, as it is unless the numbers of drives are used
up or the path goes back from a directory that was not there.
-/

namespace Micromag

open FileSystem

/-! ## Sound files -/

/-- Changing the working directory keeps files sound. -/
theorem WorkingDir.keepsSound_enter (path : String) : FileAction.KeepsSound (enter path) := by
  refine (FileAction.KeepsSound.of_looksOnly (FileAction.looksOnly_look _ _ _)).bind fun _ => ?_
  refine FileAction.KeepsSound.bind (.change fun files after sound changed => ?_) fun _ =>
    .of_looksOnly (Action.looksOnly_pure _)
  obtain ⟨place, serial, leads, numbered, rfl⟩ := changeDirectory_ok.mp changed
  exact (sound_enter sound.tree (node_of_locate (directoryOf_ok.mp leads)).symm numbered).1

namespace Drive

open FileAction

variable {files : FileSystem} {options : DriveOptions} {intent : Intent} {problem : Problem}
  {now : Timestamp} {engine : Engine}

/-- A run of an engine that leaves sound files leaves sound files. -/
theorem keepsSound_invoke (keeps : engine.KeepsSound) (directory script : String) :
    KeepsSound (invoke engine directory script) := by
  intro files sound
  have entering := WorkingDir.keepsSound_enter directory files sound
  unfold invoke
  rw [WorkingDir.within_apply]
  rcases entered : WorkingDir.enter directory files with ⟨result, inside⟩
  rw [entered] at entering
  cases result with
  | error fault => exact entering
  | ok previous => exact (leave_files previous _).2 (keeps script inside entering)

/-- What follows when the directory of a drive was made leaves sound files. -/
theorem keepsSound_finish (keeps : engine.KeepsSound) (now : Timestamp) (intent : Intent)
    (problem : Problem) (index : Nat) (directory : String) (script : LoweredScript) :
    KeepsSound (finish now engine intent problem index directory script) := by
  refine (KeepsSound.of_keepsGround (keepsGround_fill _ _ _)).bind fun path => ?_
  refine (keepsSound_invoke keeps directory path).attempt.bind fun output => ?_
  refine (KeepsSound.of_keepsGround (keepsGround_writeManifest _ _)).attempt.bind
    fun manifested => .of_looksOnly ?_
  cases manifested with
  | error fault => cases output <;> exact Action.looksOnly_fail _
  | ok _ =>
    cases output with
    | error fault => exact Action.looksOnly_fail _
    | ok output => exact (Action.looksOnly_lift _).bind fun _ => Action.looksOnly_pure _

/-- Making the directory of a drive leaves sound files, whether it can be made or not. -/
theorem keepsSound_opening (options : DriveOptions) (intent : Intent) (problem : Problem) :
    KeepsSound (opening options intent problem) := by
  have made (path : String) : KeepsSound (FileAction.makeDirectories "IO.DRIVE_DIR" path) :=
    fun files sound => (sound.grown_makeDirectories path).sound
  refine (KeepsSound.of_looksOnly (Action.looksOnly_lift _)).bind fun _ => ?_
  refine (KeepsSound.of_looksOnly (looksOnly_problemDirectory _ _)).bind fun _ => ?_
  refine (KeepsSound.of_looksOnly (looksOnly_nextIndex _ _)).bind fun _ => ?_
  exact (made _).bind fun _ => .of_looksOnly (Action.looksOnly_pure _)

/-- A run of a drive leaves sound files. -/
theorem keepsSound_run (keeps : engine.KeepsSound) (now : Timestamp) (options : DriveOptions)
    (intent : Intent) (problem : Problem) : KeepsSound (run now engine options intent problem) := by
  rw [run_eq]
  exact (keepsSound_opening options intent problem).bind fun opened =>
    keepsSound_finish keeps now intent problem opened.index opened.directory opened.script

end Drive

/-! ## The number of values -/

/-- A field that is read from a file is usable. -/
theorem FieldFile.usable_of_read {bytes : List UInt8} {found : Field Float}
    (read : FieldFile.read bytes = .ok found) : found.Usable := by
  obtain ⟨header, _, accepted⟩ := Result.bind_ok.mp read
  rw [readField_eq] at accepted
  obtain ⟨shape, _, accepted⟩ := Result.bind_ok.mp accepted
  obtain ⟨values, _, accepted⟩ := Result.bind_ok.mp accepted
  exact (Field.make_ok_iff.mp (Result.mapError_ok.mp accepted)).2

/-- Fields of one shape need the same number of values. -/
theorem Field.needed_of_assign {field other taken : Field Float}
    (assigned : field.assign other = .ok taken) : other.needed = field.needed := by
  unfold Field.assign at assigned
  split at assigned
  · rename_i same
    obtain ⟨dim, counts⟩ := Bool.and_eq_true_iff.mp same
    have along (axis : Axis) : other.mesh.count axis = field.mesh.count axis := by
      rw [← Mesh.counts_along, ← Mesh.counts_along, of_decide_eq_true counts]
    unfold needed Mesh.cellCount
    rw [of_decide_eq_true dim, along, along, along]
  · cases assigned

namespace Drive

/-- The magnetisation that is taken over is usable if the one before was. -/
theorem usable_of_takenMagnetisation {directory : String} {session : Session} {m : Field Float}
    (usable : session.problem.m.Usable) (taken : takenMagnetisation directory session = .ok m) :
    m.Usable := by
  obtain ⟨path, _, rest⟩ := Result.bind_ok.mp taken
  obtain ⟨found, read, assigned⟩ := Result.bind_ok.mp rest
  have accepted := Result.mapError_ok.mp assigned
  obtain ⟨bytes, _, parsed⟩ := (FileAction.looksOnly_look _ _ _).bind_ok.mp
    (((Artifact.looksOnly_readField path).apply session.files).trans
      (congrArg (·, session.files) read))
  have valid := FieldFile.usable_of_read (Result.mapError_ok.mp (Prod.mk.inj parsed).1)
  rw [Field.assign_ok accepted]
  exact ⟨usable.components, valid.length.trans (Field.needed_of_assign accepted), valid.finite⟩

/-- The magnetisation that is taken over has as many values as the one before. -/
theorem length_of_takenMagnetisation {directory : String} {session : Session} {m : Field Float}
    (usable : session.problem.m.Usable) (taken : takenMagnetisation directory session = .ok m) :
    m.values.length = session.problem.m.values.length := by
  have length := (usable_of_takenMagnetisation usable taken).length
  rw [takenMagnetisation_ok taken] at length
  exact length.trans usable.length.symm

/-! ## Drives in a row -/

/-- A drive that is asked for. -/
structure Request where
  /-- When it begins. -/
  now : Timestamp
  /-- The engine that it runs. -/
  engine : Engine
  /-- How it is carried out. -/
  options : DriveOptions := {}
  /-- What it is for. -/
  intent : Intent

end Drive

namespace Session

open Drive

variable {session after : Session} {now : Timestamp} {engine : Engine} {options : DriveOptions}
  {intent : Intent} {request : Request}

/-- Carry out a drive that is asked for. -/
def serve (request : Request) : SessionAction DriveOutcome :=
  Session.drive request.now request.engine request.options request.intent

/-- The session after drives one after the other, whatever comes of each. -/
def afterDrives (session : Session) (requests : List Request) : Session :=
  requests.foldl (fun session request => (serve request session).2) session

/-- Whether drives one after the other fail and take over no magnetisation. -/
def FailEmpty (session : Session) : List Request → Prop
  | [] => True
  | request :: rest =>
    (∃ fault after, serve request session = (.error fault, after) ∧
      ∀ m, ¬session.DrivesWithoutTable request.now request.engine request.options request.intent m
        fault) ∧
    FailEmpty (serve request session).2 rest

/-- Such drives leave the problem as it was. -/
theorem FailEmpty.problem {requests : List Request} (failed : session.FailEmpty requests) :
    (session.afterDrives requests).problem = session.problem := by
  induction requests generalizing session with
  | nil => rfl
  | cons request rest ih =>
    obtain ⟨⟨fault, after, ran, never⟩, further⟩ := failed
    have step : (serve request session).2.problem = session.problem := by
      rw [ran]
      rcases drive_error_cases ran with ⟨kept, -⟩ | ⟨m, refused, -⟩
      · exact kept
      · exact absurd refused (never m)
    exact (ih further).trans step

/-- The magnetisation that a run of a problem leaves to be taken over has as many values as that of
the problem. -/
theorem length_of_run {files : FileSystem} {outcome : DriveOutcome} {m : Field Float}
    (ran : Drive.run now engine options intent session.problem session.files = (.ok outcome, files))
    (taken : takenMagnetisation outcome.directory { session with files } = .ok m) :
    m.values.length = session.problem.m.values.length := by
  obtain ⟨staged, entered, began⟩ := staged_of_run ran
  have usable := (usable_of_lower (lower_of_staging began)).2.usable
  have same : m.values.length = ({ session with files } : Session).problem.m.values.length :=
    length_of_takenMagnetisation (Field.validate_ok_iff.mp usable) taken
  exact same

/-- A drive leaves sound files and a magnetisation with as many values, whatever comes of it. -/
theorem serve_keeps (sound : session.files.Sound) (keeps : request.engine.KeepsSound) :
    (serve request session).2.files.Sound ∧
      (serve request session).2.problem.m.values.length = session.problem.m.values.length := by
  unfold serve
  constructor
  · have ran := keepsSound_run keeps request.now request.options request.intent session.problem
      session.files sound
    rw [drive_apply]
    rcases ended : Drive.run request.now request.engine request.options request.intent
      session.problem session.files with ⟨result, files⟩
    rw [ended] at ran
    cases result with
    | error fault => exact ran
    | ok outcome =>
      dsimp only
      have same := (hydrate_keeps outcome.directory { session with files }).1
      rcases took : hydrate outcome.directory { session with files } with ⟨taking, taken⟩
      rw [took] at same
      cases taking <;> exact same ▸ ran
  · rcases driven : Session.drive request.now request.engine request.options request.intent session
      with ⟨result, after⟩
    cases result with
    | ok outcome =>
      obtain ⟨files, m, table, ran, taken, -, rfl⟩ := drive_ok.mp driven
      exact length_of_run ran taken
    | error fault =>
      rcases drive_error_cases driven with ⟨kept, -⟩ | ⟨m, ⟨outcome, files, ran, taken, -⟩, left⟩
      · dsimp only
        rw [kept]
      · dsimp only
        rw [left]
        exact length_of_run ran taken

/-- Drives in a row do the same. -/
theorem afterDrives_keeps (sound : session.files.Sound) {requests : List Request}
    (keeps : ∀ request ∈ requests, request.engine.KeepsSound) :
    (session.afterDrives requests).files.Sound ∧
      (session.afterDrives requests).problem.m.values.length =
        session.problem.m.values.length := by
  induction requests generalizing session with
  | nil => exact ⟨sound, rfl⟩
  | cons request rest ih =>
    obtain ⟨first, others⟩ := List.forall_mem_cons.mp keeps
    obtain ⟨kept, size⟩ := serve_keeps sound first
    obtain ⟨last, same⟩ := ih kept others
    exact ⟨last, same.trans size⟩

/-- What the engine of a drive is given and what is taken over from it. Either the engine is not
reached, or it runs in the directory of the drive. If that was made where nothing was, the engine
finds the magnetisation of the problem there, and if the drive succeeds, the problem has the values
of the latest magnetisation that the engine wrote there, and the table that it left there. -/
structure Hands (session : Session) (request : Request) : Prop where
  /-- Where the engine is not reached, the drive comes to the same whatever the engine. -/
  unreached : ∀ fault left,
    staging request.options request.intent session.problem session.files = (.error fault, left) →
      ∃ told last, ∀ engine,
        Session.drive request.now engine request.options request.intent session =
          (.error told, { session with files := last })
  /-- Where it is reached, nothing but what it does then depends on it, and the directory is a new
  one if the drive is fresh. -/
  reached : ∀ staged entered,
    staging request.options request.intent session.problem session.files = (.ok staged, entered) →
      (∀ engine, Drive.run request.now engine request.options request.intent session.problem
        session.files = closing request.now request.intent staged (engine staged.path entered).1
          (engine staged.path entered).2) ∧
      ∃ place, entered.workingPlace? = some place ∧
        (Fresh request.options session.problem.name session.files →
          session.files.tree.nodeAt? place = none) ∧
        (session.files.tree.nodeAt? place ≠ none →
          session.files.tree.nodeAt? place = some .directory)
  /-- The engine finds the magnetisation in a new directory. -/
  finds : ∀ staged entered place,
    staging request.options request.intent session.problem session.files = (.ok staged, entered) →
      entered.workingPlace? = some place → session.files.tree.nodeAt? place = none →
        Drive.ReadsBack session.problem.m (Path.join staged.directory "m0.omf") entered
  /-- What it wrote there is taken over. -/
  takes : ∀ staged entered place outcome after,
    staging request.options request.intent session.problem session.files = (.ok staged, entered) →
      entered.workingPlace? = some place → session.files.tree.nodeAt? place = none →
        serve request session = (.ok outcome, after) →
          outcome.directory = staged.directory ∧ ∃ name found table,
            Takes session.problem staged entered (request.engine staged.path entered).2 name
              found ∧
            (Artifact.readTable (tablePath staged.directory session.problem) true
              after.files).1 = .ok table ∧
            after.problem = { session.problem with
              m := { session.problem.m with values := found.values }
              table := some table
              driveNumber := session.problem.driveNumber + 1 }

/-- One drive of a problem whose magnetisation fits memory hands it to the engine and takes over what
the engine wrote. -/
theorem hands (sound : session.files.Sound) (keeps : request.engine.KeepsSound)
    (memory : 8 * session.problem.m.values.length + 9 < 2 ^ 63) : session.Hands request where
  unreached fault left failed := by
    obtain ⟨told, last, same⟩ := run_of_unstaged failed request.now
    refine ⟨told, last, fun engine => ?_⟩
    rw [drive_apply, same]
  reached staged entered began := by
    refine ⟨run_of_staged began request.now, ?_⟩
    obtain ⟨place, working, -, -, occupied, free⟩ := staging_ok sound began
    exact ⟨place, working, free, occupied⟩
  finds staged entered place began working free := by
    obtain ⟨other, known, -, laid, -⟩ := staging_ok sound began
    obtain rfl := Option.some.inj (known.symm.trans working)
    exact (laid free).readsBack (lower_of_staging began) memory
  takes staged entered place outcome after began working free driven := by
    obtain ⟨other, known, -, laid, -⟩ := staging_ok sound began
    obtain rfl := Option.some.inj (known.symm.trans working)
    exact takes_of_drive began (laid free) keeps driven

/-- In every run of drives, whatever comes of each, each drive hands the magnetisation to the engine
and takes over what the engine wrote. After a drive that succeeded and any that failed without taking
over a magnetisation, the engine of the next drive finds what was taken over. -/
theorem magnetisation_handed_over (sound : session.files.Sound)
    (memory : 8 * session.problem.m.values.length + 9 < 2 ^ 63) {requests before rest : List Request}
    (keeps : ∀ request ∈ requests, request.engine.KeepsSound)
    (split : requests = before ++ request :: rest) :
    (session.afterDrives before).Hands request ∧
      ∀ outcome after between next later,
        serve request (session.afterDrives before) = (.ok outcome, after) →
          rest = between ++ next :: later → after.FailEmpty between →
            ∀ staged entered place,
              staging next.options next.intent (after.afterDrives between).problem
                  (after.afterDrives between).files = (.ok staged, entered) →
                entered.workingPlace? = some place →
                  (after.afterDrives between).files.tree.nodeAt? place = none →
                    Drive.ReadsBack after.problem.m (Path.join staged.directory "m0.omf") entered := by
  obtain ⟨first, others⟩ := List.forall_mem_append.mp (split ▸ keeps)
  obtain ⟨own, further⟩ := List.forall_mem_cons.mp others
  obtain ⟨kept, size⟩ := afterDrives_keeps sound first
  refine ⟨hands kept own (size ▸ memory), ?_⟩
  rintro outcome after between next later driven rfl failed staged entered place began working free
  obtain ⟨middle, last⟩ := List.forall_mem_append.mp further
  obtain ⟨served, same⟩ := serve_keeps kept own
  rw [driven] at served same
  obtain ⟨still, number⟩ := afterDrives_keeps served middle
  have fits : 8 * (after.afterDrives between).problem.m.values.length + 9 < 2 ^ 63 := by
    rw [number, same, size]
    exact memory
  have found := (hands still (last next List.mem_cons_self) fits).finds staged entered place began
    working free
  rwa [failed.problem] at found

/-- A drive for a minimum with an engine that writes a snapshot and a table. -/
def someRequest : Request where
  now := ⟨2020, 1, 1, 0, 0, 0⟩
  engine := Account.tableEngine
  intent := { goal := .minimise }

/-- A problem whose magnetisation has a value that is in no cell, since the number of its cells
exceeds a word. -/
def wrappedSession : Session where
  files := {}
  problem := { name := "p", m := FieldFile.wrapped }

/-- The second drive of a problem gives the engine the magnetisation that the first took over. The
magnetisation with a value in no cell is not given to the engine. -/
theorem someRequest_handed_over :
    (∃ outcome after staged entered, serve someRequest undriven = (.ok outcome, after) ∧
      staging {} someRequest.intent after.problem after.files = (.ok staged, entered) ∧
      after.problem.m.values = [0, 0, 2] ∧
      Drive.ReadsBack after.problem.m (Path.join staged.directory "m0.omf") entered) ∧
    ∃ staged entered found,
      staging {} someRequest.intent wrappedSession.problem wrappedSession.files =
        (.ok staged, entered) ∧
      (Artifact.readField (Path.join staged.directory "m0.omf") entered).1 = .ok found ∧
      found.values ≠ wrappedSession.problem.m.values := by
  have keeps : someRequest.engine.KeepsSound := fun _ =>
    .of_keepsGround (Account.keepsGround_tableEngine _)
  constructor
  · have ran : (serve someRequest undriven).1.toBool = true ∧
        (serve someRequest undriven).2.problem.m.values = [0, 0, 2] := by decide +kernel
    have next : (staging {} someRequest.intent (serve someRequest undriven).2.problem
          (serve someRequest undriven).2.files).1.toBool = true ∧
        (staging {} someRequest.intent (serve someRequest undriven).2.problem
          (serve someRequest undriven).2.files).2.workingPlace? = some ["p", "drive-1"] ∧
        (serve someRequest undriven).2.files.tree.nodeAt? ["p", "drive-1"] = none := by
      decide +kernel
    rcases served : serve someRequest undriven with ⟨result, after⟩
    rw [served] at ran next
    dsimp only at ran next
    obtain ⟨outcome, rfl⟩ := FileSystem.toBool_iff.mp ran.1
    rcases began : staging {} someRequest.intent after.problem after.files with ⟨result, entered⟩
    rw [began] at next
    dsimp only at next
    obtain ⟨staged, rfl⟩ := FileSystem.toBool_iff.mp next.1
    refine ⟨outcome, after, staged, entered, rfl, began, ran.2, ?_⟩
    have both : ∀ request ∈ [someRequest, someRequest], request.engine.KeepsSound := by
      simpa using keeps
    have sound : undriven.files.Sound := .empty
    have split : [someRequest, someRequest] = [] ++ someRequest :: [someRequest] := rfl
    have handed := magnetisation_handed_over sound (by decide) both split
    exact handed.2 outcome after [] someRequest [] served rfl trivial staged entered _ began
      next.2.1 next.2.2
  · have next : (staging {} someRequest.intent wrappedSession.problem
          wrappedSession.files).1.toBool = true ∧
        (staging {} someRequest.intent wrappedSession.problem
          wrappedSession.files).2.workingPlace? = some ["p", "drive-0"] ∧
        wrappedSession.files.tree.nodeAt? ["p", "drive-0"] = none := by
      decide +kernel
    rcases began : staging {} someRequest.intent wrappedSession.problem wrappedSession.files with
      ⟨result, entered⟩
    rw [began] at next
    dsimp only at next
    obtain ⟨staged, rfl⟩ := FileSystem.toBool_iff.mp next.1
    have sound : wrappedSession.files.Sound := .empty
    have split : [someRequest] = [] ++ someRequest :: [] := rfl
    have handed := magnetisation_handed_over sound (by decide) (List.forall_mem_singleton.mpr keeps)
      split
    obtain ⟨found, read, same, -⟩ := handed.1.finds staged entered _ began next.2.1 next.2.2
    refine ⟨staged, entered, found, rfl, read, fun equal => ?_⟩
    have other : FieldFile.wrapped.values.drop
        (FieldFile.wrapped.values.length - FieldFile.loose FieldFile.wrapped) ≠
          FieldFile.readWords FieldFile.double .little (FieldFile.loose FieldFile.wrapped)
            FieldFile.footer := by decide
    exact other (same.mp equal)

end Session

end Micromag
