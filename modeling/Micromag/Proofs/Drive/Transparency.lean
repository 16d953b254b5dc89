import Micromag.Proofs.Drive.Course

/-!
# Computations between drives

A computation leaves the problem, and every file of it, as they were, whatever comes of it: nothing
new is there but the directory of the problem, empty, with the directories on the way to it. So
computations may be put between drives or left out, and each drive has the same number, gives its
engine the same script and leaves the same problem.
-/

namespace Micromag

open FileSystem

/-- A computation that is asked for. -/
structure Compute.Request where
  /-- What it is of. -/
  target : Target
  /-- The quantity. -/
  quantity : Quantity
  /-- The engine that it runs. -/
  engine : Engine
  /-- How it is carried out. -/
  options : DriveOptions := {}

/-- What may be asked of a session. -/
inductive Call where
  /-- A drive. -/
  | drive (request : Drive.Request)
  /-- A computation. -/
  | compute (request : Compute.Request)

namespace Call

/-- Whether a call is for a drive. -/
def isDrive : Call → Bool
  | drive _ => true
  | compute _ => false

/-- The directory that holds the directories of problems. -/
def directory : Call → String
  | drive request => request.options.directory
  | compute request => request.options.directory

/-- What is asked of the engine of a call: that of a drive does not see numbers and takes away no
directory and no link, and that of a computation changes nothing beside its directory. -/
def Fits : Call → Prop
  | drive request => request.engine.Blind ∧ request.engine.KeepsPaths
  | compute request => request.engine.Tidy

end Call

/-- What a drive shows. -/
structure DriveReport where
  /-- Its result, with its number. -/
  outcome : Except Fault DriveOutcome
  /-- What was made for the engine, and the script that it finds, if it is reached. -/
  handed : Option (Drive.Staged × Except FileFault (List UInt8))
  /-- The problem afterwards. -/
  problem : Problem

namespace Session

open Drive

variable {session other : Session} {request : Drive.Request} {directory path name : String}
  {work : Place} {names : List String}

/-- Carry out a computation that is asked for. -/
def compute (request : Compute.Request) : SessionAction ComputedValue := do
  let problem ← Action.read Session.problem
  SessionAction.onFiles
    (problem.compute request.target request.quantity request.engine request.options)

/-- The report of a drive. -/
def report (session : Session) (request : Drive.Request) : DriveReport where
  outcome := (serve request session).1
  handed :=
    match staging request.options request.intent session.problem session.files with
    | (.ok staged, entered) => some (staged, entered.contentOf staged.path)
    | (.error _, _) => none
  problem := (serve request session).2.problem

/-- The session after a call, whatever comes of it. -/
def afterCall (session : Session) : Call → Session
  | .drive request => (serve request session).2
  | .compute request => (compute request session).2

/-- The session after calls one after the other. -/
def afterCalls (session : Session) (calls : List Call) : Session := calls.foldl afterCall session

/-- The reports of the drives among calls one after the other. -/
def reports (session : Session) : List Call → List DriveReport
  | [] => []
  | .drive request :: rest =>
    session.report request :: reports (session.afterCall (.drive request)) rest
  | .compute request :: rest => reports (session.afterCall (.compute request)) rest

/-- What a computation leaves of a session, where `path` is the path of the directory of the
problem. -/
structure Untouched (path : String) (before after : Session) : Prop where
  /-- The problem is the same. -/
  problem : after.problem = before.problem
  /-- Every entry is there as it was, and new ones are directories. -/
  kept : ∃ new, after.files.tree.entries = before.files.tree.entries ++ new ∧
    ∀ entry ∈ new, entry.node = .directory
  /-- The new ones are those that are made when the directory of the problem is asked for, if there
  are any. -/
  made : after.files.tree.entries = before.files.tree.entries ∨
    after.files.tree.entries = (before.files.makeDirectories path).1.tree.entries
  /-- The directory of the problem holds what it held. -/
  held : before.files.isDirectory path = true → after.files.list path = before.files.list path
  /-- If it was not there, it holds nothing. -/
  empty : before.files.isDirectory path = false →
    ∀ found, after.files.list path = .ok found → found = []
  /-- The same drives are found. -/
  indices : (indices path after.files).1 = (indices path before.files).1

/-! ## Computations -/

/-- A computation changes the files only. -/
theorem compute_apply (request : Compute.Request) (session : Session) :
    compute request session =
      ((session.problem.compute request.target request.quantity request.engine request.options
          session.files).1,
        { session with files := (session.problem.compute request.target request.quantity
            request.engine request.options session.files).2 }) := rfl

/-- What a computation leaves are the files as they were, or as they are when the directory of the
problem was asked for. -/
theorem restored_compute (ground : Ground directory path work session.files)
    (request : Compute.Request) (tidy : request.engine.Tidy)
    (found : problemPath request.options.directory session.problem.name (some work) = .ok path) :
    Restored session.files (compute request session).2.files ∨
      Restored (session.files.makeDirectories path).1 (compute request session).2.files := by
  rw [compute_apply]
  rcases Problem.compute_restores ground.regular.toSound ground.enterable tidy request.target
    request.quantity request.options with same | ⟨other, known, made⟩
  · exact .inl same
  · rw [ground.enterable.working, found] at known
    obtain rfl := Except.ok.inj known
    exact .inr made

/-- What is no directory is not listed. -/
theorem not_listed {files : FileSystem} (missing : files.isDirectory path = false)
    (found : List (String × Entry)) : files.list path ≠ .ok found := by
  intro listed
  obtain ⟨place, leads, -⟩ := Result.bind_ok.mp listed
  have stands := isDirectory_iff.mpr ⟨place, directoryOf_ok.mp leads⟩
  rw [missing] at stands
  cases stands

/-- A session with its files as they were is untouched. -/
theorem untouched_of_restored (regular : session.files.Regular)
    (restored : Restored session.files other.files) (problem : other.problem = session.problem)
    (path : String) : Untouched path session other where
  problem := problem
  kept := ⟨[], by rw [restored.entries, List.append_nil], nofun⟩
  made := .inl restored.entries
  held _ := restored.list_eq regular path
  empty missing found listed := by
    rw [restored.list_eq regular] at listed
    exact absurd listed (not_listed missing found)
  indices := (blind_indices path _ _ _ (restored.alike regular)).1

/-- A computation leaves the session untouched. -/
theorem untouched_compute (ground : Ground directory path work session.files)
    (leading : Leading directory path names) (request : Compute.Request)
    (tidy : request.engine.Tidy)
    (found : problemPath request.options.directory session.problem.name (some work) = .ok path) :
    Untouched path session (compute request session).2 := by
  rcases restored_compute ground request tidy found with same | made
  · exact untouched_of_restored ground.regular same rfl path
  · have regular := (ground.made leading.spells.absolute).regular
    have listed := made.list_eq regular path
    obtain ⟨new, entries, directories⟩ :=
      (raised_makeDirectories leading.spells leading.noPoint : Raised session.files _).entries
    refine ⟨rfl, ⟨new, made.entries.trans entries, directories⟩, .inr made.entries,
      fun stands => ?_, fun missing list told => ?_, ?_⟩
    · rw [listed, ground.makeDirectories_eq leading stands]
    · rw [listed] at told
      obtain ⟨place, leads, rest⟩ := Result.bind_ok.mp told
      rw [← Except.ok.inj rest]
      exact ground.children_made leading missing (directoryOf_ok.mp leads)
    · rw [(blind_indices path _ _ _ (made.alike regular)).1]
      exact ground.indices_made leading

/-! ## Drives -/

/-- Reports are the same if their parts are. -/
theorem report_congr (outcome : (serve request other).1 = (serve request session).1)
    (handed : (other.report request).handed = (session.report request).handed)
    (problem : (serve request other).2.problem = (serve request session).2.problem) :
    other.report request = session.report request := by
  have shown (session : Session) : session.report request =
      ⟨(serve request session).1, (session.report request).handed,
        (serve request session).2.problem⟩ := rfl
  rw [shown, shown session, outcome, handed, problem]

/-- A drive shows the same, and leaves the same but for what is made on the way to the directory of
the problem, when that was asked for before. -/
theorem report_made (ground : Ground directory path work session.files)
    (leading : Leading directory path names)
    (found : problemPath request.options.directory session.problem.name (some work) = .ok path) :
    report { session with files := (session.files.makeDirectories path).1 } request =
        session.report request ∧
      ((serve request
          { session with files := (session.files.makeDirectories path).1 }).2.files.makeDirectories
            path).1 =
        ((serve request session).2.files.makeDirectories path).1 := by
  have opens : Agrees path (opening request.options request.intent session.problem)
      session.files := ground.agrees_opening leading found
  have ran : Agrees path (run request.now request.engine request.options request.intent
      session.problem) session.files := by
    rw [run_eq]
    exact opens.bind _
  have staged : Agrees path (staging request.options request.intent session.problem)
      session.files := opens.bind _
  have handed : (report { session with files := (session.files.makeDirectories path).1 }
      request).handed = (session.report request).handed := by
    unfold report
    dsimp only
    rcases staged with same | ⟨fault, failed, other⟩
    · rw [same]
    · rw [failed, other]
  have served : serve request { session with files := (session.files.makeDirectories path).1 } =
        serve request session ∨
      ∃ fault, serve request session = (.error fault, session) ∧
        serve request { session with files := (session.files.makeDirectories path).1 } =
          (.error fault, { session with files := (session.files.makeDirectories path).1 }) := by
    unfold serve
    rw [drive_apply, drive_apply]
    rcases ran with same | ⟨fault, failed, other⟩
    · left
      dsimp only
      rw [same]
    · right
      dsimp only
      rw [failed, other]
      exact ⟨fault, rfl, rfl⟩
  rcases served with same | ⟨fault, failed, other⟩
  · exact ⟨report_congr (by rw [same]) handed (by rw [same]), by rw [same]⟩
  · refine ⟨report_congr (by rw [failed, other]) handed (by rw [failed, other]), ?_⟩
    rw [failed, other, ground.makeDirectories_again leading]

/-- What is taken over from files that are alike is the same. -/
theorem takenMagnetisation_of_alike {f : Nat → Nat} {files others : FileSystem}
    (alike : Alike f files others) (directory : String) (problem : Problem) :
    takenMagnetisation directory ⟨others, problem⟩ = takenMagnetisation directory ⟨files, problem⟩ := by
  unfold takenMagnetisation
  dsimp only
  rw [(blind_snapshot directory problem.name f files others alike).1]
  congr 1
  funext path
  rw [(Artifact.blind_readField path f files others alike).1]

/-- A drive shows the same on files that are alike, and leaves files that are alike. -/
theorem report_of_alike {f : Nat → Nat} {files others : FileSystem} (alike : Alike f files others)
    (problem : Problem) (blind : request.engine.Blind) :
    report ⟨others, problem⟩ request = report ⟨files, problem⟩ request ∧
      Alike f (serve request ⟨files, problem⟩).2.files (serve request ⟨others, problem⟩).2.files := by
  have handed : (report ⟨others, problem⟩ request).handed =
      (report ⟨files, problem⟩ request).handed := by
    obtain ⟨same, after⟩ := blind_staging request.options request.intent problem f files others alike
    unfold report
    dsimp only
    rcases one : staging request.options request.intent problem files with ⟨result, left⟩
    rcases other : staging request.options request.intent problem others with ⟨ended, kept⟩
    rw [one, other] at same after
    obtain rfl : ended = result := same
    cases ended with
    | error fault => rfl
    | ok staged =>
      dsimp only
      rw [after.contentOf]
  have served : (serve request ⟨others, problem⟩).1 = (serve request ⟨files, problem⟩).1 ∧
      (serve request ⟨others, problem⟩).2.problem = (serve request ⟨files, problem⟩).2.problem ∧
      Alike f (serve request ⟨files, problem⟩).2.files
        (serve request ⟨others, problem⟩).2.files := by
    obtain ⟨same, after⟩ := blind_run blind request.now request.options request.intent problem f
      files others alike
    unfold serve
    rw [drive_apply, drive_apply]
    dsimp only
    rcases one : run request.now request.engine request.options request.intent problem files
      with ⟨result, left⟩
    rcases other : run request.now request.engine request.options request.intent problem others
      with ⟨ended, kept⟩
    rw [one, other] at same after
    obtain rfl : ended = result := same
    cases ended with
    | error fault => exact ⟨rfl, rfl, after⟩
    | ok outcome =>
      dsimp only at after ⊢
      rw [hydrate_apply, hydrate_apply, takenMagnetisation_of_alike after]
      dsimp only
      cases takenMagnetisation outcome.directory ⟨left, problem⟩ with
      | error fault => exact ⟨rfl, rfl, after⟩
      | ok m =>
        dsimp only
        rw [(Artifact.blind_readTable (tablePath outcome.directory problem) true f left kept after).1]
        cases (Artifact.readTable (tablePath outcome.directory problem) true left).1 with
        | error fault => exact ⟨rfl, rfl, after⟩
        | ok table => exact ⟨rfl, rfl, after⟩
  exact ⟨report_congr served.1 handed served.2.1, served.2.2⟩

/-- What a drive leaves of the files, and the name that it leaves, are those of its run. -/
theorem files_serve (request : Drive.Request) (session : Session) :
    (serve request session).2.files = (run request.now request.engine request.options
        request.intent session.problem session.files).2 ∧
      (serve request session).2.problem.name = session.problem.name := by
  unfold serve
  rw [drive_apply]
  rcases run request.now request.engine request.options request.intent session.problem
    session.files with ⟨result, files⟩
  cases result with
  | error fault => exact ⟨rfl, rfl⟩
  | ok outcome =>
    dsimp only
    obtain ⟨same, title, -⟩ := hydrate_keeps outcome.directory { session with files }
    rcases taken : hydrate outcome.directory { session with files } with ⟨result, left⟩
    rw [taken] at same title
    cases result <;> exact ⟨same, title⟩

/-- Drives leave files in which the problem can be driven and computed with. -/
theorem ground_serve (ground : Ground directory path work session.files)
    (absolute : Path.isAbsolute path = true) (blind : request.engine.Blind)
    (keeps : request.engine.KeepsPaths) :
    Ground directory path work (serve request session).2.files := by
  have ran := stays_run blind keeps request.now request.options request.intent session.problem
    session.files ground.regular ground.enterable
  have regular := (blind_run blind request.now request.options request.intent
    session.problem).regular ground.regular
  rw [(files_serve request session).1]
  exact ground.extends_ absolute regular ran.1 ran.2

/-! ## Calls one after the other -/

/-- Calls leave the name of the problem. -/
theorem name_afterCalls (session : Session) (calls : List Call) :
    (session.afterCalls calls).problem.name = session.problem.name := by
  induction calls generalizing session with
  | nil => rfl
  | cons call rest ih =>
    have kept : (session.afterCall call).problem.name = session.problem.name := by
      cases call with
      | drive request => exact (files_serve request session).2
      | compute request => rfl
    exact (ih (session.afterCall call)).trans kept

/-- Two sessions that differ in numbers and in what is made on the way to the directory of the
problem. -/
structure Follows (directory path : String) (work : Place) (session other : Session) : Prop where
  /-- The problem is the same. -/
  problem : other.problem = session.problem
  /-- In the one the problem can be driven and computed with. -/
  ground : Ground directory path work session.files
  /-- In the other too. -/
  otherGround : Ground directory path work other.files
  /-- The files are alike when the directory of the problem was asked for in both. -/
  alike : ∃ f, Alike f (session.files.makeDirectories path).1 (other.files.makeDirectories path).1

namespace Follows

/-- A session follows itself. -/
theorem refl (ground : Ground directory path work session.files)
    (absolute : Path.isAbsolute path = true) : Follows directory path work session session :=
  ⟨rfl, ground, ground, id, .refl (ground.made absolute).regular⟩

/-- The same drives are found. -/
theorem indices (follows : Follows directory path work session other)
    (leading : Leading directory path names) :
    (indices path other.files).1 = (indices path session.files).1 := by
  obtain ⟨f, alike⟩ := follows.alike
  calc (Drive.indices path other.files).1
      = (Drive.indices path (other.files.makeDirectories path).1).1 :=
        (follows.otherGround.indices_made leading).symm
    _ = (Drive.indices path (session.files.makeDirectories path).1).1 :=
        (blind_indices path f _ _ alike).1
    _ = (Drive.indices path session.files).1 := follows.ground.indices_made leading

/-- A computation in the other session changes nothing of that. -/
theorem compute (follows : Follows directory path work session other)
    (leading : Leading directory path names) (request : Compute.Request)
    (tidy : request.engine.Tidy)
    (found : problemPath request.options.directory session.problem.name (some work) = .ok path) :
    Follows directory path work session (other.afterCall (.compute request)) := by
  obtain ⟨f, alike⟩ := follows.alike
  rw [← follows.problem] at found
  have raised := follows.otherGround.made leading.spells.absolute
  rcases restored_compute follows.otherGround request tidy found with same | made
  · have after := same.alike follows.otherGround.regular
    exact ⟨follows.problem, follows.ground, follows.otherGround.alike after, _,
      alike.trans (after.makeDirectories path).2⟩
  · have after := made.alike raised.regular
    have asked := (after.makeDirectories path).2
    rw [follows.otherGround.makeDirectories_again leading] at asked
    exact ⟨follows.problem, follows.ground, raised.alike after, _, alike.trans asked⟩

/-- A drive shows the same in both, and changes nothing of that. -/
theorem drive (follows : Follows directory path work session other)
    (leading : Leading directory path names) (blind : request.engine.Blind)
    (keeps : request.engine.KeepsPaths)
    (found : problemPath request.options.directory session.problem.name (some work) = .ok path) :
    other.report request = session.report request ∧
      Follows directory path work (session.afterCall (.drive request))
        (other.afterCall (.drive request)) := by
  obtain ⟨f, alike⟩ := follows.alike
  have first := report_made follows.ground leading found
  have found : problemPath request.options.directory other.problem.name (some work) = .ok path := by
    rw [follows.problem]
    exact found
  have second := report_made follows.otherGround leading found
  obtain ⟨shown, after⟩ := report_of_alike alike session.problem blind
  rw [follows.problem] at second
  have same : other.report request = session.report request :=
    second.1.symm.trans (shown.trans first.1)
  refine ⟨same, congrArg DriveReport.problem same,
    ground_serve follows.ground leading.spells.absolute blind keeps,
    ground_serve follows.otherGround leading.spells.absolute blind keeps, f, ?_⟩
  have asked := (after.makeDirectories path).2
  rw [first.2, second.2] at asked
  exact asked

/-- Calls in the other session show the same drives as these drives alone. -/
theorem calls (follows : Follows directory path work session other)
    (leading : Leading directory path names) (title : session.problem.name = name)
    (found : problemPath directory name (some work) = .ok path) {calls : List Call}
    (one : ∀ call ∈ calls, call.directory = directory) (fits : ∀ call ∈ calls, call.Fits) :
    other.reports calls = session.reports (calls.filter Call.isDrive) ∧
      Follows directory path work (session.afterCalls (calls.filter Call.isDrive))
        (other.afterCalls calls) := by
  induction calls generalizing session other with
  | nil => exact ⟨rfl, follows⟩
  | cons call rest ih =>
    obtain ⟨here, there⟩ := List.forall_mem_cons.mp one
    obtain ⟨fit, others⟩ := List.forall_mem_cons.mp fits
    cases call with
    | drive request =>
      have asked : problemPath request.options.directory session.problem.name (some work) =
          .ok path := by
        rw [title, ← found]
        exact congrArg (problemPath · name (some work)) here
      obtain ⟨same, further⟩ := follows.drive leading fit.1 fit.2 asked
      have kept := (files_serve request session).2.trans title
      obtain ⟨shown, last⟩ := ih further kept there others
      rw [List.filter_cons_of_pos rfl]
      refine ⟨?_, last⟩
      unfold reports
      rw [same, shown]
    | compute request =>
      have asked : problemPath request.options.directory session.problem.name (some work) =
          .ok path := by
        rw [title, ← found]
        exact congrArg (problemPath · name (some work)) here
      rw [List.filter_cons_of_neg Bool.false_ne_true]
      exact ih (follows.compute leading request fit asked) title there others

end Follows

/-! ## Problems without a legal name -/

/-- Nothing comes of a call for a problem whose name is not legal. -/
theorem afterCall_of_illegal (illegal : Problem.isLegalName session.problem.name = false)
    (call : Call) : session.afterCall call = session := by
  cases call with
  | drive request =>
    unfold afterCall serve
    dsimp only
    rw [drive_of_opening (opening_of_illegal illegal _ _ _)]
  | compute request =>
    unfold afterCall
    dsimp only
    rw [compute_apply, Problem.compute_of_illegal illegal]

/-- Nor of calls one after the other. -/
theorem calls_of_illegal (illegal : Problem.isLegalName session.problem.name = false)
    (calls : List Call) :
    session.reports calls = session.reports (calls.filter Call.isDrive) ∧
      session.afterCalls calls = session := by
  induction calls with
  | nil => exact ⟨rfl, rfl⟩
  | cons call rest ih =>
    obtain ⟨same, still⟩ := ih
    have stays := afterCall_of_illegal illegal call
    refine ⟨?_, ?_⟩
    · cases call with
      | drive request =>
        rw [List.filter_cons_of_pos rfl]
        unfold reports
        rw [stays, same]
      | compute request =>
        rw [List.filter_cons_of_neg Bool.false_ne_true, reports, stays, same]
    · unfold afterCalls at still ⊢
      rw [List.foldl_cons, stays, still]

/-! ## All together -/

/-- Among any calls for one problem and one directory, every computation leaves the session
untouched, and the drives show the same as if none was computed: each has the same number, gives its
engine the same script and leaves the same problem. -/
theorem computations_transparent (ground : Ground directory path work session.files)
    (found : (problemDirectory directory session.problem.name session.files).1 = .ok path)
    {calls : List Call} (one : ∀ call ∈ calls, call.directory = directory)
    (fits : ∀ call ∈ calls, call.Fits) :
    (∀ before request rest, calls = before ++ .compute request :: rest →
        Untouched path (session.afterCalls before)
          ((session.afterCalls before).afterCall (.compute request))) ∧
      session.reports calls = session.reports (calls.filter Call.isDrive) ∧
      (session.afterCalls calls).problem =
        (session.afterCalls (calls.filter Call.isDrive)).problem ∧
      (Drive.indices path (session.afterCalls calls).files).1 =
        (Drive.indices path (session.afterCalls (calls.filter Call.isDrive)).files).1 := by
  rw [problemDirectory_apply, ground.enterable.working] at found
  cases legality : Problem.isLegalName session.problem.name with
  | false =>
    have stays (calls : List Call) := (calls_of_illegal legality calls).2
    refine ⟨fun before request rest _ => ?_, (calls_of_illegal legality calls).1, ?_, ?_⟩
    · rw [stays, afterCall_of_illegal legality]
      exact untouched_of_restored ground.regular (.refl _) rfl path
    · rw [stays, stays]
    · rw [stays, stays]
  | true =>
    obtain ⟨names, leading⟩ := leading_of_problemPath legality ground.regular.toSound
      ground.enterable.working found
    have self : Follows directory path work session session := .refl ground leading.spells.absolute
    obtain ⟨shown, last⟩ := self.calls leading rfl found one fits
    refine ⟨fun before request rest split => ?_, shown, last.problem, last.indices leading⟩
    obtain ⟨sooner, later⟩ := List.forall_mem_append.mp (split ▸ one)
    obtain ⟨first, others⟩ := List.forall_mem_append.mp (split ▸ fits)
    have here := (self.calls leading rfl found sooner first).2
    have name := name_afterCalls session before
    have asked : problemPath request.options.directory (session.afterCalls before).problem.name
        (some work) = .ok path := by
      rw [name, ← found]
      exact congrArg (problemPath · _ (some work)) (later _ List.mem_cons_self)
    exact untouched_compute here.otherGround leading request (others _ List.mem_cons_self) asked

/-- A computation with an engine that writes a snapshot and a table. -/
def someComputation (directory : String) : Call :=
  .compute { target := .total, quantity := .energy, engine := Account.tableEngine
             options := { directory } }

/-- A computation, a drive, a computation and a drive. -/
def someCalls : List Call :=
  [someComputation ".", .drive someRequest, someComputation ".", .drive someRequest]

/-- An engine that writes a snapshot and a table writes nothing beside its directory. -/
theorem tidy_tableEngine : Account.tableEngine.Tidy := fun script =>
  .bind (Account.keepsGround_snapshotEngine script)
    (.bind (.writeFile _ _ _ _)
      (.writeFile (by decide) (by decide) (by decide) (by decide) _ _ _) fun _ =>
        .of_looksOnly (Action.looksOnly_pure _)) fun _ =>
    .bind (.writeFile _ _ _ _)
      (.writeFile (by decide) (by decide) (by decide) (by decide) _ _ _) fun _ =>
        .of_looksOnly (Action.looksOnly_pure _)

/-- It does not see numbers. -/
theorem blind_tableEngine : Account.tableEngine.Blind := fun _ =>
  .bind (.bind (.writeFile _ _ _ _) fun _ => .pure _) fun _ =>
    .bind (.writeFile _ _ _ _) fun _ => .pure _

/-- Two drives between computations have the numbers zero and one, as without the computations. When
the path of the problem's directory goes back from a directory that is not there, a computation makes
that, and then the first drive is found. -/
theorem someCalls_transparent :
    ((undriven.reports someCalls).map fun report => report.outcome.toOption.map (·.index)) =
        [some 0, some 1] ∧
      undriven.reports someCalls = undriven.reports [.drive someRequest, .drive someRequest] ∧
      (Drive.indices "/missing/../p" (undriven.afterCalls [.drive someRequest]).files).1.toOption =
        some [] ∧
      (Drive.indices "/missing/../p" (undriven.afterCalls
        [.drive someRequest, someComputation "missing/.."]).files).1.toOption = some [0] := by
  have shown : ((undriven.reports someCalls).map fun report =>
        report.outcome.toOption.map (·.index)) = [some 0, some 1] ∧
      (Drive.indices "/missing/../p" (undriven.afterCalls [.drive someRequest]).files).1.toOption =
        some [] ∧
      (Drive.indices "/missing/../p" (undriven.afterCalls
        [.drive someRequest, someComputation "missing/.."]).files).1.toOption = some [0] := by
    decide +kernel
  have ground : Ground "." "/p" [] undriven.files :=
    ⟨.empty, ⟨rfl, by rfl⟩, .inr (by decide)⟩
  have keeps : Account.tableEngine.KeepsPaths := fun script files sound =>
    (Account.keepsGround_tableEngine script files sound).2.extends_
  have fits : ∀ call ∈ someCalls, call.Fits := by
    simp [someCalls, someComputation, Call.Fits, someRequest, tidy_tableEngine, blind_tableEngine,
      keeps]
  have one : ∀ call ∈ someCalls, call.directory = "." := by
    simp [someCalls, someComputation, Call.directory, someRequest]
  exact ⟨shown.1, (computations_transparent ground (by rfl) one fits).2.1, shown.2⟩

end Session

end Micromag
