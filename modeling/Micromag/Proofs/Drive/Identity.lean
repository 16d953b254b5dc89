import Micromag.Proofs.Drive.Transparency
import Micromag.Proofs.Lowering.Frame

/-!
# What a problem keeps over a session

Drives, computations and removals change the values of the magnetisation, the number and the table
of a problem, and nothing else. The values that are taken over come from a file that was accepted as
a field of the same shape, so that the problem stays accepted, whatever the engine wrote and wherever
a drive fails. Its scripts stay the same, too.
-/

namespace Micromag

namespace Problem

variable {problem other : Problem}

/-- An accepted problem has a usable magnetisation of vectors. -/
theorem usable_of_validate (valid : problem.validate = .ok ()) :
    problem.m.dim = 3 ∧ problem.m.Usable := by
  obtain ⟨_, _, valid⟩ := Result.bind_ok.mp valid
  dsimp only at valid
  by_cases components : problem.m.dim ≠ 3
  · rw [if_pos components] at valid
    cases valid
  · rw [if_neg components] at valid
    obtain ⟨_, _, valid⟩ := Result.bind_ok.mp valid
    obtain ⟨_, usable, _⟩ := Result.bind_ok.mp valid
    exact ⟨not_not.mp components, Field.validate_ok_iff.mp (Result.mapError_ok.mp usable)⟩

/-- With a usable magnetisation a problem like an accepted one is accepted. -/
theorem Alike.validate (alike : problem.Alike other) (valid : problem.validate = .ok ())
    (usable : other.m.Usable) : other.validate = .ok () := by
  have own := Field.validate_ok_iff.mpr (usable_of_validate valid).2
  unfold Problem.validate Problem.mesh at valid ⊢
  rw [alike.name, alike.mesh, alike.dim, alike.energy, alike.dynamics,
    Field.validate_ok_iff.mpr usable]
  rw [own] at valid
  exact valid

end Problem

/-- What may be done with a session. -/
inductive Step where
  /-- A drive or a computation. -/
  | call (call : Call)
  /-- The removal of the directory of the problem. -/
  | delete (directory : String) (silent : Bool)

namespace Session

open Drive

variable {session : Session}

/-- The session after a step, whatever comes of it. -/
def afterStep (session : Session) : Step → Session
  | .call call => session.afterCall call
  | .delete directory silent => (Session.delete directory silent session).2

/-- The session after steps one after the other. -/
def afterSteps (session : Session) (steps : List Step) : Session := steps.foldl afterStep session

/-- A magnetisation that is taken over from the snapshot of a run leaves a problem that is like the
one before. -/
theorem alike_of_taken {directory : String} {files : FileSystem} {m : Field Float}
    (usable : session.problem.m.Usable)
    (taken : takenMagnetisation directory { session with files } = .ok m) (number : Nat)
    (table : Option Table) :
    session.problem.Alike { session.problem with m, driveNumber := number, table := table } ∧
      m.Usable := by
  let ended : Session := { session with files }
  have fits : m.Usable := usable_of_takenMagnetisation (show ended.problem.m.Usable from usable) taken
  have values : m = { ended.problem.m with values := m.values } := takenMagnetisation_ok taken
  refine ⟨?_, fits⟩
  rw [values]
  exact ⟨rfl, rfl, rfl, rfl, rfl⟩

/-- A drive leaves a problem like the one before, with a usable magnetisation. -/
theorem serve_alike (usable : session.problem.m.Usable) (request : Request) :
    session.problem.Alike (serve request session).2.problem ∧
      (serve request session).2.problem.m.Usable := by
  unfold serve
  rcases driven : Session.drive request.now request.engine request.options request.intent session
    with ⟨result, after⟩
  cases result with
  | ok outcome =>
    obtain ⟨files, m, table, -, taken, -, rfl⟩ := drive_ok.mp driven
    exact alike_of_taken usable taken _ _
  | error fault =>
    rcases drive_error_cases driven with ⟨kept, -⟩ | ⟨m, ⟨outcome, files, -, taken, -⟩, left⟩
    · dsimp only
      rw [kept]
      exact ⟨.refl _, usable⟩
    · dsimp only
      rw [left]
      exact alike_of_taken usable taken _ _

/-- Every step does. -/
theorem afterStep_alike (usable : session.problem.m.Usable) (step : Step) :
    session.problem.Alike (session.afterStep step).problem ∧
      (session.afterStep step).problem.m.Usable := by
  cases step with
  | call call =>
    cases call with
    | drive request => exact serve_alike usable request
    | compute request => exact ⟨.refl _, usable⟩
  | delete directory silent =>
    unfold afterStep
    dsimp only
    rw [delete_apply]
    rcases removeDirectory directory session.problem.name silent session.files with ⟨result, files⟩
    cases result <;> exact ⟨⟨rfl, rfl, rfl, rfl, rfl⟩, usable⟩

/-- So do steps one after the other. -/
theorem afterSteps_alike (usable : session.problem.m.Usable) (steps : List Step) :
    session.problem.Alike (session.afterSteps steps).problem ∧
      (session.afterSteps steps).problem.m.Usable := by
  unfold afterSteps
  induction steps generalizing session with
  | nil => exact ⟨.refl _, usable⟩
  | cons step rest ih =>
    obtain ⟨alike, fits⟩ := afterStep_alike usable step
    obtain ⟨further, last⟩ := ih fits
    exact ⟨alike.trans further, last⟩

/-- A usable field of vectors has a value for each component of each cell exactly when these are no
more than a word counts. -/
theorem length_eq_iff {field : Field Float} (usable : field.Usable) (vectors : field.dim = 3) :
    field.values.length = field.mesh.count .x * field.mesh.count .y * field.mesh.count .z * 3 ↔
      field.mesh.count .x * field.mesh.count .y * field.mesh.count .z * 3 < 2 ^ 64 := by
  have length := usable.length
  unfold Field.needed Mesh.cellCount at length
  rw [vectors, Nat.mod_mul_mod] at length
  rw [length]
  exact ⟨fun same => same ▸ Nat.mod_lt _ (by decide), Nat.mod_eq_of_lt⟩

/-- An accepted problem stays accepted over any steps, and keeps its name, its mesh, the shape of its
magnetisation, its energy and its dynamics. All values of the magnetisation are finite, and there is
one for each component of each cell exactly when a word counts these. Any accepted problem like it
is lowered to the same script but for the magnetisation, and so the script is the same after the
steps. -/
theorem identity_kept (valid : session.problem.validate = .ok ()) (steps : List Step) :
    (session.afterSteps steps).problem.validate = .ok () ∧
      session.problem.Alike (session.afterSteps steps).problem ∧
      (session.afterSteps steps).problem.m.dim = 3 ∧
      (∀ x ∈ (session.afterSteps steps).problem.m.values, x.isFinite = true) ∧
      ((session.afterSteps steps).problem.m.values.length =
          session.problem.mesh.count .x * session.problem.mesh.count .y *
            session.problem.mesh.count .z * 3 ↔
        session.problem.mesh.count .x * session.problem.mesh.count .y *
            session.problem.mesh.count .z * 3 < 2 ^ 64) ∧
      (∀ other : Problem, session.problem.Alike other → other.validate = .ok () →
        ∀ intent settings platform, ∃ common : Except Fault Problem.Frame,
          session.problem.lower intent settings platform =
              common.map (·.hold session.problem.m) ∧
            other.lower intent settings platform = common.map (·.hold other.m)) ∧
      ∀ intent settings platform,
        ((session.afterSteps steps).problem.lower intent settings platform).map (·.text) =
          (session.problem.lower intent settings platform).map (·.text) := by
  obtain ⟨vectors, usable⟩ := Problem.usable_of_validate valid
  obtain ⟨alike, fits⟩ := afterSteps_alike usable steps
  have accepted := alike.validate valid fits
  have dim : (session.afterSteps steps).problem.m.dim = 3 := alike.dim.trans vectors
  have count := length_eq_iff fits dim
  rw [alike.mesh] at count
  refine ⟨accepted, alike, dim, fits.finite, count, fun other like agreed intent settings platform =>
    Problem.lower_of_alike like valid agreed intent settings platform,
    fun intent settings platform => ?_⟩
  obtain ⟨common, before, after⟩ :=
    Problem.lower_of_alike alike valid accepted intent settings platform
  rw [before, after]
  cases common with
  | error fault => rfl
  | ok frame => exact congrArg Except.ok ((frame.text_hold _).trans (frame.text_hold _).symm)

/-- A drive, a computation, a drive that leaves no table, and a removal. -/
def someSteps : List Step :=
  [.call (.drive someRequest), .call (someComputation "."),
    .call (.drive { someRequest with engine := snapshotEngine }), .delete "." false]

/-- These change the magnetisation, and the problem stays accepted and has the same script. An
accepted problem whose cells no word counts has too few values, and keeps them. -/
theorem someSteps_kept :
    undriven.problem.validate = .ok () ∧
      (undriven.afterSteps someSteps).problem.m.values = [0, 0, 2] ∧
      (undriven.afterSteps someSteps).problem.table.isSome = true ∧
      (undriven.afterSteps someSteps).problem.validate = .ok () ∧
      (∀ intent settings platform,
        ((undriven.afterSteps someSteps).problem.lower intent settings platform).map (·.text) =
          (undriven.problem.lower intent settings platform).map (·.text)) ∧
      wrappedSession.problem.validate = .ok () ∧
      (wrappedSession.afterSteps someSteps).problem.m.values.length ≠
        7623851 * 409891 * 3935371 * 3 := by
  have ran : (undriven.afterSteps someSteps).problem.m.values = [0, 0, 2] ∧
      (undriven.afterSteps someSteps).problem.table.isSome = true := by decide +kernel
  have valid : undriven.problem.validate = .ok () := Result.ok_of_toBool (by decide)
  have accepted : wrappedSession.problem.validate = .ok () := Result.ok_of_toBool (by decide)
  have counts : wrappedSession.problem.mesh.count .x * wrappedSession.problem.mesh.count .y *
      wrappedSession.problem.mesh.count .z = 7623851 * 409891 * 3935371 := by decide
  obtain ⟨stays, _, _, _, _, _, same⟩ := identity_kept valid someSteps
  obtain ⟨_, _, _, _, counted, _⟩ := identity_kept accepted someSteps
  rw [counts] at counted
  exact ⟨valid, ran.1, ran.2, stays, same, accepted, fun full => absurd (counted.mp full) (by decide)⟩

end Session

end Micromag
