import Micromag.Lowering.Problem
import Micromag.Proofs.Lowering.Basic
import Micromag.Proofs.Result

/-!
# What the magnetisation does to a script

The values of the magnetisation go into one field file and nowhere else. The rest of a script, its
frame, is made from the name, the mesh, the energy and the dynamics of a problem. Two accepted
problems that have these in common are lowered to one text, and to the same field files but for the
values in that one.
-/

namespace Micromag

open Script

namespace Problem

/-- A script without its magnetisation: its items, and the field files before and after that of the
magnetisation. -/
structure Frame where
  /-- The items. -/
  items : List Item
  /-- The field files of the terms. -/
  before : List Sidecar
  /-- The field files of the evolver. -/
  after : List Sidecar

/-- The script with a magnetisation. -/
def Frame.hold (frame : Frame) (m : Field Float) : LoweredScript :=
  ⟨frame.items, frame.before ++ ⟨"m0.omf", m, false⟩ :: frame.after⟩

/-- The text of a script does not depend on the magnetisation. -/
theorem Frame.text_hold (frame : Frame) (m : Field Float) :
    (frame.hold m).text = render frame.items := rfl

/-- The frame of the script of a problem with this name, mesh, energy and dynamics. -/
def frame (name : String) (mesh : Mesh Float) (energy : Energy) (dynamics : Dynamics)
    (intent : Intent) (settings : ScriptSettings) (platform : Platform) : Except Fault Frame := do
  intent.validate.mapError IntentFault.fault
  let site : Site := ⟨mesh, platform⟩
  let atlases ← mesh.items
  let terms := energy.items site
  let contributed ← terms.result
  let evolving := intent.items site dynamics settings
  let driven ← evolving.result
  let magnetisation := [Parameter.fileItem "m0" "m0.omf", Parameter.normItem "m0"]
  return {
    items := .options name settings.format :: (atlases ++ contributed ++ magnetisation ++ driven)
    before := terms.sidecars
    after := evolving.sidecars }

/-- Whether two problems have all in common that a frame is made from. -/
structure Alike (problem other : Problem) : Prop where
  /-- The name. -/
  name : other.name = problem.name
  /-- The mesh. -/
  mesh : other.m.mesh = problem.m.mesh
  /-- The number of components of the magnetisation. -/
  dim : other.m.dim = problem.m.dim
  /-- The energy. -/
  energy : other.energy = problem.energy
  /-- The dynamics. -/
  dynamics : other.dynamics = problem.dynamics

variable {problem other third : Problem}

/-- A problem has all in common with itself. -/
theorem Alike.refl (problem : Problem) : problem.Alike problem := ⟨rfl, rfl, rfl, rfl, rfl⟩

/-- What is common is handed on. -/
theorem Alike.trans (alike : problem.Alike other) (further : other.Alike third) :
    problem.Alike third :=
  ⟨further.name.trans alike.name, further.mesh.trans alike.mesh, further.dim.trans alike.dim,
    further.energy.trans alike.energy, further.dynamics.trans alike.dynamics⟩

/-- The script of an accepted problem is its frame with its magnetisation. -/
theorem lower_eq_frame (valid : problem.validate = .ok ()) (intent : Intent)
    (settings : ScriptSettings) (platform : Platform) :
    problem.lower intent settings platform =
      (frame problem.name problem.mesh problem.energy problem.dynamics intent settings
        platform).map (·.hold problem.m) := by
  unfold lower items frame
  dsimp only
  rw [valid]
  cases intent.validate with
  | error fault => rfl
  | ok _ =>
    cases problem.mesh.items with
    | error fault => rfl
    | ok atlases =>
      rw [Lowering.eq_of (problem.energy.items ⟨problem.mesh, platform⟩)]
      generalize (problem.energy.items ⟨problem.mesh, platform⟩).sidecars = early
      cases (problem.energy.items ⟨problem.mesh, platform⟩).result with
      | error fault => rfl
      | ok contributed =>
        rw [Lowering.eq_of (intent.items ⟨problem.mesh, platform⟩ problem.dynamics settings)]
        generalize (intent.items ⟨problem.mesh, platform⟩ problem.dynamics settings).sidecars = late
        cases (intent.items ⟨problem.mesh, platform⟩ problem.dynamics settings).result with
        | error fault => rfl
        | ok driven =>
          exact congrArg (fun sidecars => Except.ok (LoweredScript.mk _ sidecars))
            (List.append_assoc early [⟨"m0.omf", problem.m, false⟩] late)

/-- Accepted problems with all this in common are lowered to scripts that differ at most in the
magnetisation, or fail with one fault. -/
theorem lower_of_alike (alike : problem.Alike other) (valid : problem.validate = .ok ())
    (accepted : other.validate = .ok ()) (intent : Intent) (settings : ScriptSettings)
    (platform : Platform) :
    ∃ common : Except Fault Frame,
      problem.lower intent settings platform = common.map (·.hold problem.m) ∧
        other.lower intent settings platform = common.map (·.hold other.m) := by
  refine ⟨_, lower_eq_frame valid intent settings platform, ?_⟩
  rw [lower_eq_frame accepted, alike.name, mesh, alike.mesh, alike.energy, alike.dynamics]
  rfl

end Problem

end Micromag
