import Micromag.Proofs.Drive.Transparency

/-!
# The working directory of a call

A call makes a directory for its engine and runs the engine there, once or not at all. Before, the
working directory stays where it is. Afterwards no directory is made, so that what is a directory in
the end was one when the engine ended. The working directory of before is then entered again by its
path, wherever the engine went and whatever came of it, and is left only if it is gone.
-/

namespace Micromag

open FileSystem

/-! ## What stays after something was removed -/

namespace FileTree

variable {tree : FileTree} {place other : Place} {node : Node} {serial : Nat}

/-- What stands somewhere after something was removed stood there before. -/
theorem nodeAt?_of_remove (stands : (tree.remove place).nodeAt? other = some node) :
    tree.nodeAt? other = some node ∧ (other ≠ [] → ¬place <+: other) := by
  by_cases root : other = []
  · subst root
    exact ⟨stands, fun below => absurd rfl below⟩
  · rw [nodeAt?_of_ne root, entryAt?_remove] at stands
    by_cases inside : place <+: other
    · rw [if_pos inside] at stands
      cases stands
    · rw [if_neg inside, ← nodeAt?_of_ne root] at stands
      exact ⟨stands, fun _ => inside⟩

/-- A directory that was not removed keeps its number. -/
theorem Sound.placeOf?_of_remove (sound : tree.Sound) (numbered : tree.placeOf? serial = some other)
    (stands : (tree.remove place).nodeAt? other = some node) :
    (tree.remove place).placeOf? serial = some other := by
  by_cases root : other = []
  · have zero : serial = 0 := by
      by_contra given
      unfold placeOf? at numbered
      rw [if_neg given] at numbered
      obtain ⟨entry, found, same⟩ := Option.map_eq_some_iff.mp numbered
      obtain ⟨front, last, split, _⟩ := sound.rooted entry (List.mem_of_find?_eq_some found)
      rw [same, root] at split
      exact absurd split.symm (List.concat_ne_nil _ _)
    rw [root, zero]
    rfl
  · exact sound.placeOf?_remove numbered ((nodeAt?_of_remove stands).2 root)

/-- A sound tree from which anything was removed is sound. -/
theorem Sound.removed (sound : tree.Sound) (place : Place) : (tree.remove place).Sound := by
  by_cases root : place = []
  · have nothing : (tree.remove place).entries = [] := by
      simp [FileTree.remove, root]
    exact ⟨by rw [nothing]; exact .nil, by rw [nothing]; exact .nil, sound.next,
      by rw [nothing]; exact nofun, by rw [nothing]; exact nofun⟩
  · exact sound.remove root

/-- Directories and links that are left were there. -/
theorem extends_remove (tree : FileTree) (place : Place) : Extends (tree.remove place) tree := by
  refine extends_of_stays fun other node stands => ?_
  exact (nodeAt?_of_remove stands).1

end FileTree

namespace FileSystem

variable {files : FileSystem} {work : Place}

/-- Sound files from which anything was removed are sound. -/
theorem Sound.removed (sound : files.Sound) (place : Place) :
    Sound { files with tree := files.tree.remove place } where
  tree := sound.tree.removed place
  given := sound.given
  working other working := by
    have working : (files.tree.remove place).placeOf? files.workingDir = some other := working
    unfold FileTree.placeOf? at working
    split at working
    · rw [← Option.some.inj working]
      rfl
    · obtain ⟨entry, found, rfl⟩ := Option.map_eq_some_iff.mp working
      obtain ⟨member, kept⟩ := List.mem_filter.mp (List.mem_of_find?_eq_some found)
      have number : entry.serial = files.workingDir := by simpa using List.find?_some found
      have placed := sound.tree.placeOf?_eq member
      rw [number] at placed
      have stood := sound.working entry.place placed
      obtain ⟨front, last, split, _⟩ := sound.tree.rooted entry member
      have below : entry.place ≠ [] := split ▸ List.concat_ne_nil _ _
      have outside : ¬place <+: entry.place := by
        intro inside
        rw [List.isPrefixOf_iff_prefix.mpr inside] at kept
        cases kept
      rw [FileTree.nodeAt?_of_ne below] at stood
      show (files.tree.remove place).nodeAt? entry.place = some .directory
      rw [FileTree.nodeAt?_of_ne below, FileTree.entryAt?_remove, if_neg outside, stood]

end FileSystem

/-! ## Phases of a call -/

namespace FileAction

variable {α β : Type}

/-- Whether an action keeps files sound and the working directory where it is. -/
def Stationary (action : FileAction α) : Prop :=
  ∀ files, files.Sound →
    (action files).2.Sound ∧ (action files).2.workingPlace? = files.workingPlace?

/-- Whether an action keeps files sound and makes no directory: what is one afterwards was one, and
if it was the working directory it is that still. -/
def Settles (action : FileAction α) : Prop :=
  ∀ files, files.Sound → (action files).2.Sound ∧
    ∀ work, (action files).2.directoryOf (pathOf work) = .ok work →
      files.directoryOf (pathOf work) = .ok work ∧
        (files.workingPlace? = some work → (action files).2.workingPlace? = some work)

/-- Whether an action keeps files sound and ends in the working directory in which it began, if that
is still there. -/
def Returns (action : FileAction α) : Prop :=
  ∀ files, files.Sound → (action files).2.Sound ∧
    ∀ work, files.workingPlace? = some work →
      (action files).2.directoryOf (pathOf work) = .ok work →
        (action files).2.workingPlace? = some work

namespace Stationary

/-- On the same ground the working directory stays. -/
theorem of_keepsGround {action : FileAction α} (keeps : KeepsGround action) :
    Stationary action := fun files sound =>
  ⟨(keeps files sound).1, (keeps files sound).2.working⟩

/-- Looking changes nothing. -/
theorem of_looksOnly {action : FileAction α} (looks : Action.LooksOnly action) :
    Stationary action := of_keepsGround (.of_looksOnly looks)

/-- Making directories moves nothing. -/
theorem makeDirectories (code path : String) :
    Stationary (FileAction.makeDirectories code path) := fun _ sound =>
  ⟨(sound.grown_makeDirectories path).sound, (sound.grown_makeDirectories path).working⟩

/-- Actions one after the other. -/
theorem bind {first : FileAction α} {next : α → FileAction β} (head : Stationary first)
    (tail : ∀ value, Stationary (next value)) : Stationary (first >>= next) := by
  intro files sound
  obtain ⟨kept, still⟩ := head files sound
  rw [Action.bind_apply]
  rcases ran : first files with ⟨result, middle⟩
  rw [ran] at kept still
  cases result with
  | error fault => exact ⟨kept, still⟩
  | ok value =>
    obtain ⟨last, same⟩ := tail value middle kept
    exact ⟨last, same.trans still⟩

/-- What does not move returns. -/
theorem returns {action : FileAction α} (stationary : Stationary action) : Returns action :=
  fun files sound => ⟨(stationary files sound).1, fun _ working _ =>
    (stationary files sound).2.trans working⟩

end Stationary

namespace Settles

/-- On the same ground directories are where they were. -/
theorem of_keepsGround {action : FileAction α} (keeps : KeepsGround action) : Settles action := by
  intro files sound
  obtain ⟨kept, same⟩ := keeps files sound
  refine ⟨kept, fun work stands => ⟨?_, fun working => same.working.trans working⟩⟩
  have located := directoryOf_ok.mp stands
  exact directoryOf_ok.mpr (locate_extends_directory same.symm.extends_
    (startOf_congr same.symm.working) located)

/-- Looking changes nothing. -/
theorem of_looksOnly {action : FileAction α} (looks : Action.LooksOnly action) :
    Settles action := of_keepsGround (.of_looksOnly looks)

/-- Actions one after the other. -/
theorem bind {first : FileAction α} {next : α → FileAction β} (head : Settles first)
    (tail : ∀ value, Settles (next value)) : Settles (first >>= next) := by
  intro files sound
  obtain ⟨kept, early⟩ := head files sound
  rw [Action.bind_apply]
  rcases ran : first files with ⟨result, middle⟩
  rw [ran] at kept early
  cases result with
  | error fault => exact ⟨kept, early⟩
  | ok value =>
    obtain ⟨last, late⟩ := tail value middle kept
    refine ⟨last, fun work stands => ?_⟩
    obtain ⟨there, stays⟩ := late work stands
    obtain ⟨first, still⟩ := early work there
    exact ⟨first, fun working => stays (still working)⟩

/-- Removing a directory makes none. -/
theorem discard (path : String) (value : Except Fault α) :
    Settles (fun files => (value, Compute.discard path files) : FileAction α) := by
  intro files sound
  unfold Compute.discard
  dsimp only
  cases removed : files.removeTree path with
  | error cause => exact ⟨sound, fun work stands => ⟨stands, id⟩⟩
  | ok after =>
    obtain ⟨spot, _, _, rfl⟩ := removeTree_ok removed
    have kept := sound.removed spot.place
    refine ⟨kept, fun work stands => ?_⟩
    have located := directoryOf_ok.mp stands
    have directory := (node_of_locate located).symm
    have absolute := isAbsolute_pathOf kept.tree directory
    refine ⟨directoryOf_ok.mpr (locate_extends_directory (FileTree.extends_remove _ _) ?_ located),
      fun working => sound.tree.placeOf?_of_remove working directory⟩
    rw [startOf_absolute absolute, startOf_absolute absolute]

end Settles

namespace Returns

/-- Going on after a fault does not matter. -/
theorem attempt {action : FileAction α} (returns : Returns action) :
    Returns (Action.attempt action) := returns

end Returns

end FileAction

/-! ## Calls -/

section

open FileAction

variable {engine : Engine}

namespace Compute

/-- What a computation does until its passing directory is made. -/
def opening (problem : Problem) (target : Target) (quantity : Quantity) (options : DriveOptions) :
    FileAction (String × LoweredScript × String) := do
  let identifier ← problem.outputIdentifier target quantity options.platform
  let settings := settingsFor options.settings quantity identifier
  let script ← problem.lower Compute.intent settings options.platform
  let parent ← Drive.problemDirectory options.directory problem.name
  FileAction.makeDirectories "IO.PROBLEM_DIR" parent
  let directory ← makeScratch parent
  return (identifier, script, directory)

end Compute

end

/-! ## Where the engine runs -/

/-- Putting a result in other terms changes no state. -/
theorem Action.bind_pure_snd {σ α β : Type} (first : Action σ α) (f : α → β) (state : σ) :
    ((first >>= fun value => pure (f value)) state).2 = (first state).2 := by
  rw [Action.bind_apply]
  rcases first state with ⟨result, after⟩
  cases result <;> rfl

/-- Whether what comes of an action hangs on the engine only through one run of it, if any, and that
on a script and on files with a property. -/
def RunsOn {σ α : Type} (action : Engine → Action σ α) (state : σ)
    (property : String → FileSystem → Prop) : Prop :=
  (∃ outcome, ∀ engine, action engine state = outcome) ∨
    ∃ script entered, property script entered ∧
      ∃ next : Except Fault RunOutput × FileSystem → Except Fault α × σ,
        ∀ engine, action engine state = next (engine script entered)

namespace RunsOn

variable {σ τ α β : Type} {state : σ} {property : String → FileSystem → Prop}

/-- What is made of an outcome hangs on the engine only through the outcome. -/
theorem map {other : τ} {action : Engine → Action σ α} {whole : Engine → Action τ β}
    (runs : RunsOn action state property) (finish : Except Fault α × σ → Except Fault β × τ)
    (same : ∀ engine, whole engine other = finish (action engine state)) :
    RunsOn whole other property := by
  rcases runs with ⟨outcome, constant⟩ | ⟨script, entered, holds, next, through⟩
  · exact .inl ⟨finish outcome, fun engine => by rw [same, constant]⟩
  · exact .inr ⟨script, entered, holds, fun ended => finish (next ended),
      fun engine => by rw [same, through]⟩

/-- Going on after a fault. -/
theorem attempt {action : Engine → Action σ α} (runs : RunsOn action state property) :
    RunsOn (fun engine => Action.attempt (action engine)) state property :=
  runs.map (fun ended => (.ok ended.1, ended.2)) fun _ => rfl

/-- Doing it to the files of a session. -/
theorem onFiles {session : Session} {action : Engine → FileAction α}
    (runs : RunsOn action session.files property) :
    RunsOn (fun engine => SessionAction.onFiles (action engine)) session property :=
  runs.map (fun ended => (ended.1, { session with files := ended.2 })) fun _ => rfl

/-- A weaker property. -/
theorem mono {weaker : String → FileSystem → Prop} {action : Engine → Action σ α}
    (runs : RunsOn action state property)
    (weakens : ∀ script entered, property script entered → weaker script entered) :
    RunsOn action state weaker := by
  rcases runs with constant | ⟨script, entered, holds, through⟩
  · exact .inl constant
  · exact .inr ⟨script, entered, weakens _ _ holds, through⟩

end RunsOn

namespace Drive

variable {files : FileSystem}

end Drive

namespace Call

/-- The engine of a call. -/
def engine : Call → Engine
  | drive request => request.engine
  | compute request => request.engine

/-- Carry out a call: what it returns, and what it leaves. -/
def carryOut : Call → SessionAction (DriveOutcome ⊕ ComputedValue)
  | drive request => do return .inl (← Session.serve request)
  | compute request => do return .inr (← Session.compute request)

end Call

namespace Session

open Drive

variable {session : Session}

/-- What a call leaves is the session after it. -/
theorem carryOut_snd (session : Session) (call : Call) :
    (call.carryOut session).2 = session.afterCall call := by
  cases call with
  | drive request => exact Action.bind_pure_snd (serve request) Sum.inl session
  | compute request => exact Action.bind_pure_snd (compute request) Sum.inr session

end Session

end Micromag
