import Micromag.Files.Action
import Micromag.Proofs.Files.Sound
import Micromag.Proofs.Result

/-!
# Operations on files

Writing a file and making a directory leave every directory and every link where it was, and so
every path that led to a directory leads there still. A file that was written is found again with
its bytes under the same path.
-/

namespace Micromag.FileSystem

open FileTree

variable {system after : FileSystem} {path : String} {last again : Bool} {spot : Spot}

/-- A path is located by following its steps from where it starts. -/
theorem locate_ok_iff : system.locate path last = .ok spot ↔
    checkPath path = .ok () ∧ ∃ start, system.startOf path = .ok start ∧
      Leads system.tree last maxLinks start (steps path) spot := by
  unfold locate
  rw [Result.bind_ok]
  constructor
  · rintro ⟨_, checked, located⟩
    obtain ⟨start, starts, followed⟩ := Result.bind_ok.mp located
    exact ⟨checked, start, starts, walk_ok_iff.mp followed⟩
  · rintro ⟨checked, start, starts, leads⟩
    exact ⟨(), checked, Result.bind_ok.mpr ⟨start, starts, walk_ok_iff.mpr leads⟩⟩

/-- What stands at a spot that is located is what stands at its place. -/
theorem node_of_locate (located : system.locate path last = .ok spot) :
    spot.node = system.tree.nodeAt? spot.place := by
  obtain ⟨_, _, _, leads⟩ := locate_ok_iff.mp located
  exact leads.node_eq

/-- Paths start at directories. -/
theorem Sound.start (sound : system.Sound) {start : Place}
    (starts : system.startOf path = .ok start) : system.tree.nodeAt? start = some .directory := by
  unfold startOf at starts
  split at starts
  · rw [← Except.ok.inj starts]
    rfl
  · cases working : system.workingPlace? with
    | none =>
      rw [working] at starts
      cases starts
    | some place =>
      rw [working] at starts
      rw [← Except.ok.inj starts]
      exact sound.working place working

/-- In a sound file system a path leads to a directory or to a name in a directory. -/
theorem Sound.ends (sound : system.Sound) (located : system.locate path last = .ok spot) :
    spot.node = some .directory ∨
      ∃ above name, spot.place = above ++ [name] ∧
        system.tree.nodeAt? above = some .directory ∧ Path.Plain name ∧
          ∀ target, spot.node = some (.link target) → last = true := by
  obtain ⟨_, start, starts, leads⟩ := locate_ok_iff.mp located
  exact leads.ends sound.tree (fun _ member => solid_of_mem_steps member) (sound.start starts)

/-- Two file systems have one ground when they have the same directories and links and the same
working directory. -/
structure SameGround (system after : FileSystem) : Prop where
  /-- Directories and links are where they were. -/
  guides : ∀ place, after.tree.guide? place = system.tree.guide? place
  /-- Relative paths start where they did. -/
  working : after.workingPlace? = system.workingPlace?

/-- Paths start where they did under the same working directory. -/
theorem startOf_congr (working : after.workingPlace? = system.workingPlace?) :
    after.startOf path = system.startOf path := by
  unfold startOf
  rw [working]

/-- An absolute path starts at the root. -/
theorem startOf_absolute (absolute : Path.isAbsolute path = true) :
    system.startOf path = .ok [] := if_pos absolute

/-- A path leads where it led, as long as directories and links stay. A link may stop to be meant
only where none is. -/
theorem locate_extends (grows : Extends system.tree after.tree)
    (starts : after.startOf path = system.startOf path)
    (noLink : system.tree.guide? spot.place = none →
      ∀ target, after.tree.nodeAt? spot.place ≠ some (.link target))
    (ends : again = last ∨ again = false ∧ ∀ target, spot.node ≠ some (.link target))
    (located : system.locate path last = .ok spot) :
    after.locate path again = .ok ⟨spot.place, after.tree.nodeAt? spot.place⟩ := by
  obtain ⟨checked, start, begins, leads⟩ := locate_ok_iff.mp located
  exact locate_ok_iff.mpr
    ⟨checked, start, starts.trans begins, leads.extends_ grows noLink ends⟩

/-- A path to a directory still leads there, as long as directories and links stay. -/
theorem locate_extends_directory (grows : Extends system.tree after.tree)
    (starts : after.startOf path = system.startOf path) {place : Place}
    (located : system.locate path last = .ok ⟨place, some .directory⟩) :
    after.locate path last = .ok ⟨place, some .directory⟩ := by
  have stands : system.tree.nodeAt? place = some .directory := (node_of_locate located).symm
  have kept := locate_extends grows starts (fun guideless => ?_) (.inl rfl) located
  · dsimp only at kept
    rwa [grows.directory stands] at kept
  · exact absurd stands (guide?_eq_none.mp guideless).1

namespace SameGround

/-- One ground is the other. -/
theorem symm (same : SameGround system after) : SameGround after system :=
  ⟨fun place => (same.guides place).symm, same.working.symm⟩

/-- One ground is extended by the other. -/
theorem extends_ (same : SameGround system after) : Extends system.tree after.tree :=
  fun place _ guides => (same.guides place).trans guides

/-- A path leads where it led on the same ground. -/
theorem locate (same : SameGround system after) (located : system.locate path last = .ok spot) :
    after.locate path last = .ok ⟨spot.place, after.tree.nodeAt? spot.place⟩ := by
  refine locate_extends same.extends_ (startOf_congr same.working) (fun free target stands => ?_)
    (.inl rfl) located
  rw [← same.guides] at free
  exact (guide?_eq_none.mp free).2 target stands

end SameGround

/-- Where a file is written: at a name in a directory, where no directory and no link is. -/
theorem Sound.writeFile_ok (sound : system.Sound) {content : List UInt8}
    (wrote : system.writeFile path content = .ok after) :
    ∃ above name node, system.locate path false = .ok ⟨above ++ [name], node⟩ ∧
      system.tree.nodeAt? above = some .directory ∧ Path.Plain name ∧
      system.tree.guide? (above ++ [name]) = none ∧
      after = { system with tree := system.tree.put (above ++ [name]) (.file content) } := by
  obtain ⟨spot, located, wrote⟩ := Result.bind_ok.mp wrote
  have located : system.locate path false = .ok spot := by
    obtain ⟨_, _, located⟩ := Result.bind_ok.mp located
    split at located
    · obtain ⟨_, _, refused⟩ := Result.bind_ok.mp located
      cases refused
    · exact located
  have stands := node_of_locate located
  obtain ⟨place, node⟩ := spot
  rcases sound.ends located with directory | ⟨above, name, rfl, inside, plain, noLink⟩
  · dsimp only at directory
    rw [directory] at wrote
    cases wrote
  · dsimp only at stands noLink
    have ends : system.tree.guide? (above ++ [name]) = none := by
      rw [guide?_eq_none, ← stands]
      refine ⟨fun directory => ?_, fun target link => absurd (noLink target link) (by decide)⟩
      rw [directory] at wrote
      cases wrote
    refine ⟨above, name, node, located, inside, plain, ends, ?_⟩
    dsimp only at wrote
    split at wrote
    · cases wrote
    · exact (Except.ok.inj wrote).symm

/-- A file that is put where no directory and no link is leaves the ground as it is. -/
theorem sameGround_put (sound : system.Sound) {place : Place} {content : List UInt8}
    (below : place ≠ []) (ends : system.tree.guide? place = none) :
    SameGround system { system with tree := system.tree.put place (.file content) } where
  guides other := by
    unfold guide? at ends ⊢
    dsimp only
    rw [nodeAt?_put below]
    by_cases same : other = place
    · rw [if_pos same, same, ends]
    · rw [if_neg same]
  working := placeOf?_put sound.given

/-- Writing a file leaves the ground as it is and the file system sound. -/
theorem Sound.writeFile (sound : system.Sound) {content : List UInt8}
    (wrote : system.writeFile path content = .ok after) :
    after.Sound ∧ SameGround system after := by
  obtain ⟨above, name, node, _, inside, plain, ends, rfl⟩ := sound.writeFile_ok wrote
  have same : SameGround system
      { system with tree := system.tree.put (above ++ [name]) (.file content) } :=
    sameGround_put sound (List.concat_ne_nil _ _) ends
  refine ⟨⟨sound.tree.put inside plain (guide?_eq_none.mp ends).1, ?_, ?_⟩, same⟩
  · exact Nat.lt_of_lt_of_le sound.given nextSerial_put
  · intro place working
    rw [same.working] at working
    exact same.extends_.directory (sound.working place working)

/-- A file that was written is found under its path with its bytes. -/
theorem Sound.contentOf_writeFile (sound : system.Sound) {content : List UInt8}
    (wrote : system.writeFile path content = .ok after) : after.contentOf path = .ok content := by
  have same := (sound.writeFile wrote).2
  obtain ⟨above, name, node, located, _, _, _, rfl⟩ := sound.writeFile_ok wrote
  have found := same.locate located
  dsimp only at found
  rw [nodeAt?_put (List.concat_ne_nil _ _), if_pos rfl] at found
  unfold contentOf nodeOf
  rw [found]
  rfl

end Micromag.FileSystem

/-!
## Laws of actions

An action that follows another runs on what the first left, and not at all when the first fails.
Actions that only look at a state leave it as it was, whatever their result, and stay so when one
follows the other.
-/

namespace Micromag.Action

variable {σ τ α β : Type}

/-- Following one action by another is running the second on what the first left. -/
theorem bind_apply (first : Action σ α) (next : α → Action σ β) (state : σ) :
    (first >>= next) state =
      match first state with
      | (.ok value, middle) => next value middle
      | (.error fault, middle) => (.error fault, middle) := rfl

/-- Two actions one after the other succeed when the first does and the second does on what it
left. -/
theorem bind_ok {first : Action σ α} {next : α → Action σ β} {state after : σ} {result : β} :
    (first >>= next) state = (.ok result, after) ↔
      ∃ value middle, first state = (.ok value, middle) ∧
        next value middle = (.ok result, after) := by
  rw [bind_apply]
  rcases first state with ⟨outcome, middle⟩
  cases outcome with
  | error fault =>
    exact ⟨fun failed => (nomatch (Prod.mk.inj failed).1),
      fun ⟨_, _, failed, _⟩ => (nomatch (Prod.mk.inj failed).1)⟩
  | ok value =>
    constructor
    · exact fun tail => ⟨value, middle, rfl, tail⟩
    · rintro ⟨_, _, same, tail⟩
      obtain ⟨first, rfl⟩ := Prod.mk.inj same
      obtain rfl := Except.ok.inj first
      exact tail

/-- It does not matter which of three actions in a row are taken together. -/
theorem bind_assoc {γ : Type} (first : Action σ α) (next : α → Action σ β) (last : β → Action σ γ) :
    (first >>= next) >>= last = first >>= fun value => next value >>= last := by
  funext state
  rw [bind_apply, bind_apply, bind_apply]
  rcases first state with ⟨result, middle⟩
  cases result <;> rfl

/-- A result that leaves the state alone, whatever the state. -/
@[simp] theorem lift_apply (result : Except Fault α) (state : σ) :
    (liftM result : Action σ α) state = (result, state) := rfl

/-- A value without an action leaves the state alone. -/
@[simp] theorem pure_apply (value : α) (state : σ) :
    (pure value : Action σ α) state = (.ok value, state) := rfl

/-- Reading the state always succeeds. -/
@[simp] theorem read_apply (f : σ → α) (state : σ) : read f state = (.ok (f state), state) := rfl

/-- An action whose fault does not matter always succeeds. -/
@[simp] theorem attempt_apply (action : Action σ α) (state : σ) :
    attempt action state = (.ok (action state).1, (action state).2) := rfl

/-- An action leaves every state as it was, whether it succeeds or not. -/
def LooksOnly (action : Action σ α) : Prop := ∀ state, (action state).2 = state

/-- The whole outcome of an action that only looks. -/
theorem LooksOnly.apply {action : Action σ α} (looks : action.LooksOnly) (state : σ) :
    action state = ((action state).1, state) := Prod.ext rfl (looks state)

/-- One looking action after another only looks. -/
theorem LooksOnly.bind {first : Action σ α} {next : α → Action σ β} (head : first.LooksOnly)
    (tail : ∀ value, (next value).LooksOnly) : (first >>= next).LooksOnly := by
  intro state
  rw [bind_apply, head.apply state]
  cases (first state).1 with
  | ok value => exact tail value state
  | error fault => rfl

/-- An action after one that only looks runs on the same state. -/
theorem LooksOnly.bind_ok {first : Action σ α} {next : α → Action σ β} (looks : first.LooksOnly)
    {state after : σ} {result : β} : (first >>= next) state = (.ok result, after) ↔
      ∃ value, (first state).1 = .ok value ∧ next value state = (.ok result, after) := by
  rw [Action.bind_ok]
  refine exists_congr fun value => ?_
  rw [looks.apply state]
  constructor
  · rintro ⟨middle, same, tail⟩
    obtain ⟨told, rfl⟩ := Prod.mk.inj same
    exact ⟨told, tail⟩
  · rintro ⟨told, tail⟩
    exact ⟨state, congrArg (·, state) told, tail⟩

/-- A result without an action only looks. -/
theorem looksOnly_lift (result : Except Fault α) : (liftM result : Action σ α).LooksOnly :=
  fun _ => rfl

/-- A value without an action only looks. -/
theorem looksOnly_pure (value : α) : (pure value : Action σ α).LooksOnly := fun _ => rfl

/-- Stopping with a fault only looks. -/
theorem looksOnly_fail (fault : Fault) : (fail fault : Action σ α).LooksOnly := fun _ => rfl

/-- Reading a value of the state only looks. -/
theorem looksOnly_read (f : σ → α) : (read f).LooksOnly := fun _ => rfl

end Micromag.Action

namespace Micromag.FileAction

/-- Looking at the file system leaves it alone. -/
theorem looksOnly_look {α : Type} (code what : String) (f : FileSystem → Except FileFault α) :
    Action.LooksOnly (look code what f) := fun _ => rfl

/-- A change of the file system that is not refused. -/
theorem change_ok {code what : String} {f : FileSystem → Except FileFault FileSystem}
    {files after : FileSystem} :
    change code what f files = (.ok (), after) ↔ f files = .ok after := by
  unfold change
  cases f files with
  | error cause => exact ⟨fun failed => (nomatch (Prod.mk.inj failed).1), (nomatch ·)⟩
  | ok changed =>
    exact ⟨fun same => congrArg Except.ok (Prod.mk.inj same).2,
      fun same => congrArg (Prod.mk (Except.ok ())) (Except.ok.inj same)⟩

/-- A directory that is asked for and could be made. -/
theorem makeDirectories_ok {code path : String} {files after : FileSystem} :
    makeDirectories code path files = (.ok (), after) ↔
      files.makeDirectories path = (after, .ok ()) := by
  unfold makeDirectories
  rcases files.makeDirectories path with ⟨made, result⟩
  cases result with
  | error cause =>
    exact ⟨fun same => absurd (Prod.mk.inj same).1 (by simp [Except.mapError]),
      fun same => absurd (Prod.mk.inj same).2 (by simp)⟩
  | ok _ =>
    constructor
    · intro same
      rw [(Prod.mk.inj same).2]
    · intro same
      rw [(Prod.mk.inj same).1]
      rfl

end Micromag.FileAction
