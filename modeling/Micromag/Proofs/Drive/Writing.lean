import Micromag.Drive.Compute
import Micromag.Proofs.Files.System

/-!
# Writing the files of a drive

The script, its field files and the manifest are written where no directory and no link is, so that
directories and links stay whether the writing succeeds or not. The same holds for one such action
after another.
-/

namespace Micromag

open FileSystem

/-- One ground is the same as itself. -/
theorem FileSystem.SameGround.refl (system : FileSystem) : SameGround system system :=
  ⟨fun _ => rfl, rfl⟩

/-- The same ground twice. -/
theorem FileSystem.SameGround.trans {system middle after : FileSystem}
    (first : SameGround system middle) (second : SameGround middle after) :
    SameGround system after :=
  ⟨fun place => (second.guides place).trans (first.guides place),
    second.working.trans first.working⟩

namespace FileAction

variable {α β : Type}

/-- Whether an action keeps a sound file system sound, with its directories and links, whatever the
result. -/
def KeepsGround (action : FileAction α) : Prop :=
  ∀ files, files.Sound → (action files).2.Sound ∧ SameGround files (action files).2

namespace KeepsGround

/-- An action that only looks keeps the ground. -/
theorem of_looksOnly {action : FileAction α} (looks : Action.LooksOnly action) :
    KeepsGround action := by
  intro files sound
  rw [looks files]
  exact ⟨sound, .refl files⟩

/-- Actions one after the other keep the ground if both do. -/
theorem bind {first : FileAction α} {next : α → FileAction β} (head : KeepsGround first)
    (tail : ∀ value, KeepsGround (next value)) : KeepsGround (first >>= next) := by
  intro files sound
  obtain ⟨middleSound, firstGround⟩ := head files sound
  rw [Action.bind_apply]
  rcases ran : first files with ⟨result, middle⟩
  rw [ran] at middleSound firstGround
  cases result with
  | error fault => exact ⟨middleSound, firstGround⟩
  | ok value =>
    obtain ⟨afterSound, secondGround⟩ := tail value middle middleSound
    exact ⟨afterSound, firstGround.trans secondGround⟩

/-- Going on after a fault does not matter. -/
theorem attempt {action : FileAction α} (keeps : KeepsGround action) :
    KeepsGround (Action.attempt action) := keeps

/-- A file is written on the same ground. -/
theorem writeFile (code what path : String) (content : List UInt8) :
    KeepsGround (FileAction.change code what (·.writeFile path content)) := by
  intro files sound
  unfold FileAction.change
  dsimp only
  cases wrote : files.writeFile path content with
  | error cause => exact ⟨sound, .refl files⟩
  | ok after => exact sound.writeFile wrote

end KeepsGround

/-- Whether an action keeps a sound file system sound, whatever the result. -/
def KeepsSound (action : FileAction α) : Prop := ∀ files, files.Sound → (action files).2.Sound

namespace KeepsSound

/-- On the same ground files stay sound. -/
theorem of_keepsGround {action : FileAction α} (keeps : KeepsGround action) : KeepsSound action :=
  fun files sound => (keeps files sound).1

/-- An action that only looks keeps files sound. -/
theorem of_looksOnly {action : FileAction α} (looks : Action.LooksOnly action) :
    KeepsSound action :=
  of_keepsGround (.of_looksOnly looks)

/-- Actions one after the other keep files sound if both do. -/
theorem bind {first : FileAction α} {next : α → FileAction β} (head : KeepsSound first)
    (tail : ∀ value, KeepsSound (next value)) : KeepsSound (first >>= next) := by
  intro files sound
  have middleSound := head files sound
  rw [Action.bind_apply]
  rcases ran : first files with ⟨result, middle⟩
  rw [ran] at middleSound
  cases result with
  | error fault => exact middleSound
  | ok value => exact tail value middle middleSound

/-- Going on after a fault does not matter. -/
theorem attempt {action : FileAction α} (keeps : KeepsSound action) :
    KeepsSound (Action.attempt action) := keeps

/-- A change that keeps files sound when it is not refused. -/
theorem change {code what : String} {f : FileSystem → Except FileFault FileSystem}
    (keeps : ∀ files after, files.Sound → f files = .ok after → after.Sound) :
    KeepsSound (FileAction.change code what f) := by
  intro files sound
  unfold FileAction.change
  cases changed : f files with
  | error cause => exact sound
  | ok after => exact keeps files after sound changed

end KeepsSound

end FileAction

namespace Drive

open FileAction

/-- Field files are written on the same ground. -/
theorem keepsGround_writeSidecars (directory : String) (sidecars : List Sidecar) :
    KeepsGround (writeSidecars directory sidecars) := by
  induction sidecars with
  | nil => exact .of_looksOnly (Action.looksOnly_pure ())
  | cons sidecar rest ih => exact (KeepsGround.writeFile _ _ _ _).bind fun _ => ih

/-- A manifest is written on the same ground. -/
theorem keepsGround_writeManifest (directory : String) (manifest : Manifest) :
    KeepsGround (writeManifest directory manifest) := KeepsGround.writeFile _ _ _ _

/-- Write a script and its field files into a directory: the path of the script. -/
def fill (directory name : String) (script : LoweredScript) : FileAction String := do
  let path := Path.join directory (name ++ ".mif")
  Artifact.writeText "IO.SCRIPT_WRITE" path script.text
  writeSidecars directory script.sidecars
  return path

/-- A directory is filled on the same ground. -/
theorem keepsGround_fill (directory name : String) (script : LoweredScript) :
    KeepsGround (fill directory name script) :=
  (KeepsGround.writeFile _ _ _ _).bind fun _ =>
    (keepsGround_writeSidecars directory script.sidecars).bind fun _ =>
      .of_looksOnly (Action.looksOnly_pure _)

/-- A directory is made and then filled. -/
theorem prepare_eq (directory name : String) (script : LoweredScript) :
    prepare directory name script =
      (FileAction.makeDirectories "IO.DRIVE_DIR" directory >>= fun _ =>
        fill directory name script) := rfl

end Drive

end Micromag
