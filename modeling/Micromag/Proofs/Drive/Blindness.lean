import Micromag.Proofs.Drive.Artifact
import Micromag.Proofs.Drive.Handover
import Micromag.Proofs.Files.Renumbering

/-!
# Drives do not see numbers

On files that are alike up to the numbers of entries a drive comes to the same: it finds the same
drives, gives the engine the same script, and takes over the same files. For that the engine must not
see the numbers either. Of several files the one with the largest number is taken, but which one that
is depends on the order of the numbers only.
-/

namespace Micromag

open FileSystem

namespace FileAction

variable {α β : Type}

/-- Whether an action comes to the same on files that differ in numbers only. -/
def Blind (action : FileAction α) : Prop :=
  ∀ f files others, Alike f files others →
    (action others).1 = (action files).1 ∧ Alike f (action files).2 (action others).2

/-- What a blind action leaves of regular files is regular. -/
theorem Blind.regular {action : FileAction α} (blind : Blind action) {files : FileSystem}
    (regular : files.Regular) : (action files).2.Regular :=
  (blind id files files (.refl regular)).2.regular

namespace Blind

/-- An action that only looks is blind if it finds the same. -/
theorem of_looksOnly {action : FileAction α} (looks : Action.LooksOnly action)
    (same : ∀ f files others, Alike f files others → (action others).1 = (action files).1) :
    Blind action := by
  intro f files others alike
  refine ⟨same f files others alike, ?_⟩
  rw [looks files, looks others]
  exact alike

/-- A result without an action does not depend on files. -/
theorem lift (result : Except Fault α) : Blind (liftM result : FileAction α) :=
  fun _ _ _ alike => ⟨rfl, alike⟩

/-- Nor does a value. -/
theorem pure (value : α) : Blind (Pure.pure value : FileAction α) :=
  fun _ _ _ alike => ⟨rfl, alike⟩

/-- Nor does a fault. -/
theorem fail (fault : Fault) : Blind (Action.fail fault : FileAction α) :=
  fun _ _ _ alike => ⟨rfl, alike⟩

/-- Something that is looked up in both. -/
theorem look (code what : String) {find : FileSystem → Except FileFault α}
    (same : ∀ f files others, Alike f files others → find others = find files) :
    Blind (FileAction.look code what find) :=
  of_looksOnly (looksOnly_look code what find) fun f files others alike => by
    unfold FileAction.look
    rw [same f files others alike]

/-- Something that is read in both. -/
theorem read {find : FileSystem → α}
    (same : ∀ f files others, Alike f files others → find others = find files) :
    Blind (Action.read find) :=
  of_looksOnly (Action.looksOnly_read find) fun f files others alike => by
    rw [Action.read_apply, Action.read_apply, same f files others alike]

/-- Blind actions one after the other. -/
theorem bind {first : FileAction α} {next : α → FileAction β} (head : Blind first)
    (tail : ∀ value, Blind (next value)) : Blind (first >>= next) := by
  intro f files others alike
  obtain ⟨same, middle⟩ := head f files others alike
  rw [Action.bind_apply, Action.bind_apply]
  rcases one : first files with ⟨result, left⟩
  rcases other : first others with ⟨ended, kept⟩
  rw [one, other] at same middle
  obtain rfl : ended = result := same
  cases ended with
  | error fault => exact ⟨rfl, middle⟩
  | ok value => exact tail value f left kept middle

/-- Going on after a fault. -/
theorem attempt {action : FileAction α} (blind : Blind action) :
    Blind (Action.attempt action) := by
  intro f files others alike
  obtain ⟨same, after⟩ := blind f files others alike
  exact ⟨congrArg Except.ok same, after⟩

/-- A change that is made in both or refused by both. -/
theorem change (code what : String) {make : FileSystem → Except FileFault FileSystem}
    (made : ∀ f files others, Alike f files others →
      AlikeResults f (make files) (make others)) :
    Blind (FileAction.change code what make) := by
  intro f files others alike
  have results := made f files others alike
  unfold FileAction.change
  generalize make files = result, make others = other at results
  cases results with
  | error cause => exact ⟨rfl, alike⟩
  | ok after => exact ⟨rfl, after⟩

/-- A file is written. -/
theorem writeFile (code what path : String) (content : List UInt8) :
    Blind (FileAction.change code what (·.writeFile path content)) :=
  change code what fun _ _ _ alike => alike.writeFile path content

/-- A directory is asked for. -/
theorem makeDirectories (code path : String) : Blind (FileAction.makeDirectories code path) := by
  intro f files others alike
  obtain ⟨same, made⟩ := alike.makeDirectories path
  unfold FileAction.makeDirectories
  rcases one : files.makeDirectories path with ⟨grown, result⟩
  rcases other : others.makeDirectories path with ⟨raised, ended⟩
  rw [one, other] at same made
  obtain rfl : ended = result := same
  exact ⟨rfl, made⟩

/-- A directory is listed, and nothing but the names in it is used. -/
theorem listed {code what path : String} {next : List (String × Entry) → FileAction β}
    (names : ∀ found more, found.map (·.1) = more.map (·.1) → next found = next more)
    (tail : ∀ found, Blind (next found)) :
    Blind (FileAction.look code what (·.list path) >>= next) := by
  intro f files others alike
  have listed := alike.names path
  rw [Action.bind_apply, Action.bind_apply]
  unfold FileAction.look
  dsimp only
  cases one : files.list path with
  | error cause =>
    rw [one] at listed
    cases other : others.list path with
    | error more =>
      rw [other] at listed
      obtain rfl := Except.error.inj listed
      exact ⟨rfl, alike⟩
    | ok more =>
      rw [other] at listed
      cases listed
  | ok found =>
    rw [one] at listed
    cases other : others.list path with
    | error cause =>
      rw [other] at listed
      cases listed
    | ok more =>
      rw [other] at listed
      dsimp only [Except.mapError]
      rw [names more found (Except.ok.inj listed)]
      exact tail found f files others alike

end Blind

end FileAction

/-- Whether what an engine does hangs on no numbers. -/
def Engine.Blind (engine : Engine) : Prop := ∀ script, FileAction.Blind (engine script)

/-! ## The latest file -/

namespace Candidate

variable {f : Nat → Nat}

/-- A candidate with another number. -/
def renumbered (f : Nat → Nat) (candidate : Candidate) : Candidate :=
  { candidate with created := candidate.created.map f }

/-- Candidates give way to one another as before when the order of numbers stays. -/
theorem yieldsTo_renumbered (mono : StrictMono f) (first second : Candidate) :
    (first.renumbered f).yieldsTo (second.renumbered f) = first.yieldsTo second := by
  obtain ⟨early, name⟩ := first
  obtain ⟨late, other⟩ := second
  cases early with
  | none => cases late <;> rfl
  | some early =>
    cases late with
    | none => rfl
    | some late =>
      show yieldsTo ⟨some (f early), name⟩ ⟨some (f late), other⟩ = _
      rw [Bool.eq_iff_iff, yieldsTo_iff, yieldsTo_iff, mono.lt_iff_lt, mono.injective.eq_iff]

/-- So the same candidate is taken. -/
theorem latest?_renumbered (mono : StrictMono f) (candidates : List Candidate) :
    latest? (candidates.map (renumbered f)) = (latest? candidates).map (renumbered f) := by
  unfold latest?
  rw [List.foldl_map]
  refine (List.foldl_hom (Option.map (renumbered f)) fun best next => ?_ :
    _ = Option.map (renumbered f) (candidates.foldl _ none))
  cases best with
  | none => rfl
  | some best =>
    dsimp only [Option.map_some]
    rw [yieldsTo_renumbered mono]
    split <;> rfl

end Candidate

namespace Artifact

open FileAction

/-- The same files may be taken, with the other numbers. -/
theorem candidates_of_alike {f : Nat → Nat} {files others : FileSystem}
    (alike : Alike f files others) (directory : String) (pattern : Pattern) (names : List String) :
    candidates others directory pattern names =
      (candidates files directory pattern names).map (Candidate.renumbered f) := by
  unfold candidates
  rw [List.map_filterMap]
  congr 1
  funext name
  dsimp only
  rw [alike.isFile, alike.serialOf?]
  split <;> rfl

/-- The same file is the latest. -/
theorem blind_latest? (directory text : String) : Blind (latest? directory text) := by
  refine (Blind.lift _).bind fun pattern =>
    .listed (fun found more same => by rw [same]) fun found => ?_
  refine .of_looksOnly ((Action.looksOnly_read _).bind fun _ => Action.looksOnly_pure _)
    fun f files others alike => ?_
  rw [Action.bind_apply, Action.bind_apply, Action.read_apply, Action.read_apply]
  dsimp only
  rw [candidates_of_alike alike, Candidate.latest?_renumbered alike.numbers.mono, Action.pure_apply,
    Action.pure_apply, Option.map_map]
  rfl

/-- The same field is read. -/
theorem blind_readField (path : String) : Blind (readField path) :=
  (Blind.look _ _ fun _ _ _ alike => alike.contentOf path).bind fun _ => .lift _

/-- The same table is read. -/
theorem blind_readTable (path : String) (rename : Bool) : Blind (readTable path rename) := by
  refine (Blind.look _ _ fun f files others alike => ?_).bind fun _ => .lift _
  rw [alike.contentOf]

end Artifact

namespace WorkingDir

open FileAction

/-- The same directory is entered. -/
theorem blind_enter (path : String) : Blind (enter path) :=
  (Blind.look _ _ fun _ _ _ alike => alike.currentPath).bind fun _ =>
    (Blind.change _ _ fun _ _ _ alike => alike.changeDirectory path).bind fun _ => .pure _

/-- Files stay alike when the working directory is left. -/
theorem alike_leave {f : Nat → Nat} {files others : FileSystem} (alike : Alike f files others)
    (previous : String) : Alike f (leave previous files) (leave previous others) := by
  have results := alike.changeDirectory previous
  unfold leave
  generalize files.changeDirectory previous = result, others.changeDirectory previous = other
    at results
  cases results with
  | error cause => exact alike
  | ok after => exact after

/-- An action in a directory comes to the same. -/
theorem blind_within {α : Type} {path : String} {action : FileAction α} (blind : Blind action) :
    Blind (within path action) := by
  refine (blind_enter path).bind fun previous f files others alike => ?_
  obtain ⟨same, after⟩ := blind f files others alike
  exact ⟨same, alike_leave after previous⟩

end WorkingDir

namespace Drive

open FileAction

variable {engine : Engine}

/-- The directory of a problem is found under the same path. -/
theorem blind_problemDirectory (directory name : String) :
    Blind (problemDirectory directory name) :=
  .of_looksOnly (looksOnly_problemDirectory directory name) fun f files others alike => by
    rw [problemDirectory_apply, problemDirectory_apply, alike.workingPlace?]

/-- The same drives are found. -/
theorem blind_indices (path : String) : Blind (indices path) := by
  refine (Blind.read fun _ _ _ alike => alike.isDirectory path).bind fun stands => ?_
  split
  · refine .listed (fun found more same => by rw [same]) fun found => ?_
    refine (Blind.read fun f files others alike => ?_).bind fun _ => .pure _
    congr 1
    funext name
    exact alike.isDirectory _
  · exact .pure _

/-- The next drive has the same number. -/
theorem blind_nextIndex (path : String) (append : Bool) : Blind (nextIndex path append) := by
  refine (blind_indices path).bind fun numbers => ?_
  cases numbers.getLast? with
  | none => exact .pure _
  | some last =>
    dsimp only
    split
    · exact .pure _
    · exact .fail _

/-- The same directory is made for a drive. -/
theorem blind_opening (options : DriveOptions) (intent : Intent) (problem : Problem) :
    Blind (opening options intent problem) :=
  (Blind.lift _).bind fun _ => (blind_problemDirectory _ _).bind fun _ =>
    (blind_nextIndex _ _).bind fun _ => (Blind.makeDirectories _ _).bind fun _ => .pure _

/-- It is filled with the same files. -/
theorem blind_fill (directory name : String) (script : LoweredScript) :
    Blind (fill directory name script) := by
  have sidecars (sidecars : List Sidecar) : Blind (writeSidecars directory sidecars) := by
    induction sidecars with
    | nil => exact .pure _
    | cons sidecar rest ih => exact (Blind.writeFile _ _ _ _).bind fun _ => ih
  exact (Blind.writeFile _ _ _ _).bind fun _ => (sidecars _).bind fun _ => .pure _

/-- The engine is given the same. -/
theorem blind_staging (options : DriveOptions) (intent : Intent) (problem : Problem) :
    Blind (staging options intent problem) :=
  (blind_opening options intent problem).bind fun _ => (blind_fill _ _ _).bind fun _ =>
    (WorkingDir.blind_enter _).bind fun _ => .pure _

/-- A run of a blind engine comes to the same. -/
theorem blind_run (blind : engine.Blind) (now : Timestamp) (options : DriveOptions)
    (intent : Intent) (problem : Problem) : Blind (run now engine options intent problem) := by
  rw [run_eq]
  refine (blind_opening options intent problem).bind fun opened => ?_
  refine (blind_fill _ _ _).bind fun path => ?_
  refine (WorkingDir.blind_within (blind path)).attempt.bind fun output => ?_
  refine (Blind.writeFile _ _ _ _).attempt.bind fun manifested => ?_
  cases manifested with
  | error fault => cases output <;> exact .fail _
  | ok _ =>
    cases output with
    | error fault => exact .fail _
    | ok output => exact (Blind.lift _).bind fun _ => .pure _

/-- The same snapshot is found. -/
theorem blind_snapshot (directory name : String) : Blind (snapshot directory name) := by
  refine (Artifact.blind_latest? _ _).bind fun found => ?_
  cases found with
  | none => exact .fail _
  | some path => exact .pure _

end Drive

end Micromag
