import Micromag.Proofs.Drive.Operating
import Micromag.Proofs.Drive.Sidecar
import Micromag.Proofs.Files.Room

/-!
# Before and after the engine

A drive makes its directory, fills it and enters it, then the engine runs, and afterwards the
manifest is written. Nothing but the run of the engine depends on the engine, and it runs only when
everything before succeeded. If the place of the directory was free when the drive began, the engine
finds no files there but the script and the field files, and the magnetisation of the problem can be
read from one of them. The place was free unless the numbers of drives are used up or the path goes
back from a directory that was not there.
-/

namespace Micromag

open FileSystem

/-- A directory that is entered becomes the working directory, and the path of the one before is
told. -/
theorem WorkingDir.enter_ok {path previous : String} {files entered : FileSystem} :
    enter path files = (.ok previous, entered) ↔
      files.currentPath = .ok previous ∧ files.changeDirectory path = .ok entered := by
  unfold enter
  rw [Action.bind_ok]
  constructor
  · rintro ⟨told, middle, looked, rest⟩
    obtain ⟨known, rfl⟩ := Prod.mk.inj looked
    obtain ⟨_, _, changed, last⟩ := Action.bind_ok.mp rest
    obtain ⟨same, rfl⟩ := Prod.mk.inj last
    rw [← Except.ok.inj same]
    exact ⟨Result.mapError_ok.mp known, FileAction.change_ok.mp changed⟩
  · rintro ⟨known, changed⟩
    exact ⟨previous, files, Prod.ext (Result.mapError_ok.mpr known) rfl,
      Action.bind_ok.mpr ⟨(), entered, FileAction.change_ok.mpr changed, rfl⟩⟩

namespace Drive

variable {files entered after made left : FileSystem} {options : DriveOptions} {intent : Intent}
  {problem : Problem} {now : Timestamp} {engine : Engine} {outcome : DriveOutcome}
  {directory name path : String} {place : Place}

/-! ## Stages -/

/-- A drive whose directory was filled and entered. -/
structure Staged extends Opened where
  /-- The path of the script. -/
  path : String
  /-- The path of the working directory before. -/
  previous : String

/-- What a drive does until the engine runs. -/
def staging (options : DriveOptions) (intent : Intent) (problem : Problem) :
    FileAction Staged := do
  let opened ← opening options intent problem
  let path ← fill opened.directory problem.name opened.script
  let previous ← WorkingDir.enter opened.directory
  return ⟨opened, path, previous⟩

/-- What a drive does after the engine ran. -/
def closing (now : Timestamp) (intent : Intent) (staged : Staged)
    (output : Except Fault RunOutput) : FileAction DriveOutcome := do
  Action.modify (WorkingDir.leave staged.previous)
  let manifest := Manifest.ofTime now staged.index intent.driverName intent.manifestArguments
  match ← Action.attempt (writeManifest staged.directory manifest), output with
  | .error fault, .ok _ => Action.fail fault
  | _, .error fault => Action.fail fault
  | .ok _, .ok output =>
    return ⟨staged.index, staged.directory, ← requireSuccess output staged.path⟩

variable {staged : Staged}

/-- A drive that was staged runs the engine on its script and is closed. -/
theorem run_of_staged (began : staging options intent problem files = (.ok staged, entered))
    (now : Timestamp) (engine : Engine) : run now engine options intent problem files =
      closing now intent staged (engine staged.path entered).1 (engine staged.path entered).2 := by
  obtain ⟨opened, middle, opens, rest⟩ := Action.bind_ok.mp began
  obtain ⟨path, filled, fills, rest⟩ := Action.bind_ok.mp rest
  obtain ⟨previous, inside, enters, last⟩ := Action.bind_ok.mp rest
  obtain ⟨same, rfl⟩ := Prod.mk.inj last
  rw [← Except.ok.inj same, run_eq, Action.bind_apply, opens]
  dsimp only
  unfold finish
  rw [Action.bind_apply, fills]
  dsimp only
  unfold invoke
  rw [Action.bind_apply, Action.attempt_apply, WorkingDir.within_apply, enters]
  rfl

/-- A drive that was not staged fails, and comes to the same whatever the engine would do. -/
theorem run_of_unstaged {fault : Fault}
    (failed : staging options intent problem files = (.error fault, left)) (now : Timestamp) :
    ∃ told last, ∀ engine, run now engine options intent problem files = (.error told, last) := by
  unfold staging at failed
  rw [Action.bind_apply] at failed
  rcases opens : opening options intent problem files with ⟨result, made⟩
  rw [opens] at failed
  cases result with
  | error told => exact ⟨told, made, fun engine => by rw [run_eq, Action.bind_apply, opens]⟩
  | ok opened =>
    dsimp only at failed
    rw [Action.bind_apply] at failed
    rcases fills : fill opened.directory problem.name opened.script made with ⟨result, filled⟩
    rw [fills] at failed
    cases result with
    | error told =>
      refine ⟨told, filled, fun engine => ?_⟩
      rw [run_eq, Action.bind_apply, opens]
      dsimp only
      rw [finish, Action.bind_apply, fills]
    | ok path =>
      dsimp only at failed
      rw [Action.bind_apply] at failed
      rcases enters : WorkingDir.enter opened.directory filled with ⟨result, inside⟩
      rw [enters] at failed
      cases result with
      | ok previous => cases (Prod.mk.inj failed).1
      | error told =>
        let manifest := Manifest.ofTime now opened.index intent.driverName intent.manifestArguments
        refine ⟨told, (writeManifest opened.directory manifest inside).2, fun engine => ?_⟩
        rw [run_eq, Action.bind_apply, opens]
        dsimp only
        rw [finish, Action.bind_apply, fills]
        dsimp only
        unfold invoke
        rw [Action.bind_apply, Action.attempt_apply, WorkingDir.within_apply, enters]
        dsimp only
        rw [Action.bind_apply, Action.attempt_apply]
        dsimp only
        cases (writeManifest opened.directory manifest inside).1 <;> rfl

/-- A drive that succeeded was staged. -/
theorem staged_of_run (ran : run now engine options intent problem files = (.ok outcome, after)) :
    ∃ staged entered, staging options intent problem files = (.ok staged, entered) := by
  rcases began : staging options intent problem files with ⟨result, entered⟩
  cases result with
  | ok staged => exact ⟨staged, entered, rfl⟩
  | error fault =>
    obtain ⟨told, last, fails⟩ := run_of_unstaged began now
    rw [fails] at ran
    cases (Prod.mk.inj ran).1

/-- A drive that succeeded wrote its manifest after an engine that ended well. -/
theorem closing_ok {output : Except Fault RunOutput}
    (closed : closing now intent staged output left = (.ok outcome, after)) :
    outcome.index = staged.index ∧ outcome.directory = staged.directory ∧
      output = .ok outcome.output ∧ outcome.output.isSuccess = true ∧
      ∃ manifest : Manifest, writeManifest staged.directory manifest
        (WorkingDir.leave staged.previous left) = (.ok (), after) := by
  obtain ⟨_, _, leaves, rest⟩ := Action.bind_ok.mp closed
  obtain ⟨-, rfl⟩ := Prod.mk.inj leaves
  obtain ⟨manifested, _, wrote, rest⟩ := Action.bind_ok.mp rest
  obtain ⟨told, rfl⟩ := Prod.mk.inj wrote
  cases manifested with
  | error fault => cases output <;> cases (Prod.mk.inj rest).1
  | ok _ =>
    cases output with
    | error fault => cases (Prod.mk.inj rest).1
    | ok output =>
      obtain ⟨_, _, accepted, last⟩ := Action.bind_ok.mp rest
      obtain ⟨required, rfl⟩ := Prod.mk.inj accepted
      obtain ⟨same, rfl⟩ := Prod.mk.inj last
      unfold requireSuccess at required
      split at required
      · rename_i success
        obtain rfl := Except.ok.inj required
        rw [← Except.ok.inj same]
        exact ⟨rfl, rfl, rfl, success, _, Prod.ext (Except.ok.inj told) rfl⟩
      · cases required

/-! ## The number -/

/-- The numbers that are found in a directory are in order, and they are those in the names of the
directories in it. -/
theorem indices_spec (sound : files.Sound) {names : List String} (spells : Path.Spells path names) :
    ∃ numbers, indices path files = (.ok numbers, files) ∧ numbers.Pairwise (· ≤ ·) ∧
      ∀ n, n ∈ numbers ↔ ∃ name, indexOfName? name = some n ∧
        files.isDirectory (Path.join path name) = true := by
  refine ⟨_, indices_eq files path, pairwise_indicesOf _, fun n => ?_⟩
  rw [mem_indicesOf]
  by_cases stands : files.isDirectory path = true
  · obtain ⟨place, leads⟩ := isDirectory_iff.mp stands
    rw [directoriesIn_eq leads]
    constructor
    · rintro ⟨name, inside, read⟩
      exact ⟨name, read, (List.mem_filter.mp inside).2⟩
    · rintro ⟨name, read, directory⟩
      have numbered : (indexOfName? name).isSome = true := by rw [read]; rfl
      obtain ⟨solid, notHere, notUp⟩ := solid_of_indexOfName? numbered
      obtain ⟨other, located⟩ := isDirectory_iff.mp directory
      have inside := stands_of_locate_join spells ⟨solid, notHere, notUp⟩ leads located
      exact ⟨name, List.mem_filter.mpr ⟨FileTree.mem_children_names.mpr inside, directory⟩, read⟩
  · rw [directoriesIn_eq_nil (Bool.eq_false_iff.mpr stands)]
    refine ⟨fun ⟨_, absent, _⟩ => (nomatch absent), ?_⟩
    rintro ⟨name, read, directory⟩
    have numbered : (indexOfName? name).isSome = true := by rw [read]; rfl
    obtain ⟨solid, -⟩ := solid_of_indexOfName? numbered
    obtain ⟨other, located⟩ := isDirectory_iff.mp directory
    have checked := checkPath_of_join spells.absolute solid (locate_ok_iff.mp located).1
    exact absurd (sound.locate_front solid checked located) stands

/-- Looking for drives changes nothing. -/
theorem looksOnly_indices (directory : String) : (indices directory).LooksOnly := by
  refine (Action.looksOnly_read _).bind fun stands => ?_
  split
  · refine (FileAction.looksOnly_look _ _ _).bind fun found => ?_
    exact (Action.looksOnly_read _).bind fun _ => Action.looksOnly_pure _
  · exact Action.looksOnly_pure _

/-- Looking for the number of the next drive changes nothing. -/
theorem looksOnly_nextIndex (directory : String) (append : Bool) :
    (nextIndex directory append).LooksOnly := by
  refine (looksOnly_indices directory).bind fun numbers => ?_
  cases numbers.getLast? with
  | none => exact Action.looksOnly_pure _
  | some last =>
    dsimp only
    split
    · exact Action.looksOnly_pure _
    · exact Action.looksOnly_fail _

/-- The number of the next drive fits a word. -/
theorem nextIndex_lt {append : Bool} {index : Nat}
    (numbered : nextIndex path append files = (.ok index, after)) : index < 2 ^ 64 := by
  obtain ⟨numbers, _, _, rest⟩ := Action.bind_ok.mp numbered
  cases ends : numbers.getLast? with
  | none =>
    rw [ends] at rest
    obtain rfl : 0 = index := Except.ok.inj (Prod.mk.inj rest).1
    decide
  | some last =>
    rw [ends] at rest
    cases append with
    | false => cases (Prod.mk.inj rest).1
    | true =>
      obtain rfl : (last + 1) % 2 ^ 64 = index := Except.ok.inj (Prod.mk.inj rest).1
      exact Nat.mod_lt _ (by decide)

/-- Whether a drive finds a number for its directory that is not taken, and a path to it that does
not lead elsewhere when directories on the way are made: the numbers are not used up, and the
directory of the problem is there or its path does not go back. -/
def Fresh (options : DriveOptions) (name : String) (files : FileSystem) : Prop :=
  ∀ base, problemPath options.directory name files.workingPlace? = .ok base →
    (∀ numbers, (indices base files).1 = .ok numbers → numbers.getLast? ≠ some (2 ^ 64 - 1)) ∧
      (files.isDirectory base = true ∨ ".." ∉ Path.said options.directory)

/-- The number of the next drive is not that of a directory, unless the numbers are used up. -/
theorem nextIndex_free (sound : files.Sound) {names : List String}
    (spells : Path.Spells path names) {append : Bool} {index : Nat}
    (more : ∀ numbers, (indices path files).1 = .ok numbers →
      numbers.getLast? ≠ some (2 ^ 64 - 1))
    (numbered : nextIndex path append files = (.ok index, after)) :
    files.isDirectory (Path.join path (directoryName index)) = false := by
  obtain ⟨numbers, found, sorted, member⟩ := indices_spec sound spells
  have notMax := more numbers (congrArg Prod.fst found)
  unfold nextIndex at numbered
  rw [Action.bind_apply, found] at numbered
  dsimp only at numbered
  rw [Bool.eq_false_iff]
  intro directory
  cases ends : numbers.getLast? with
  | none =>
    rw [ends] at numbered
    obtain rfl : 0 = index := Except.ok.inj (Prod.mk.inj numbered).1
    have inside := (member 0).mpr ⟨_, indexOfName?_directoryName (by decide), directory⟩
    rw [List.getLast?_eq_none_iff.mp ends] at inside
    exact absurd inside List.not_mem_nil
  | some last =>
    obtain ⟨front, rfl⟩ := List.getLast?_eq_some_iff.mp ends
    obtain ⟨_, read, _⟩ := (member last).mp (by simp)
    have fits : last < 2 ^ 64 := lt_of_indexOfName? read
    rw [ends] at numbered notMax
    dsimp only at numbered
    cases append with
    | false => cases (Prod.mk.inj numbered).1
    | true =>
      obtain rfl : (last + 1) % 2 ^ 64 = index := Except.ok.inj (Prod.mk.inj numbered).1
      have below : last ≠ 2 ^ 64 - 1 := fun same => notMax (congrArg some same)
      rw [Nat.mod_eq_of_lt (by omega)] at directory
      have inside := (member (last + 1)).mpr ⟨_, indexOfName?_directoryName (by omega), directory⟩
      rcases List.mem_append.mp inside with before | same
      · have less := (List.pairwise_append.mp sorted).2.2 _ before last List.mem_cons_self
        omega
      · have equal := List.mem_singleton.mp same
        omega

/-! ## The directory -/

/-- Looking up the directory of a problem changes nothing. -/
theorem looksOnly_problemDirectory (directory name : String) :
    (problemDirectory directory name).LooksOnly := by
  intro files
  rw [problemDirectory_apply]

/-- What a drive found and made when its directory is there. -/
theorem opening_ok {opened : Opened}
    (opens : opening options intent problem files = (.ok opened, made)) :
    ∃ base, problem.lower intent options.settings options.platform = .ok opened.script ∧
      problemPath options.directory problem.name files.workingPlace? = .ok base ∧
      nextIndex base options.append files = (.ok opened.index, files) ∧
      opened.directory = Path.join base (directoryName opened.index) ∧
      files.makeDirectories opened.directory = (made, .ok ()) := by
  obtain ⟨script, lowers, rest⟩ := (Action.looksOnly_lift _).bind_ok.mp opens
  obtain ⟨base, found, rest⟩ := (looksOnly_problemDirectory _ _).bind_ok.mp rest
  obtain ⟨index, numbered, rest⟩ := (looksOnly_nextIndex _ _).bind_ok.mp rest
  obtain ⟨_, middle, asked, last⟩ := Action.bind_ok.mp rest
  obtain ⟨same, rfl⟩ := Prod.mk.inj last
  rw [problemDirectory_apply] at found
  rw [← Except.ok.inj same]
  refine ⟨base, lowers, found, ?_, rfl, FileAction.makeDirectories_ok.mp asked⟩
  exact ((looksOnly_nextIndex _ _).apply files).trans (congrArg (·, files) numbered)

/-- The path of the directory of a drive is that of the directory of its problem with one more
name. -/
theorem spells_directory (sound : files.Sound) (legal : Problem.isLegalName name = true)
    {base : String} (found : problemPath directory name files.workingPlace? = .ok base)
    {index : Nat} (fits : index < 2 ^ 64) :
    ∃ names, Path.Spells (Path.join base (directoryName index)) names ∧ names ≠ [] ∧
      ∀ part ∈ names, part ≠ "." := by
  obtain ⟨front, spells, parts, -⟩ := spells_of_problemPath legal
    (fun place known => sound.tree.plain_of_mem (sound.working place known)) found
  obtain ⟨notHere, -⟩ := Home.directoryName_ne fits
  refine ⟨_, spells.join (solid_directoryName index), List.concat_ne_nil _ _, ?_⟩
  exact List.forall_mem_append.mpr
    ⟨fun part member => (parts part member).2, List.forall_mem_singleton.mpr notHere⟩

/-- The directory of a fresh drive is made where nothing was. -/
theorem place_free (sound : files.Sound) {opened : Opened}
    (opens : opening options intent problem files = (.ok opened, made))
    (fresh : Fresh options problem.name files)
    (leads : made.locate opened.directory false = .ok ⟨place, some .directory⟩) :
    files.tree.nodeAt? place = none := by
  obtain ⟨base, lowers, found, numbered, text, asked⟩ := opening_ok opens
  obtain ⟨more, ways⟩ := fresh base found
  have legal := Problem.isLegalName_of_lower lowers
  obtain ⟨front, spells, parts, back⟩ := spells_of_problemPath legal
    (fun place known => sound.tree.plain_of_mem (sound.working place known)) found
  have free := nextIndex_free sound spells more numbered
  have solid := solid_directoryName opened.index
  obtain ⟨notHere, notUp⟩ := Home.directoryName_ne (nextIndex_lt numbered)
  have further := spells.join solid
  rw [← text] at free further
  have solids := solid_of_spells further
  rcases ways with stands | straight
  · -- the numbers in the directory are known, so that the new name is not among them
    have points : ∀ part ∈ front ++ [problem.name] ++ [directoryName opened.index], part ≠ "." :=
      List.forall_mem_append.mpr
        ⟨fun part member => (parts part member).2, List.forall_mem_singleton.mpr notHere⟩
    have way := sound.ensureEach_of_directory spells stands
    rw [makeDirectories_eq further points (locate_ok_iff.mp leads).1, trail_concat,
      ensureEach_append way, ensureEach_singleton] at asked
    have plain := spells_trail solids (List.concat_ne_nil _ _)
    unfold ensureDirectory at asked
    cases new : files.makeDirectory
        ((front ++ [problem.name] ++ [directoryName opened.index]).foldl Path.join "/") with
    | ok added =>
      rw [new] at asked
      obtain ⟨rfl, -⟩ := Prod.mk.inj asked
      obtain ⟨other, located, rfl⟩ := (makeDirectory_ok plain.plainEnd).mp new
      have reached := ((locate_spells plain).mp (sound.locate_add located)).2
      have led := ((locate_spells further).mp leads).2
      have same := (Spot.mk.inj (Except.ok.inj (led.symm.trans reached))).1
      rw [same]
      exact (node_of_locate located).symm
    | error cause =>
      rw [new] at asked
      have missing : files.isDirectory
          ((front ++ [problem.name] ++ [directoryName opened.index]).foldl Path.join "/") =
            false := by
        rw [Bool.eq_false_iff]
        intro directory
        obtain ⟨other, located⟩ := isDirectory_iff.mp directory
        have there : files.isDirectory opened.directory = true :=
          isDirectory_iff.mpr ⟨other, (locate_spells further).mpr
            ⟨(locate_ok_iff.mp leads).1, ((locate_spells plain).mp located).2⟩⟩
        rw [free] at there
        cases there
      dsimp only at asked
      rw [missing] at asked
      cases (Prod.mk.inj asked).2
  · -- the path does not go back, so that it leads where it led before
    have names : ∀ part ∈ front ++ [problem.name] ++ [directoryName opened.index],
        part ≠ "." ∧ part ≠ ".." := by
      refine List.forall_mem_append.mpr ⟨fun part member => ⟨(parts part member).2, ?_⟩,
        List.forall_mem_singleton.mpr ⟨notHere, notUp⟩⟩
      rintro rfl
      rcases List.mem_append.mp member with inside | last
      · exact straight (back inside)
      · rw [← List.mem_singleton.mp last] at legal
        exact absurd legal (by decide)
    obtain ⟨other, located, rfl | ⟨new, -⟩⟩ := sound.makeDirectories_new further names asked
    · rw [isDirectory_iff.mpr ⟨other, located⟩] at free
      cases free
    · rw [located] at leads
      rw [← (Spot.mk.inj (Except.ok.inj leads)).1]
      exact new

/-- The directory of a drive that is made where nothing was has no files in it. -/
theorem room_of_opening (sound : files.Sound) {opened : Opened}
    (opens : opening options intent problem files = (.ok opened, made)) :
    ∃ place, made.locate opened.directory false = .ok ⟨place, some .directory⟩ ∧
      Grown files made ∧
      (files.tree.nodeAt? place = none → Room opened.directory place made ∧
        ∀ name content, made.tree.nodeAt? (place ++ [name]) ≠ some (.file content)) := by
  obtain ⟨base, lowers, found, numbered, text, asked⟩ := opening_ok opens
  obtain ⟨names, further, filled, points⟩ :=
    spells_directory sound (Problem.isLegalName_of_lower lowers) found (nextIndex_lt numbered)
  rw [← text] at further
  have grown := sound.grown_makeDirectories opened.directory
  have raised : Raised files (files.makeDirectories opened.directory).1 :=
    raised_makeDirectories further points
  have there := sound.isDirectory_makeDirectories further filled points asked
  rw [asked] at grown raised
  obtain ⟨place, leads⟩ := isDirectory_iff.mp there
  refine ⟨place, leads, grown, fun free => ?_⟩
  have hollow (name : String) : made.tree.nodeAt? (place ++ [name]) = none ∨
      made.tree.nodeAt? (place ++ [name]) = some .directory := by
    have nothing := sound.tree.free_below free (List.prefix_append place [name])
    rcases raised.node (place ++ [name]) with same | ⟨-, directory⟩
    · exact .inl (same.trans nothing)
    · exact .inr directory
  refine ⟨⟨grown.sound, ⟨_, further⟩, leads, fun name target => ?_⟩, fun name content => ?_⟩
  · rcases hollow name with same | same <;> simp [same]
  · rcases hollow name with same | same <;> simp [same]

end Drive

end Micromag
