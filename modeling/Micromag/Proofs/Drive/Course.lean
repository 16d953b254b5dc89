import Micromag.Proofs.Drive.Blindness
import Micromag.Proofs.Drive.Scratch

/-!
# Drives with and without what was made before

A computation leaves nothing but the directories on the way to the directory of the problem, and
numbers that are used up. A drive makes the same directories, and it does not see numbers. So a drive
comes to the same whether a computation went before or not, and what they leave differs in the same
way only. This needs that no drives are found on a way that goes back from a directory that is not
there: when that is made, they are found.
-/

namespace Micromag

open FileSystem

/-- Whether an engine takes away no directory and no link. -/
def Engine.KeepsPaths (engine : Engine) : Prop :=
  ∀ script files, files.Sound → FileTree.Extends files.tree (engine script files).2.tree

/-! ## Directories and links stay -/

namespace FileAction

variable {α β : Type} {work : Place}

/-- Whether an action keeps directories and links and the working directory. -/
def Stays (work : Place) (action : FileAction α) : Prop :=
  ∀ files, files.Regular → files.Enterable work →
    FileTree.Extends files.tree (action files).2.tree ∧
      (action files).2.workingPlace? = some work

namespace Stays

/-- The working directory can still be entered. -/
theorem enterable {action : FileAction α} (stays : Stays work action) {files : FileSystem}
    (regular : files.Regular) (enterable : files.Enterable work) :
    (action files).2.Enterable work := by
  obtain ⟨grows, working⟩ := stays files regular enterable
  exact ⟨working, enterable.reenters_of_extends regular.toSound grows⟩

/-- On the same ground directories and links stay. -/
theorem of_keepsGround {action : FileAction α} (keeps : KeepsGround action) :
    Stays work action := by
  intro files regular enterable
  obtain ⟨-, same⟩ := keeps files regular.toSound
  exact ⟨same.extends_, same.working.trans enterable.working⟩

/-- Looking changes nothing. -/
theorem of_looksOnly {action : FileAction α} (looks : Action.LooksOnly action) :
    Stays work action :=
  of_keepsGround (.of_looksOnly looks)

/-- Directories that are made take nothing away. -/
theorem makeDirectories (code path : String) :
    Stays work (FileAction.makeDirectories code path) := by
  intro files regular enterable
  have grown := regular.grown_makeDirectories path
  exact ⟨grown.extends_, grown.working.trans enterable.working⟩

/-- Blind actions one after the other. -/
theorem bind {first : FileAction α} {next : α → FileAction β} (blind : Blind first)
    (head : Stays work first) (tail : ∀ value, Stays work (next value)) :
    Stays work (first >>= next) := by
  intro files regular enterable
  obtain ⟨early, working⟩ := head files regular enterable
  have middle := blind.regular regular
  have enters := head.enterable regular enterable
  rw [Action.bind_apply]
  rcases ran : first files with ⟨result, left⟩
  rw [ran] at early working middle enters
  cases result with
  | error fault => exact ⟨early, working⟩
  | ok value =>
    obtain ⟨late, same⟩ := tail value left middle enters
    exact ⟨early.trans late, same⟩

/-- Going on after a fault. -/
theorem attempt {action : FileAction α} (stays : Stays work action) :
    Stays work (Action.attempt action) := stays

end Stays

end FileAction

namespace Drive

open FileAction

variable {work : Place} {engine : Engine}

/-- A run of an engine that keeps directories and links keeps them. -/
theorem stays_invoke (blind : engine.Blind) (keeps : engine.KeepsPaths)
    (directory script : String) : Stays work (invoke engine directory script) := by
  intro files regular enterable
  unfold invoke
  rw [WorkingDir.within_apply]
  rcases enters : WorkingDir.enter directory files with ⟨result, entered⟩
  cases result with
  | error fault =>
    obtain rfl := WorkingDir.enter_error enters
    exact ⟨.refl _, enterable.working⟩
  | ok previous =>
    have inside := (WorkingDir.blind_enter directory).regular regular
    obtain ⟨told, changed⟩ := WorkingDir.enter_ok.mp enters
    rw [enters] at inside
    obtain ⟨place, serial, leads, numbered, rfl⟩ := changeDirectory_ok.mp changed
    obtain rfl : pathOf work = previous := by
      unfold currentPath at told
      rw [enterable.working] at told
      exact Except.ok.inj told
    have grows := keeps script _ inside.toSound
    have sound := (blind script).regular inside
    dsimp only at grows sound ⊢
    generalize (engine script { files with workingDir := serial }).2 = left at grows sound
    have stands : left.tree.nodeAt? work = some .directory :=
      grows.directory (regular.working work enterable.working)
    obtain ⟨number, found⟩ := FileTree.serialAt?_of_nodeAt? stands
    have leaves : WorkingDir.leave (pathOf work) left = { left with workingDir := number } := by
      have changed : left.changeDirectory (pathOf work) =
          .ok { left with workingDir := number } :=
        changeDirectory_ok.mpr ⟨work, number,
          enterable.reenters_of_extends regular.toSound grows, found, rfl⟩
      unfold WorkingDir.leave
      rw [changed]
    rw [leaves]
    exact ⟨grows, (sound_enter sound.tree stands found).2⟩

/-- A run of a drive keeps directories and links. -/
theorem stays_run (blind : engine.Blind) (keeps : engine.KeepsPaths) (now : Timestamp)
    (options : DriveOptions) (intent : Intent) (problem : Problem) :
    Stays work (run now engine options intent problem) := by
  have opens : Stays work (opening options intent problem) := by
    refine .bind (.lift _) (.of_looksOnly (Action.looksOnly_lift _)) fun _ => ?_
    refine .bind (blind_problemDirectory _ _) (.of_looksOnly (looksOnly_problemDirectory _ _))
      fun _ => ?_
    refine .bind (blind_nextIndex _ _) (.of_looksOnly (looksOnly_nextIndex _ _)) fun _ => ?_
    exact .bind (.makeDirectories _ _) (.makeDirectories _ _) fun _ =>
      .of_looksOnly (Action.looksOnly_pure _)
  rw [run_eq]
  refine .bind (blind_opening options intent problem) opens fun opened => ?_
  refine .bind (blind_fill _ _ _) (.of_keepsGround (keepsGround_fill _ _ _)) fun path => ?_
  refine .bind (WorkingDir.blind_within (blind path)).attempt
    (stays_invoke blind keeps _ path).attempt fun output => ?_
  refine .bind (Blind.writeFile _ _ _ _).attempt
    (Stays.of_keepsGround (keepsGround_writeManifest _ _)).attempt fun manifested => ?_
  cases manifested with
  | error fault => cases output <;> exact .of_looksOnly (Action.looksOnly_fail _)
  | ok _ =>
    cases output with
    | error fault => exact .of_looksOnly (Action.looksOnly_fail _)
    | ok output =>
      exact .of_looksOnly ((Action.looksOnly_lift _).bind fun _ => Action.looksOnly_pure _)

/-! ## The ground of calls -/

/-- Files in which a problem can be driven and computed with: they are regular, the working directory
is `work` and can be entered, and the path of the problem's directory does not go back, unless the
directory is there. -/
structure Ground (directory path : String) (work : Place) (files : FileSystem) : Prop where
  /-- The files are regular. -/
  regular : files.Regular
  /-- The working directory can be entered. -/
  enterable : files.Enterable work
  /-- The directory of the problem is there, or its path does not go back. -/
  straight : files.isDirectory path = true ∨ ".." ∉ Path.said directory

variable {files others after : FileSystem} {directory path name : String} {names : List String}

namespace Ground

/-- Files that are alike are as good. -/
theorem alike (ground : Ground directory path work files) {f : Nat → Nat}
    (alike : Alike f files others) : Ground directory path work others where
  regular := alike.regular_others
  enterable := ⟨alike.workingPlace?.trans ground.enterable.working,
    (alike.directoryOf _).trans ground.enterable.reenters⟩
  straight := by
    rw [alike.isDirectory]
    exact ground.straight

/-- So are files in which directories and links stay. -/
theorem extends_ (ground : Ground directory path work files) (absolute : Path.isAbsolute path = true)
    (regular : after.Regular) (grows : FileTree.Extends files.tree after.tree)
    (working : after.workingPlace? = some work) : Ground directory path work after where
  regular := regular
  enterable := ⟨working, ground.enterable.reenters_of_extends ground.regular.toSound grows⟩
  straight := ground.straight.imp_left fun stands => by
    obtain ⟨place, located⟩ := isDirectory_iff.mp stands
    refine isDirectory_iff.mpr ⟨place, locate_extends_directory grows ?_ located⟩
    rw [startOf_absolute absolute, startOf_absolute absolute]

/-- So are files in which the directory of the problem was asked for. -/
theorem made (ground : Ground directory path work files)
    (absolute : Path.isAbsolute path = true) :
    Ground directory path work (files.makeDirectories path).1 := by
  have grown := ground.regular.grown_makeDirectories path
  have blind := Blind.makeDirectories "IO.PROBLEM_DIR" path
  have regular := blind.regular ground.regular
  exact ground.extends_ absolute regular grown.extends_
    (grown.working.trans ground.enterable.working)

end Ground

/-- What is known of the path of a problem's directory: its names, and that it goes back only where
the directory is said to. -/
structure Leading (directory path : String) (names : List String) : Prop where
  /-- The path has these names. -/
  spells : Path.Spells path names
  /-- There are some. -/
  filled : names ≠ []
  /-- None is a single point. -/
  noPoint : ∀ name ∈ names, name ≠ "."
  /-- It goes back only where the directory is said to. -/
  back : ".." ∈ names → ".." ∈ Path.said directory

/-- The path of the directory of a problem with a legal name. -/
theorem leading_of_problemPath (legal : Problem.isLegalName name = true) (sound : files.Sound)
    (working : files.workingPlace? = some work)
    (found : problemPath directory name (some work) = .ok path) :
    ∃ names, Leading directory path names := by
  obtain ⟨front, spells, parts, back⟩ := spells_of_problemPath legal
    (fun place known => by
      obtain rfl := Option.some.inj known
      exact sound.tree.plain_of_mem (sound.working work working)) found
  refine ⟨front ++ [name], spells, List.concat_ne_nil _ _,
    fun part member => (parts part member).2, fun up => ?_⟩
  rcases List.mem_append.mp up with inside | last
  · exact back inside
  · rw [← List.mem_singleton.mp last] at legal
    exact absurd legal (by decide)

/-! ## What is made on the way -/

namespace Ground

/-- Nothing is in the directory of a problem that was made for the first time. -/
theorem children_made (ground : Ground directory path work files)
    (leading : Leading directory path names) (missing : files.isDirectory path = false)
    {place : Place}
    (leads : (files.makeDirectories path).1.locate path false = .ok ⟨place, some .directory⟩) :
    (files.makeDirectories path).1.tree.children place = [] := by
  have straight : ".." ∉ Path.said directory := ground.straight.resolve_left (by simp [missing])
  have ways : ∀ name ∈ names, name ≠ "." ∧ name ≠ ".." := fun name member =>
    ⟨leading.noPoint name member, fun up => straight (leading.back (up ▸ member))⟩
  rcases asked : files.makeDirectories path with ⟨made, result⟩
  rw [asked] at leads
  have stands : made.isDirectory path = true := isDirectory_iff.mpr ⟨place, leads⟩
  cases result with
  | error cause =>
    have none := ground.regular.not_isDirectory_of_makeDirectories leading.spells leading.noPoint
      asked
    rw [none] at stands
    cases stands
  | ok _ =>
    obtain ⟨goal, reached, rfl | ⟨-, hollow⟩⟩ :=
      ground.regular.makeDirectories_new leading.spells ways asked
    · rw [missing] at stands
      cases stands
    · obtain rfl := (Spot.mk.inj (Except.ok.inj (reached.symm.trans leads))).1
      have none : (made.tree.children goal).map (·.1) = [] :=
        List.eq_nil_iff_forall_not_mem.mpr fun name member =>
          FileTree.mem_children_names.mp member (hollow _ (List.prefix_append _ _) (by simp))
      exact List.map_eq_nil_iff.mp none

/-- A directory that is there is left as it is. -/
theorem makeDirectories_eq (ground : Ground directory path work files)
    (leading : Leading directory path names) (stands : files.isDirectory path = true) :
    files.makeDirectories path = (files, .ok ()) :=
  ground.regular.makeDirectories_of_isDirectory leading.spells leading.noPoint stands

/-- Asking again for the directory changes nothing. -/
theorem makeDirectories_again (ground : Ground directory path work files)
    (leading : Leading directory path names) :
    ((files.makeDirectories path).1.makeDirectories path).1 = (files.makeDirectories path).1 := by
  rcases asked : files.makeDirectories path with ⟨made, result⟩
  exact congrArg Prod.fst
    (ground.regular.makeDirectories_again leading.spells leading.noPoint asked)

/-- The same drives are found when the directory of the problem was asked for. -/
theorem indices_made (ground : Ground directory path work files)
    (leading : Leading directory path names) :
    (indices path (files.makeDirectories path).1).1 = (indices path files).1 := by
  cases missing : files.isDirectory path with
  | true => rw [ground.makeDirectories_eq leading missing]
  | false =>
    have none (files : FileSystem) (missing : files.isDirectory path = false) :
        (indices path files).1 = .ok [] := by
      rw [indices_eq, directoriesIn_eq_nil missing, indicesOf_nil]
    rw [none files missing]
    cases stands : (files.makeDirectories path).1.isDirectory path with
    | false => exact none _ stands
    | true =>
      obtain ⟨place, leads⟩ := isDirectory_iff.mp stands
      rw [indices_eq, directoriesIn_eq leads, ground.children_made leading missing leads]
      exact congrArg Except.ok indicesOf_nil

end Ground

/-- The number of the next drive depends on the drives that are found. -/
theorem nextIndex_congr (same : (indices path others).1 = (indices path files).1) (append : Bool) :
    (nextIndex path append others).1 = (nextIndex path append files).1 := by
  unfold nextIndex
  rw [Action.bind_apply, Action.bind_apply, (looksOnly_indices path).apply others,
    (looksOnly_indices path).apply files, same]
  cases (indices path files).1 with
  | error fault => rfl
  | ok numbers =>
    dsimp only
    cases numbers.getLast? with
    | none => rfl
    | some last =>
      dsimp only
      split <;> rfl

/-! ## Drives -/

variable {options : DriveOptions} {intent : Intent} {problem : Problem}

/-- Two outcomes of an action, where the directory of a problem was asked for before one of them:
they are the same, or both are the same fault and nothing changed. -/
def Agrees {α : Type} (path : String) (action : FileAction α) (files : FileSystem) : Prop :=
  action (files.makeDirectories path).1 = action files ∨
    ∃ fault, action files = (.error fault, files) ∧
      action (files.makeDirectories path).1 = (.error fault, (files.makeDirectories path).1)

/-- What follows does not matter. -/
theorem Agrees.bind {α β : Type} {first : FileAction α} (agrees : Agrees path first files)
    (next : α → FileAction β) : Agrees path (first >>= next) files := by
  unfold Agrees
  rw [Action.bind_apply, Action.bind_apply]
  rcases agrees with same | ⟨fault, failed, again⟩
  · exact .inl (by rw [same])
  · exact .inr ⟨fault, by rw [failed], by rw [again]⟩

/-- A drive makes its directory in the same way when the directory of the problem was asked for
before. -/
theorem Ground.agrees_opening (ground : Ground directory path work files)
    (leading : Leading directory path names)
    (found : problemPath options.directory problem.name (some work) = .ok path) :
    Agrees path (opening options intent problem) files := by
  have known := ground.enterable.working
  have still := (ground.made leading.spells.absolute).enterable.working
  unfold Agrees opening
  cases problem.lower intent options.settings options.platform with
  | error fault => exact .inr ⟨fault, rfl, rfl⟩
  | ok script =>
    rw [Action.bind_apply, Action.bind_apply, Action.lift_apply, Action.lift_apply]
    dsimp only
    rw [Action.bind_apply, Action.bind_apply, problemDirectory_apply, problemDirectory_apply, known,
      still, found]
    dsimp only
    rw [Action.bind_apply, Action.bind_apply, (looksOnly_nextIndex path options.append).apply,
      (looksOnly_nextIndex path options.append).apply files,
      nextIndex_congr (ground.indices_made leading)]
    cases numbered : (nextIndex path options.append files).1 with
    | error fault => exact .inr ⟨fault, rfl, rfl⟩
    | ok index =>
      have whole := ((looksOnly_nextIndex path options.append).apply files).trans
        (congrArg (·, files) numbered)
      have fits := nextIndex_lt whole
      dsimp only
      rw [Action.bind_apply, Action.bind_apply]
      unfold FileAction.makeDirectories
      cases checked : checkPath (Path.join path (directoryName index)) with
      | error cause =>
        have refused (files : FileSystem) :
            files.makeDirectories (Path.join path (directoryName index)) =
              (files, .error cause) := by
          unfold FileSystem.makeDirectories
          rw [checked]
        rw [refused, refused]
        exact .inr ⟨_, rfl, rfl⟩
      | ok _ =>
        left
        rw [ground.regular.makeDirectories_child leading.spells leading.noPoint
          (solid_directoryName index) (Home.directoryName_ne fits).1 checked]

end Drive

end Micromag
