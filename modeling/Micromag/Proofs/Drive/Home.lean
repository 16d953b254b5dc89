import Micromag.Proofs.Drive.Index
import Micromag.Proofs.Files.Children
import Micromag.Proofs.Files.System

/-!
# The directory of a problem

The directory of a problem is found under the same path all the time, as long as nothing changes on
the way to it. It may not be there yet, or not any more, and then it can be made. When it is there,
the directories in it that bear the number of a drive are those of the first drives.
-/

namespace Micromag

/-- A legal name is one part of a path and no single point. -/
theorem Problem.solid_of_isLegalName {name : String} (legal : isLegalName name = true) :
    Path.Solid name ∧ name ≠ "." := by
  unfold isLegalName at legal
  rw [Bool.and_eq_true, Bool.and_eq_true] at legal
  obtain ⟨⟨filled, start⟩, all⟩ := legal
  refine ⟨⟨?_, fun slash => ?_⟩, ?_⟩
  · rintro rfl
    exact absurd filled (by decide)
  · exact absurd (List.all_eq_true.mp all '/' slash) (by decide)
  · rintro rfl
    exact absurd start (by decide)

namespace Drive

open FileSystem

variable {files after : FileSystem} {directory name path : String} {count : Nat}

/-- The path of a problem's directory under a working directory, which may be gone. -/
def problemPath (directory name : String) (working : Option Place) : Except Fault String :=
  let path := Path.join directory name
  let what := s!"failed to resolve {path}"
  let workingDir : Except FileFault String :=
    if Path.isAbsolute path then .ok ""
    else
      match working with
      | some place => .ok (pathOf place)
      | none => .error .absent
  match workingDir with
  | .error cause => .error (cause.fault "IO.PROBLEM_DIR" what)
  | .ok workingDir =>
    match Path.absolute? workingDir path with
    | some absolute => .ok absolute
    | none => .error (FileFault.malformed.fault "IO.PROBLEM_DIR" what)

/-- The directory of a problem depends on the working directory only, and nothing changes when it is
looked up. -/
theorem problemDirectory_apply (directory name : String) (files : FileSystem) :
    problemDirectory directory name files =
      (problemPath directory name files.workingPlace?, files) := by
  unfold problemDirectory problemPath
  dsimp only
  by_cases absolute : Path.isAbsolute (Path.join directory name) = true
  · rw [if_pos absolute, if_pos absolute, Action.bind_apply]
    dsimp only [Action.pure_apply]
    cases Path.absolute? "" (Path.join directory name) <;> rfl
  · rw [if_neg absolute, if_neg absolute, Action.bind_apply]
    unfold FileAction.look currentPath
    cases files.workingPlace? with
    | none => rfl
    | some place =>
      dsimp only [Except.mapError]
      cases Path.absolute? (pathOf place) (Path.join directory name) <;> rfl

/-- The names of a path that lead anywhere, with one more name. -/
theorem names_join (solid : Path.Solid name) (notHere : name ≠ ".") :
    (Path.names (Path.join directory name)).filter (· ≠ ".") =
      Path.telling directory ++ [name] := by
  have kept : [name].filter (· ≠ ".") = [name] :=
    List.filter_cons_of_pos (by simpa using notHere)
  have point : (if (Path.parts (Path.join directory name)).head? = some "." then ["."] else
      []).filter (fun part : String => decide (part ≠ ".")) = [] := by
    split <;> rfl
  rw [Path.names_eq, List.filter_append, point, List.filter_filter, List.nil_append]
  simp only [Bool.and_self]
  rw [Path.said_join solid, List.filter_append, kept]
  rfl

/-- The start of an absolute path is absolute and names nothing. -/
theorem root_spec (path : String) :
    Path.isAbsolute (Path.root path) = true ∧ Path.said (Path.root path) = [] := by
  unfold Path.root
  split <;> exact ⟨by decide, by decide⟩

/-- An absolute path for a path with one more name ends in this name, behind the names of its start
and of the path. -/
theorem spells_of_absolute? (solid : Path.Solid name) (notHere : name ≠ ".")
    {base workingDir : String} {before : List String} (absolute : Path.isAbsolute base = true)
    (said : Path.said base = before)
    (starts : (if Path.isAbsolute (Path.join directory name) then
      Path.root (Path.join directory name) else workingDir) = base)
    (made : Path.absolute? workingDir (Path.join directory name) = some path) :
    Path.Spells path (before ++ Path.telling directory ++ [name]) := by
  unfold Path.absolute? at made
  split at made
  · cases made
  · dsimp only at made
    rw [Path.endsInSlash_join solid, if_neg Bool.false_ne_true, starts,
      names_join solid notHere] at made
    have parts : ∀ part ∈ Path.telling directory ++ [name], Path.Solid part :=
      List.forall_mem_append.mpr ⟨fun part member => (solid_of_mem_telling member).1,
        List.forall_mem_singleton.mpr solid⟩
    have spells := Path.spells_foldl_join absolute parts (List.concat_ne_nil _ _)
    rwa [Option.some.inj made, said, ← List.append_assoc] at spells

/-- The path of a problem's directory is absolute. Its names are those of the directory from which
it starts, those that are said, and that of the problem. -/
theorem problemPath_spells (legal : Problem.isLegalName name = true) {working : Option Place}
    (plain : ∀ place, working = some place → ∀ part ∈ place, Path.Plain part)
    (found : problemPath directory name working = .ok path) :
    ∃ start : Place, (if Path.isAbsolute directory then start = [] else working = some start) ∧
      Path.Spells path (start ++ Path.telling directory ++ [name]) := by
  obtain ⟨solid, notHere⟩ := Problem.solid_of_isLegalName legal
  rw [← Path.isAbsolute_join solid]
  unfold problemPath at found
  dsimp only at found
  by_cases absolute : Path.isAbsolute (Path.join directory name) = true
  · rw [if_pos absolute] at found
    obtain ⟨start, nothing⟩ := root_spec (Path.join directory name)
    dsimp only at found
    split at found
    · rename_i text made
      obtain rfl := Except.ok.inj found
      exact ⟨[], if_pos absolute ▸ rfl,
        spells_of_absolute? solid notHere start nothing (if_pos absolute) made⟩
    · cases found
  · rw [if_neg absolute] at found
    cases known : working with
    | none =>
      rw [known] at found
      cases found
    | some place =>
      rw [known] at found
      dsimp only at found
      have ground (part : String) (member : part ∈ place) : Path.Solid part :=
        (plain place known part member).solid
      have text : pathOf place = place.foldl Path.join "/" := Path.pathOf_eq ground
      have start : Path.isAbsolute (pathOf place) = true := by
        rw [text, Path.isAbsolute_foldl_join ground]
        decide
      have said : Path.said (pathOf place) = place := by
        rw [text, Path.said_foldl_join ground]
        rfl
      split at found
      · rename_i text made
        obtain rfl := Except.ok.inj found
        exact ⟨place, by rw [if_neg absolute],
          spells_of_absolute? solid notHere start said (if_neg absolute) made⟩
      · cases found

/-- The path of a problem's directory ends in the name of the problem. It goes back only where the
directory is said to. -/
theorem spells_of_problemPath (legal : Problem.isLegalName name = true) {working : Option Place}
    (plain : ∀ place, working = some place → ∀ part ∈ place, Path.Plain part)
    (found : problemPath directory name working = .ok path) :
    ∃ front, Path.Spells path (front ++ [name]) ∧
      (∀ part ∈ front ++ [name], Path.Solid part ∧ part ≠ ".") ∧
      (".." ∈ front → ".." ∈ Path.said directory) := by
  obtain ⟨start, starts, spells⟩ := problemPath_spells legal plain found
  have ground (part : String) (member : part ∈ start) : Path.Plain part := by
    split at starts
    · rw [starts] at member
      cases member
    · exact plain start starts part member
  refine ⟨_, spells, List.forall_mem_append.mpr ⟨List.forall_mem_append.mpr ⟨fun part member => ?_,
    fun part => solid_of_mem_telling⟩, ?_⟩, fun up => ?_⟩
  · exact ⟨(ground part member).solid, (ground part member).enters.notHere⟩
  · exact List.forall_mem_singleton.mpr (Problem.solid_of_isLegalName legal)
  · rcases List.mem_append.mp up with before | said
    · exact absurd rfl (ground _ before).enters.notUp
    · exact (List.mem_filter.mp said).1

/-- Where the directory of a problem is, or where it can be made. -/
structure Home where
  /-- Its path. -/
  path : String
  /-- The names of the path but the last. -/
  front : List String
  /-- The last name of the path. -/
  name : String
  /-- The files when everything on the way is there but not the directory itself. -/
  bare : FileSystem
  /-- Where the path leads. -/
  place : Place
  /-- The working directory. -/
  work : Place
  /-- The path has these names. -/
  spells : Path.Spells path (front ++ [name])
  /-- The names are parts of paths and no single points. -/
  parts : ∀ part ∈ front ++ [name], Path.Solid part ∧ part ≠ "."
  /-- The files are sound. -/
  sound : bare.Sound
  /-- The directories on the way are there. -/
  way : ∀ path ∈ trail front, bare.isDirectory path = true
  /-- Nothing is at the path. -/
  free : bare.locate path true = .ok ⟨place, none⟩
  /-- The working directory is there. -/
  working : bare.workingPlace? = some work
  /-- The working directory can be entered by its path. -/
  reenters : bare.directoryOf (pathOf work) = .ok work

namespace Home

variable (home : Home)

/-- Files in which everything on the way to the directory of a problem is still there, as is every
other directory and link. -/
structure Keeps (files : FileSystem) : Prop where
  /-- The files are sound. -/
  sound : files.Sound
  /-- The working directory is where it was. -/
  working : files.workingPlace? = some home.work
  /-- Directories and links of the first files stay. -/
  grows : FileTree.Extends home.bare.tree files.tree

/-- Files in which the directory of a problem is not there, but can be made. -/
structure Lacks (files : FileSystem) : Prop where
  /-- The files are sound. -/
  sound : files.Sound
  /-- The working directory is where it was. -/
  working : files.workingPlace? = some home.work
  /-- The directories on the way can be made, and the path is free then. -/
  made : ∃ made, files.ensureEach (trail home.front) = (made, .ok ()) ∧ home.Keeps made ∧
    made.tree.nodeAt? home.place = none

/-- Files in which the directory of a problem is there and holds the directories of a number of
drives. -/
structure Holds (count : Nat) (files : FileSystem) : Prop extends home.Keeps files where
  /-- The directory is there. -/
  stands : files.tree.nodeAt? home.place = some .directory
  /-- The directories of the drives are there. -/
  drives : ∀ index < count,
    files.tree.nodeAt? (home.place ++ [directoryName index]) = some .directory ∧
      checkPath (Path.join home.path (directoryName index)) = .ok ()
  /-- No other directory or link bears the number of a drive. -/
  others : ∀ name, (indexOfName? name).isSome = true →
    (∀ index < count, name ≠ directoryName index) →
      files.tree.guide? (home.place ++ [name]) = none

/-- Files in which the directory of a problem is there with the directories of a number of drives,
or is not there when there are none. -/
def At (count : Nat) (files : FileSystem) : Prop :=
  home.Lacks files ∧ count = 0 ∨ home.Holds count files

variable {home}

/-- The place of the directory is free at first. -/
theorem free_place : home.bare.tree.nodeAt? home.place = none := (node_of_locate home.free).symm

/-- The directory is not the root. -/
theorem place_ne_nil : home.place ≠ [] := FileTree.ne_nil_of_nodeAt? free_place

/-- What is passed through at first is not in the directory. -/
theorem outside_of_guide {other : Place} {node : Node}
    (guides : home.bare.tree.guide? other = some node) : ¬home.place <+: other := by
  intro inside
  unfold FileTree.guide? at guides
  rw [home.sound.tree.free_below free_place inside] at guides
  cases guides

/-- The working directory can be entered by its path as long as directories and links stay. -/
theorem reenters_of_extends (grows : FileTree.Extends home.bare.tree files.tree) :
    files.directoryOf (pathOf home.work) = .ok home.work := by
  have stands : home.bare.tree.nodeAt? home.work = some .directory :=
    home.sound.working _ home.working
  have absolute : Path.isAbsolute (pathOf home.work) = true := by
    have solid : ∀ part ∈ home.work, Path.Solid part := fun part member =>
      (home.sound.tree.plain_of_mem stands part member).solid
    rw [Path.pathOf_eq solid, Path.isAbsolute_foldl_join solid]
    decide
  have starts : files.startOf (pathOf home.work) = home.bare.startOf (pathOf home.work) := by
    rw [startOf_absolute absolute, startOf_absolute absolute]
  exact directoryOf_ok.mpr
    (locate_extends_directory grows starts (directoryOf_ok.mp home.reenters))

namespace Keeps

/-- Paths start where they did. -/
theorem startOf (keeps : home.Keeps files) (path : String) :
    files.startOf path = home.bare.startOf path :=
  startOf_congr (keeps.working.trans home.working.symm)

/-- The path leads to the place of the directory, if no link is there. -/
theorem locate (keeps : home.Keeps files) (last : Bool)
    (noLink : ∀ target, files.tree.nodeAt? home.place ≠ some (.link target)) :
    files.locate home.path last = .ok ⟨home.place, files.tree.nodeAt? home.place⟩ := by
  have nothing (target : String) : none ≠ some (Node.link target) := nofun
  refine locate_extends keeps.grows (keeps.startOf _) (fun _ => noLink) ?_ home.free
  cases last with
  | true => exact .inl rfl
  | false => exact .inr ⟨rfl, nothing⟩

/-- The directories on the way are there. -/
theorem way (keeps : home.Keeps files) :
    files.ensureEach (trail home.front) = (files, .ok ()) := by
  have solid (part : String) (member : part ∈ home.front) : Path.Solid part :=
    (home.parts part (List.mem_append_left _ member)).1
  refine ensureEach_of_isDirectory (fun _ => endsInSlash_of_mem_trail solid) fun path member => ?_
  obtain ⟨place, located⟩ := isDirectory_iff.mp (home.way path member)
  exact isDirectory_iff.mpr
    ⟨place, locate_extends_directory keeps.grows (keeps.startOf path) located⟩

/-- When the directory is gone it can be made. -/
theorem lacks (keeps : home.Keeps files) (free : files.tree.nodeAt? home.place = none) :
    home.Lacks files :=
  ⟨keeps.sound, keeps.working, files, keeps.way, keeps, free⟩

end Keeps

end Home

end Drive

end Micromag
