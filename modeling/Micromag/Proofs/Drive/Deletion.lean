import Micromag.Proofs.Drive.Operating
import Micromag.Proofs.Files.Removal

/-!
# Deletion

The directory of a problem is deleted as the child of a base directory that bears the name of the
problem. A legal name is a single name of a path that leads nowhere but down, so that nothing else
is touched, however the base directory is spelled and wherever the host stops the removal. A silent
deletion takes a directory that cannot be looked up for one that is not there.
-/

namespace Micromag

open FileSystem

/-- Whether a place is that of the child with a name in the directory to which a path leads. -/
def FileSystem.IsChild (files : FileSystem) (directory name : String) (place : Place) : Prop :=
  ∃ base, files.Reaches directory base ∧ place = base ++ [name]

/-- A legal name does not go back. -/
theorem Problem.notUp_of_isLegalName {name : String} (legal : isLegalName name = true) :
    name ≠ ".." := by
  rintro rfl
  exact absurd legal (by decide)

namespace Drive

/-- Whether the directory of a problem can be looked up: the host allows that, and the path can be
followed. -/
def Looks (guard : Guard) (directory name : String) (files : FileSystem) : Prop :=
  guard.visible = true ∧ ∃ path, (problemDirectory directory name files).1 = .ok path ∧
    checkPath path = .ok ()

variable {files after : FileSystem} {directory name path : String} {place other : Place}
  {guard : Guard} {silent : Bool} {result : Except Fault Unit}

/-- A directory has one child with a name at most. -/
theorem isChild_unique (first : files.IsChild directory name place)
    (second : files.IsChild directory name other) : place = other := by
  obtain ⟨base, reaches, rfl⟩ := first
  obtain ⟨_, again, rfl⟩ := second
  rw [reaches.unique again]

/-- A child is not the root. -/
theorem ne_nil_of_isChild (child : files.IsChild directory name place) : place ≠ [] := by
  obtain ⟨base, -, rfl⟩ := child
  exact List.concat_ne_nil _ _

/-- What a child of a directory is called by is a path. -/
theorem problemPath_of_isChild (legal : Problem.isLegalName name = true)
    (child : files.IsChild directory name place) :
    ∃ path, problemPath directory name files.workingPlace? = .ok path := by
  obtain ⟨_, ⟨start, starts, -⟩, -⟩ := child
  obtain ⟨solid, -⟩ := Problem.solid_of_isLegalName legal
  have filled : (Path.join directory name).isEmpty = false := by
    rw [Path.join_eq solid]
    have some := solid.filled
    split_ifs <;> simp_all [String.isEmpty_iff]
  have resolved (workingDir : String) :
      ∃ path, Path.absolute? workingDir (Path.join directory name) = some path := by
    unfold Path.absolute?
    rw [filled, if_neg Bool.false_ne_true]
    exact ⟨_, rfl⟩
  unfold problemPath
  dsimp only
  unfold startOf at starts
  rw [Path.isAbsolute_join solid]
  by_cases absolute : Path.isAbsolute directory = true
  · rw [if_pos absolute]
    obtain ⟨path, same⟩ := resolved ""
    exact ⟨path, by dsimp only; rw [same]⟩
  · rw [if_neg absolute] at starts ⊢
    cases working : files.workingPlace? with
    | none =>
      rw [working] at starts
      cases starts
    | some work =>
      obtain ⟨path, same⟩ := resolved (pathOf work)
      exact ⟨path, by dsimp only; rw [same]⟩

/-- Whether it can be looked up depends on its path. -/
theorem looks_iff (found : problemPath directory name files.workingPlace? = .ok path) :
    Looks guard directory name files ↔ guard.visible = true ∧ checkPath path = .ok () := by
  unfold Looks
  rw [problemDirectory_apply, found]
  refine and_congr_right fun _ => ⟨?_, fun checked => ⟨path, rfl, checked⟩⟩
  rintro ⟨_, same, checked⟩
  rwa [Except.ok.inj same]

/-- The path of a problem's directory leads to the child of the base directory, where there are no
links. -/
theorem locate_problemPath (sound : files.Sound) (linkless : files.tree.Linkless)
    (legal : Problem.isLegalName name = true)
    (found : problemPath directory name files.workingPlace? = .ok path) :
    Path.isAbsolute path = true ∧ ∀ last spot, files.locate path last = .ok spot ↔
      checkPath path = .ok () ∧ Enters name ∧ files.IsChild directory name spot.place ∧
        spot.node = files.tree.nodeAt? spot.place := by
  have plain (place : Place) (working : files.workingPlace? = some place) :
      ∀ part ∈ place, Path.Plain part := sound.tree.plain_of_mem (sound.working place working)
  obtain ⟨start, begins, spells⟩ := problemPath_spells legal plain found
  have starts : files.startOf directory = .ok start := by
    unfold startOf
    split at begins
    · rename_i absolute
      rw [if_pos absolute, begins]
    · rename_i relative
      rw [if_neg relative, begins]
  refine ⟨spells.absolute, fun last spot => ?_⟩
  rw [sound.locate_below linkless starts spells (Problem.solid_of_isLegalName legal).2
    (Problem.notUp_of_isLegalName legal)]
  refine and_congr_right fun _ => and_congr_right fun _ => ?_
  constructor
  · rintro ⟨base, reaches, rfl⟩
    exact ⟨⟨base, reaches, rfl⟩, rfl⟩
  · rintro ⟨⟨base, reaches, same⟩, stands⟩
    refine ⟨base, reaches, ?_⟩
    rw [← same, ← stands]

/-- A child that is there is found under the path, if this can be followed. -/
theorem locate_of_isChild (sound : files.Sound) (linkless : files.tree.Linkless)
    (legal : Problem.isLegalName name = true)
    (found : problemPath directory name files.workingPlace? = .ok path)
    (checked : checkPath path = .ok ()) (child : files.IsChild directory name place)
    {node : Node} (stands : files.tree.nodeAt? place = some node) (last : Bool) :
    files.locate path last = .ok ⟨place, some node⟩ := by
  have enters : Enters name := by
    obtain ⟨base, -, rfl⟩ := child
    exact (sound.tree.parent stands).2.enters
  exact ((locate_problemPath sound linkless legal found).2 last _).mpr
    ⟨checked, enters, child, stands.symm⟩

/-- So the path leads to something exactly when this is a child that is there. -/
theorem exists_problemPath (sound : files.Sound) (linkless : files.tree.Linkless)
    (legal : Problem.isLegalName name = true)
    (found : problemPath directory name files.workingPlace? = .ok path) :
    files.exists? path = true ↔ checkPath path = .ok () ∧
      ∃ place, files.IsChild directory name place ∧ files.tree.nodeAt? place ≠ none := by
  rw [exists?_iff]
  constructor
  · rintro ⟨place, node, located⟩
    obtain ⟨checked, -, child, stands⟩ :=
      ((locate_problemPath sound linkless legal found).2 false _).mp located
    exact ⟨checked, place, child, fun free => nomatch stands.trans free⟩
  · rintro ⟨checked, place, child, stands⟩
    obtain ⟨node, stands⟩ := Option.ne_none_iff_exists'.mp stands
    exact ⟨place, node, locate_of_isChild sound linkless legal found checked child stands false⟩

/-- Whether the child of the base directory is there and can be looked up. -/
def Seen (guard : Guard) (directory name : String) (files : FileSystem) : Prop :=
  Looks guard directory name files ∧
    ∃ place, files.IsChild directory name place ∧ files.tree.nodeAt? place ≠ none

/-- That decides whether its removal is tried. -/
theorem seen_iff (sound : files.Sound) (linkless : files.tree.Linkless)
    (legal : Problem.isLegalName name = true)
    (found : problemPath directory name files.workingPlace? = .ok path) :
    Seen guard directory name files ↔ (guard.visible && files.exists? path) = true := by
  unfold Seen
  rw [Bool.and_eq_true_iff, exists_problemPath sound linkless legal found, looks_iff found,
    and_assoc]

/-- When the child of the base directory is seen, a removal touches nothing else, and takes it away
if it succeeds. -/
theorem removeDirectoryOn_seen (sound : files.Sound) (linkless : files.tree.Linkless)
    (legal : Problem.isLegalName name = true) (seen : Seen guard directory name files)
    (child : files.IsChild directory name place)
    (removed : removeDirectoryOn guard directory name silent files = (result, after)) :
    Cleared place files after ∧ (result = .ok () → after.tree.nodeAt? place = none) := by
  obtain ⟨path, found⟩ := problemPath_of_isChild legal child
  have there := (seen_iff sound linkless legal found).mp seen
  obtain ⟨absolute, leads⟩ := locate_problemPath sound linkless legal found
  obtain ⟨cleared, gone⟩ :=
    sound.cleared_removeStubborn linkless guard absolute (ne_nil_of_isChild child)
      fun spot located => isChild_unique ((leads _ _).mp located).2.2.1 child
  rw [removeDirectoryOn_apply legal, found] at removed
  dsimp only at removed
  rw [if_pos there] at removed
  obtain ⟨told, left⟩ := Prod.mk.inj removed
  rw [← left]
  exact ⟨cleared, fun done => gone (Result.mapError_ok.mp (told.trans done))⟩

/-- When it is not seen, nothing is touched, and a removal succeeds if it is silent. -/
theorem removeDirectoryOn_unseen (sound : files.Sound) (linkless : files.tree.Linkless)
    (legal : Problem.isLegalName name = true) (unseen : ¬Seen guard directory name files)
    (removed : removeDirectoryOn guard directory name silent files = (result, after)) :
    after = files ∧
      ∀ place, files.IsChild directory name place → (result = .ok () ↔ silent = true) := by
  rw [removeDirectoryOn_apply legal] at removed
  cases found : problemPath directory name files.workingPlace? with
  | error fault =>
    rw [found] at removed
    refine ⟨(Prod.mk.inj removed).2.symm, fun place child => ?_⟩
    obtain ⟨path, same⟩ := problemPath_of_isChild legal child
    cases found.symm.trans same
  | ok path =>
    rw [seen_iff sound linkless legal found] at unseen
    rw [found] at removed
    dsimp only at removed
    rw [if_neg unseen] at removed
    cases silent with
    | true =>
      obtain ⟨rfl, rfl⟩ := Prod.mk.inj removed
      exact ⟨rfl, fun _ _ => ⟨fun _ => rfl, fun _ => rfl⟩⟩
    | false =>
      obtain ⟨rfl, rfl⟩ := Prod.mk.inj removed
      exact ⟨rfl, fun _ _ => ⟨fun told => (nomatch told), fun loud => (nomatch loud)⟩⟩

/-- A directory that can be looked up is removed when the host does not stop that. -/
theorem removeDirectoryOn_succeeds (sound : files.Sound) (linkless : files.tree.Linkless)
    (legal : Problem.isLegalName name = true) (looks : Looks guard directory name files)
    (child : files.IsChild directory name place)
    (stands : files.tree.nodeAt? place = some .directory) (free : guard.first = none)
    (removed : removeDirectoryOn guard directory name silent files = (result, after)) :
    result = .ok () := by
  obtain ⟨path, found⟩ := problemPath_of_isChild legal child
  obtain ⟨visible, checked⟩ := (looks_iff found).mp looks
  have leads := locate_of_isChild sound linkless legal found checked child stands
  have there : files.exists? path = true := exists?_iff.mpr ⟨_, _, leads false⟩
  have gone : files.removeTree path = .ok { files with tree := files.tree.remove place } := by
    unfold removeTree
    rw [leads true]
    rfl
  have done : (files.removeStubborn path guard).2 = .ok () := by
    unfold removeStubborn removeUntil
    rw [gone, free]
  rw [removeDirectoryOn_apply legal, found] at removed
  dsimp only at removed
  rw [if_pos (Bool.and_eq_true_iff.mpr ⟨visible, there⟩)] at removed
  rw [← (Prod.mk.inj removed).1]
  exact Result.mapError_ok.mpr done

end Drive

namespace Session

open Drive

variable {files : FileSystem}

/-- Deletion touches nothing but the child of the base directory with the name of the problem. A
name that is not legal is refused, and then nothing changes. When a deletion succeeds, the number of
the problem is reset and nothing else of the problem changes; when it fails, the problem stays as it
is. A deletion succeeds although the child is still there exactly when it is silent and the child
cannot be looked up. A directory that can be looked up is deleted, unless the host stops that. -/
theorem deletion_confined (sound : files.Sound) (linkless : files.tree.Linkless) (guard : Guard)
    (directory name : String) (silent : Bool) :
    ∃ result after, removeDirectoryOn guard directory name silent files = (result, after) ∧
      (∀ problem : Problem, problem.name = name →
        deleteOn guard directory silent ⟨files, problem⟩ = (result, ⟨after,
          if result.toBool = true then { problem with driveNumber := 0 } else problem⟩)) ∧
      (Problem.isLegalName name = false → after = files ∧
        result = .error (.invalid "INPUT.PROBLEM_NAME"
          s!"problem name '{name}' is not a legal directory component")) ∧
      (after = files ∨
        ∃ place, files.IsChild directory name place ∧ Cleared place files after) ∧
      ∀ place, files.IsChild directory name place →
        (result = .ok () ∧ after.tree.nodeAt? place ≠ none ↔
          Problem.isLegalName name = true ∧ silent = true ∧ files.tree.nodeAt? place ≠ none ∧
            ¬Looks guard directory name files) ∧
        (Problem.isLegalName name = true → Looks guard directory name files →
          files.tree.nodeAt? place = some .directory → guard.first = none →
            result = .ok ()) := by
  rcases removed : removeDirectoryOn guard directory name silent files with ⟨result, after⟩
  refine ⟨result, after, rfl, ?_, ?_, ?_⟩
  · rintro problem rfl
    rw [deleteOn_apply, removed]
    cases result <;> rfl
  · intro illegal
    rw [removeDirectoryOn_of_illegal illegal] at removed
    obtain ⟨rfl, rfl⟩ := Prod.mk.inj removed
    exact ⟨rfl, rfl⟩
  cases legal : Problem.isLegalName name with
  | false =>
    rw [removeDirectoryOn_of_illegal legal] at removed
    obtain ⟨rfl, rfl⟩ := Prod.mk.inj removed
    exact ⟨.inl rfl, fun place _ => ⟨⟨fun told => (nomatch told.1),
      fun lawful => (nomatch lawful.1)⟩, fun lawful => (nomatch lawful)⟩⟩
  | true =>
    by_cases seen : Seen guard directory name files
    · have ⟨looks, place, child, _⟩ := seen
      obtain ⟨cleared, gone⟩ := removeDirectoryOn_seen sound linkless legal seen child removed
      refine ⟨.inr ⟨place, child, cleared⟩, fun other same => ?_⟩
      obtain rfl := isChild_unique child same
      exact ⟨⟨fun ⟨told, stays⟩ => absurd (gone told) stays,
        fun ⟨_, _, _, blind⟩ => absurd looks blind⟩, fun _ looks stands free =>
          removeDirectoryOn_succeeds sound linkless legal looks child stands free removed⟩
    · obtain ⟨same, told⟩ := removeDirectoryOn_unseen sound linkless legal seen removed
      refine ⟨.inl same, fun place child => ⟨⟨fun ⟨done, stands⟩ => ?_,
        fun ⟨_, quiet, stands, _⟩ => ?_⟩, fun _ looks stands free =>
          removeDirectoryOn_succeeds sound linkless legal looks child stands free removed⟩⟩
      · rw [same] at stands
        exact ⟨rfl, (told place child).mp done, stands,
          fun looks => seen ⟨looks, place, child, stands⟩⟩
      · rw [same]
        exact ⟨(told place child).mpr quiet, stands⟩

/-- Files with nothing but the directory of a problem. -/
def onlyProblem : FileSystem := { tree := FileTree.add {} ["p"] .directory }

/-- What is denied at first is removed by the second attempt. -/
example : (deleteOn { first := some ⟨.denied, fun _ => true⟩ } "/" false
    ⟨onlyProblem, { undriven.problem with driveNumber := 3 }⟩).2.files.tree.entries = [] := by
  decide +kernel

/-- These files are sound. -/
theorem sound_onlyProblem : onlyProblem.Sound where
  tree := by
    have plain : Path.Plain "p" := ⟨⟨by decide, by decide⟩, by decide, by decide, by decide⟩
    exact FileTree.Sound.empty.add (FileTree.nodeAt?_nil _) plain rfl
  given := by decide
  working place working := by
    rw [← Option.some.inj (show some [] = some place from working)]
    rfl

/-! ## A base directory with a long path -/

/-- Names that lead into the directory of the problem and back, a number of times. -/
def turns (count : Nat) : List String := (List.replicate count ["p", ".."]).flatten

/-- The root, by a path of that many turns. -/
def detour (count : Nat) : String := (turns count).foldl Path.join "/"

variable {count : Nat} {path name : String}

/-- The names are parts of paths and no single points. -/
theorem solid_of_mem_turns (member : name ∈ turns count) : Path.Solid name ∧ name ≠ "." := by
  obtain ⟨pair, inside, among⟩ := List.mem_flatten.mp member
  rw [(List.mem_replicate.mp inside).2] at among
  rcases List.mem_pair.mp among with rfl | rfl
  · exact ⟨⟨by decide, by decide⟩, by decide⟩
  · exact ⟨⟨by decide, by decide⟩, by decide⟩

/-- They lead to the root. -/
theorem walk_turns (count links : Nat) :
    walk onlyProblem.tree false links [] (turns count) = .ok ⟨[], some .directory⟩ := by
  have enters : Enters "p" := ⟨by decide, by decide, by decide⟩
  unfold turns
  induction count with
  | zero =>
    obtain ⟨resume, same⟩ := walk_eq_follow onlyProblem.tree false links
    rw [same]
    rfl
  | succ count ih =>
    rw [List.replicate_succ, List.flatten_cons]
    exact (walk_into enters rfl).trans (walk_back.trans ih)

/-- What the names are written as. -/
theorem flatMap_turns (count : Nat) : ((turns count).flatMap fun name => '/' :: name.toList) =
    (List.replicate count ['/', 'p', '/', '.', '.']).flatten := by
  unfold turns
  induction count with
  | zero => rfl
  | succ count ih =>
    rw [List.replicate_succ, List.replicate_succ, List.flatten_cons, List.flatten_cons,
      List.flatMap_append, ih]
    rfl

/-- Each turn takes five bytes. -/
theorem utf8Len_turns (count : Nat) :
    String.utf8Len ((turns count).flatMap fun name => '/' :: name.toList) = 5 * count := by
  rw [flatMap_turns]
  induction count with
  | zero => rfl
  | succ count ih =>
    have turn : String.utf8Len ['/', 'p', '/', '.', '.'] = 5 := by decide
    rw [List.replicate_succ, List.flatten_cons, String.utf8Len_append, ih, turn]
    omega

/-- There are names if there is a turn. -/
theorem turns_ne_nil (positive : 0 < count) : turns count ≠ [] := by
  intro none
  have length := utf8Len_turns count
  rw [none] at length
  simp at length
  omega

/-- The path has these names. -/
theorem spells_detour (positive : 0 < count) : Path.Spells (detour count) (turns count) :=
  Path.spells_foldl_join (by decide) (fun _ member => (solid_of_mem_turns member).1)
    (turns_ne_nil positive)

/-- The path leads to the root. -/
theorem reaches_detour (positive : 0 < count) : onlyProblem.Reaches (detour count) [] := by
  have spells := spells_detour positive
  refine ⟨[], startOf_absolute spells.absolute, ?_⟩
  rw [steps_of_spells spells]
  exact walk_turns count maxLinks

/-- It can be followed, if it is not too long. -/
theorem checkPath_detour (positive : 0 < count) (short : 5 * count ≤ maxPath) :
    checkPath (detour count) = .ok () := by
  have solid (name : String) (member : name ∈ turns count) := (solid_of_mem_turns member).1
  have text : (detour count).toList = _ := Path.toList_foldl_join solid (turns_ne_nil positive)
  refine checkPath_ok.mpr ⟨?_, fun empty => ?_, ?_⟩
  · rw [text, flatMap_turns, List.mem_flatten]
    rintro ⟨turn, inside, null⟩
    rw [(List.mem_replicate.mp inside).2] at null
    exact absurd null (by decide)
  · have absolute := (spells_detour positive).absolute
    rw [empty] at absolute
    exact absurd absolute (by decide)
  · rw [← String.utf8Len_toList, text, utf8Len_turns]
    exact short

/-- The directory of the problem is then two bytes further. -/
theorem length_of_spells (spells : Path.Spells path (turns count ++ ["p"])) :
    5 * count + 2 ≤ path.utf8ByteSize := by
  have solid : ∀ name ∈ turns count ++ ["p"], Path.Solid name :=
    List.forall_mem_append.mpr ⟨fun _ member => (solid_of_mem_turns member).1,
      List.forall_mem_singleton.mpr ⟨by decide, by decide⟩⟩
  have filled : turns count ++ ["p"] ≠ [] := List.concat_ne_nil _ _
  rw [← List.append_nil (turns count ++ ["p"])] at spells
  have longer := String.utf8Len_le_of_sublist (Path.sublist_of_spells spells filled solid)
  have last : String.utf8Len (["p"].flatMap fun name => '/' :: name.toList) = 2 := by decide
  rw [Path.toList_foldl_join solid filled, List.flatMap_append, String.utf8Len_append,
    utf8Len_turns, last, String.utf8Len_toList] at longer
  exact longer

/-- So it cannot be looked up when that is too long. -/
theorem not_looks_detour (positive : 0 < count) (long : maxPath < 5 * count + 2) :
    ¬Looks {} (detour count) "p" onlyProblem := by
  rintro ⟨-, path, found, checked⟩
  rw [problemDirectory_apply] at found
  have plain (place : Place) (working : onlyProblem.workingPlace? = some place) :
      ∀ part ∈ place, Path.Plain part :=
    sound_onlyProblem.tree.plain_of_mem (sound_onlyProblem.working place working)
  obtain ⟨start, begins, spells⟩ := problemPath_spells (by decide) plain found
  have spelled := spells_detour positive
  have names : Path.telling (detour count) = turns count := by
    unfold Path.telling
    rw [spelled.said]
    exact List.filter_eq_self.mpr fun name member => by simpa using (solid_of_mem_turns member).2
  rw [if_pos spelled.absolute] at begins
  rw [begins, names] at spells
  have bytes := length_of_spells spells
  have short := (checkPath_ok.mp checked).2.2
  omega

/-- A base directory whose path can be followed. A silent deletion in it succeeds and resets the
number of the problem, and the directory of the problem is still there. -/
theorem deletion_confined_detour :
    onlyProblem.Sound ∧ onlyProblem.tree.Linkless ∧
      onlyProblem.directoryOf (detour 819) = .ok [] ∧
      ∃ after, Session.delete (detour 819) true
          ⟨onlyProblem, { undriven.problem with driveNumber := 3 }⟩ =
        (.ok (), ⟨after, { undriven.problem with driveNumber := 0 }⟩) ∧
        after.tree.nodeAt? ["p"] ≠ none := by
  have linkless : onlyProblem.tree.Linkless := by
    intro entry member target
    rw [List.mem_singleton.mp member]
    exact nofun
  have reaches := reaches_detour (show 0 < 819 by decide)
  have checked := checkPath_detour (show 0 < 819 by decide) (by decide)
  have unseen := not_looks_detour (show 0 < 819 by decide) (by decide)
  obtain ⟨result, after, -, deleted, -, -, each⟩ :=
    deletion_confined sound_onlyProblem linkless {} (detour 819) "p" true
  obtain ⟨rfl, stands⟩ := (each ["p"] ⟨[], reaches, rfl⟩).1.mpr
    ⟨by decide, rfl, by decide, unseen⟩
  exact ⟨sound_onlyProblem, linkless, directoryOf_iff_reaches.mpr ⟨checked, reaches⟩, after,
    deleted _ rfl, stands⟩

end Session

end Micromag
