import Mathlib.Data.List.Flatten
import Mathlib.Data.String.Basic
import Micromag.Proofs.Files.Children

/-!
# Asking for directories

Asking for directories adds directories at free places and changes nothing else, whether it comes to
an end or not, and asking again adds nothing. The directories on the way to a directory are there, so
nothing is added when it is asked for. Where a path does not go back, a directory that was not there
before is made at a new place, and nothing is in it.
-/

namespace Micromag

namespace Path

variable {base path name : String} {all front rest : List String}

/-- Pieces that are separated by a character, behind such a character. -/
theorem cons_intercalate {c : Char} {pieces : List (List Char)} (filled : pieces ≠ []) :
    c :: [c].intercalate pieces = pieces.flatMap fun piece => c :: piece := by
  induction pieces with
  | nil => exact absurd rfl filled
  | cons first others ih =>
    cases others with
    | nil => simp
    | cons second more =>
      have further := ih (List.cons_ne_nil _ _)
      rw [List.intercalate_cons_cons, List.flatMap_cons, ← further]
      simp

/-- The path by some names from the root has a slash in front of each of them. -/
theorem toList_foldl_join (solid : ∀ name ∈ all, Solid name) (filled : all ≠ []) :
    (all.foldl join "/").toList = all.flatMap fun name => '/' :: name.toList := by
  induction all using List.reverseRecOn with
  | nil => exact absurd rfl filled
  | append_singleton front last ih =>
    obtain ⟨inside, ends⟩ := List.forall_mem_append.mp solid
    have one : Solid last := ends last List.mem_cons_self
    rw [List.foldl_append, List.flatMap_append]
    by_cases empty : front = []
    · have root : endsInSlash "/" = true := by decide
      have filled : ("/" : String).isEmpty = false := by decide
      rw [empty]
      simp [join_eq one, root, filled]
    · have before := ih inside empty
      have plainEnd : endsInSlash (front.foldl join "/") = false :=
        endsInSlash_foldl_join inside empty
      have absolute : isAbsolute (front.foldl join "/") = true :=
        (isAbsolute_foldl_join inside).trans (by decide)
      have filled : front.foldl join "/" ≠ "" := by
        intro nothing
        rw [nothing] at absolute
        exact absurd absolute (by decide)
      simp [join_of_plainEnd one filled plainEnd, before]

/-- The path by the first names of a path is part of its text. -/
theorem sublist_of_spells (spells : Spells path (front ++ rest)) (filled : front ≠ [])
    (solid : ∀ name ∈ front, Solid name) :
    (front.foldl join "/").toList.Sublist path.toList := by
  obtain ⟨others, text⟩ := List.head?_eq_some_iff.mp (of_decide_eq_true spells.absolute)
  have pieces : parts path = "" :: (Text.splitOn '/' others).map String.ofList := by
    have split : Text.splitOn '/' path.toList = [] :: Text.splitOn '/' others := by
      rw [text]
      exact Text.splitOn_append_cons '/' [] others
    unfold parts
    rw [split]
    rfl
  have said : front ++ rest = ((Text.splitOn '/' others).map String.ofList).filter (· ≠ "") := by
    rw [← spells.said, Path.said, pieces]
    simp
  have whole : path.toList =
      ((Text.splitOn '/' others).map String.ofList).flatMap fun name => '/' :: name.toList := by
    have back : ['/'].intercalate (Text.splitOn '/' others) = others := by
      have same : Text.splitOn '/' others = others.splitOn '/' := by
        rw [Text.splitOn_eq, List.splitOn]
        rfl
      rw [same]
      exact List.intercalate_splitOn '/'
    have some : Text.splitOn '/' others ≠ [] := by
      rw [Text.splitOn_eq]
      exact List.splitOnP_ne_nil _ _
    have slashed : '/' :: ['/'].intercalate (Text.splitOn '/' others) = _ := cons_intercalate some
    rw [back] at slashed
    rw [text, slashed, List.flatMap_map]
    simp
  rw [toList_foldl_join solid filled, whole]
  have shorter : (front.flatMap fun name => '/' :: name.toList).Sublist
      ((front ++ rest).flatMap fun name => '/' :: name.toList) :=
    (List.sublist_append_left front rest).flatMap _
  rw [said] at shorter
  exact shorter.trans (List.filter_sublist.flatMap _)

end Path

namespace FileSystem

open FileTree

variable {system after : FileSystem} {path longer name : String} {all paths : List String}
  {place : Place} {result : Except FileFault Unit}

/-- A path can be followed when it is not empty, not too long and has no null character. -/
theorem checkPath_ok : checkPath path = .ok () ↔
    '\x00' ∉ path.toList ∧ path ≠ "" ∧ path.utf8ByteSize ≤ maxPath := by
  unfold checkPath
  simp only [List.contains_iff_mem, String.isEmpty_iff]
  split
  · simp [*]
  · split
    · simp [*]
    · split
      · simp [*]
      · simp [*]
        omega

/-- A path on the way is the path by some first names. -/
theorem mem_trail : path ∈ trail all ↔
    ∃ front rest, all = front ++ rest ∧ front ≠ [] ∧ path = front.foldl Path.join "/" := by
  induction all using List.reverseRecOn with
  | nil =>
    constructor
    · exact fun member => absurd member List.not_mem_nil
    · rintro ⟨front, rest, split, filled, _⟩
      exact absurd (List.append_eq_nil_iff.mp split.symm).1 filled
  | append_singleton before last ih =>
    rw [trail_concat, List.mem_append, List.mem_singleton, ih]
    constructor
    · rintro (⟨front, rest, rfl, filled, rfl⟩ | rfl)
      · exact ⟨front, rest ++ [last], List.append_assoc _ _ _, filled, rfl⟩
      · exact ⟨before ++ [last], [], (List.append_nil _).symm, List.concat_ne_nil _ _, rfl⟩
    · rintro ⟨front, rest, split, filled, rfl⟩
      rcases List.eq_nil_or_concat' rest with rfl | ⟨others, final, rfl⟩
      · right
        rw [split, List.append_nil]
      · left
        rw [← List.append_assoc] at split
        obtain ⟨same, _⟩ := List.append_inj' split rfl
        exact ⟨front, others, same, filled, rfl⟩

/-- The names of a path are parts of paths. -/
theorem solid_of_spells (spells : Path.Spells path all) : ∀ name ∈ all, Path.Solid name := by
  intro name member
  apply solid_of_mem_steps
  rw [steps_of_spells spells]
  exact member

/-- When a path can be followed, the paths on the way can. -/
theorem checkPath_of_mem_trail (spells : Path.Spells longer all)
    (checked : checkPath longer = .ok ()) (member : path ∈ trail all) :
    checkPath path = .ok () := by
  have solid := solid_of_spells spells
  obtain ⟨front, rest, rfl, filled, rfl⟩ := mem_trail.mp member
  have inside (name : String) (member : name ∈ front) : Path.Solid name :=
    solid name (List.mem_append_left rest member)
  have part := Path.sublist_of_spells spells filled inside
  obtain ⟨noNull, -, short⟩ := checkPath_ok.mp checked
  have shorter := String.utf8Len_le_of_sublist part
  rw [← String.utf8ByteSize_ofList, ← String.utf8ByteSize_ofList, String.ofList_toList,
    String.ofList_toList] at shorter
  refine checkPath_ok.mpr ⟨fun null => noNull (part.subset null), fun empty => ?_, by omega⟩
  have absolute : Path.isAbsolute (front.foldl Path.join "/") = true :=
    (Path.isAbsolute_foldl_join inside).trans (by decide)
  rw [empty] at absolute
  exact absurd absolute (by decide)

/-! ## What is added -/

/-- Files to which nothing but directories was added. -/
structure Raised (system after : FileSystem) : Prop where
  /-- All entries are kept, and directories follow. -/
  entries : ∃ new, after.tree.entries = system.tree.entries ++ new ∧
    ∀ entry ∈ new, entry.node = .directory
  /-- Numbers that were given stay given. -/
  next : system.tree.nextSerial ≤ after.tree.nextSerial
  /-- The working directory is the same. -/
  workingDir : after.workingDir = system.workingDir
  /-- The same files are programs. -/
  runnable : after.runnable = system.runnable

namespace Raised

/-- Files to which nothing was added. -/
theorem refl (system : FileSystem) : Raised system system :=
  ⟨⟨[], (List.append_nil _).symm, nofun⟩, le_rfl, rfl, rfl⟩

/-- Additions one after the other. -/
theorem trans {middle : FileSystem} (first : Raised system middle) (second : Raised middle after) :
    Raised system after := by
  obtain ⟨early, before, directories⟩ := first.entries
  obtain ⟨late, behind, others⟩ := second.entries
  refine ⟨⟨early ++ late, ?_, List.forall_mem_append.mpr ⟨directories, others⟩⟩,
    first.next.trans second.next, second.workingDir.trans first.workingDir,
    second.runnable.trans first.runnable⟩
  rw [behind, before, List.append_assoc]

/-- A directory that is added. -/
theorem add (system : FileSystem) (place : Place) :
    Raised system { system with tree := system.tree.add place .directory } where
  entries := ⟨_, rfl, List.forall_mem_singleton.mpr rfl⟩
  next := Nat.le_succ _
  workingDir := rfl
  runnable := rfl

/-- At every place stands what stood there before, or a directory where nothing stood. -/
theorem node (raised : Raised system after) (place : Place) :
    after.tree.nodeAt? place = system.tree.nodeAt? place ∨
      system.tree.nodeAt? place = none ∧ after.tree.nodeAt? place = some .directory := by
  obtain ⟨new, entries, directories⟩ := raised.entries
  by_cases root : place = []
  · left
    rw [root]
    rfl
  have split : after.tree.entryAt? place =
      (system.tree.entryAt? place).or (new.find? fun entry => entry.place = place) := by
    unfold entryAt?
    rw [entries, List.find?_append]
  rw [nodeAt?_of_ne root, nodeAt?_of_ne root, split]
  cases system.tree.entryAt? place with
  | some entry => exact .inl rfl
  | none =>
    cases found : new.find? fun entry => decide (entry.place = place) with
    | none => exact .inl rfl
    | some entry =>
      have directory := directories entry (List.mem_of_find?_eq_some found)
      exact .inr ⟨rfl, congrArg some directory⟩

end Raised

/-- One directory is added or none. -/
theorem raised_ensureDirectory (plainEnd : Path.endsInSlash path = false) :
    Raised system (system.ensureDirectory path).1 := by
  unfold ensureDirectory
  cases made : system.makeDirectory path with
  | error cause => exact .refl system
  | ok after =>
    obtain ⟨place, -, rfl⟩ := (makeDirectory_ok plainEnd).mp made
    exact .add system place

/-- Only directories are added. -/
theorem raised_ensureEach (plainEnds : ∀ path ∈ paths, Path.endsInSlash path = false) :
    Raised system (system.ensureEach paths).1 := by
  induction paths generalizing system with
  | nil => exact .refl system
  | cons path rest ih =>
    obtain ⟨first, others⟩ := List.forall_mem_cons.mp plainEnds
    have one : Raised system (system.ensureDirectory path).1 := raised_ensureDirectory first
    unfold ensureEach
    rcases asked : system.ensureDirectory path with ⟨made, result⟩
    rw [asked] at one
    cases result with
    | error cause => exact one
    | ok _ => exact one.trans (ih others)

/-- Asking again adds nothing and comes to the same end. -/
theorem Sound.ensureEach_again (sound : system.Sound)
    (plainEnds : ∀ path ∈ paths, Path.endsInSlash path = false)
    (asked : system.ensureEach paths = (after, result)) :
    after.ensureEach paths = (after, result) := by
  induction paths generalizing system with
  | nil =>
    obtain ⟨rfl, rfl⟩ := Prod.mk.inj asked
    rfl
  | cons path rest ih =>
    obtain ⟨first, others⟩ := List.forall_mem_cons.mp plainEnds
    have grown := sound.grown_ensureDirectory path
    unfold FileSystem.ensureEach at asked ⊢
    rcases one : system.ensureDirectory path with ⟨made, ended⟩
    rw [one] at asked grown
    cases ended with
    | error cause =>
      have kept : made = system := by
        unfold FileSystem.ensureDirectory at one
        split at one
        · cases (Prod.mk.inj one).2
        · exact (Prod.mk.inj one).1.symm
      obtain ⟨rfl, rfl⟩ := Prod.mk.inj asked
      rw [kept, one, kept]
    | ok _ =>
      dsimp only at asked
      have further := grown.sound.grown_ensureEach rest
      have there := sound.isDirectory_ensureDirectory first one
      rw [asked] at further
      rw [ensureDirectory_of_isDirectory first (further.isDirectory there)]
      exact ih grown.sound others asked

/-! ## The way to a directory -/

/-- Names from the root are spelled by their path. -/
theorem spells_trail (solid : ∀ name ∈ all, Path.Solid name) (filled : all ≠ []) :
    Path.Spells (all.foldl Path.join "/") all := by
  have root : Path.said "/" = [] := by decide
  have spelled : Path.Spells (all.foldl Path.join "/") (Path.said "/" ++ all) :=
    Path.spells_foldl_join (by decide) solid filled
  rwa [root] at spelled

/-- The directories on the way to a directory are there. -/
theorem Sound.isDirectory_of_mem_trail (sound : system.Sound) (spells : Path.Spells longer all)
    (stands : system.isDirectory longer = true) (member : path ∈ trail all) :
    system.isDirectory path = true := by
  have solid := solid_of_spells spells
  obtain ⟨place, located⟩ := isDirectory_iff.mp stands
  obtain ⟨checked, followed⟩ := (locate_spells spells).mp located
  have check := checkPath_of_mem_trail spells checked member
  obtain ⟨front, rest, rfl, filled, rfl⟩ := mem_trail.mp member
  have spelled : Path.Spells (front.foldl Path.join "/") front :=
    spells_trail (fun name inside => solid name (List.mem_append_left rest inside)) filled
  have goal : ∃ goal, walk system.tree false maxLinks [] front = .ok ⟨goal, some .directory⟩ := by
    by_cases last : rest = []
    · rw [last, List.append_nil] at followed
      exact ⟨place, followed⟩
    · obtain ⟨goal, leads⟩ := (walk_ok_iff.mp followed).front sound.tree rfl rfl last
      exact ⟨goal, walk_ok_iff.mpr leads⟩
  obtain ⟨goal, reached⟩ := goal
  exact isDirectory_iff.mpr ⟨goal, (locate_spells spelled).mpr ⟨check, reached⟩⟩

/-- A directory that is there is not made again, nor are those on the way. -/
theorem Sound.ensureEach_of_directory (sound : system.Sound) (spells : Path.Spells path all)
    (stands : system.isDirectory path = true) :
    system.ensureEach (trail all) = (system, .ok ()) := by
  have solid := solid_of_spells spells
  apply ensureEach_of_isDirectory
  · exact fun _ => endsInSlash_of_mem_trail solid
  · exact fun _ => sound.isDirectory_of_mem_trail spells stands

/-- When a directory on the way cannot be made, there is none at the path afterwards. -/
theorem Sound.not_isDirectory_of_error (sound : system.Sound) (spells : Path.Spells path all)
    {cause : FileFault} (asked : system.ensureEach (trail all) = (after, .error cause)) :
    after.isDirectory path = false := by
  have solid := solid_of_spells spells
  have plainEnds : ∀ path ∈ trail all, Path.endsInSlash path = false :=
    fun _ => endsInSlash_of_mem_trail solid
  have grown := sound.grown_ensureEach (trail all)
  have again := sound.ensureEach_again plainEnds asked
  rw [asked] at grown
  rw [Bool.eq_false_iff]
  intro stands
  rw [grown.sound.ensureEach_of_directory spells stands] at again
  cases (Prod.mk.inj again).2

/-- The directory at the end of a way that does not go back was there before, and then nothing was
made, or it stands at a new place and nothing is in it. -/
theorem Sound.ensureEach_new (sound : system.Sound)
    (names : ∀ name ∈ all, Path.Solid name ∧ name ≠ "." ∧ name ≠ "..")
    (asked : system.ensureEach (trail all) = (after, .ok ())) :
    ∃ place, walk after.tree false maxLinks [] all = .ok ⟨place, some .directory⟩ ∧
      (after = system ∨ system.tree.nodeAt? place = none ∧
        ∀ below, place <+: below → below ≠ place → after.tree.nodeAt? below = none) := by
  induction all using List.reverseRecOn generalizing after with
  | nil =>
    obtain ⟨rfl, -⟩ := Prod.mk.inj asked
    exact ⟨[], walk_ok_iff.mpr .arrive, .inl rfl⟩
  | append_singleton front last ih =>
    obtain ⟨before, ends⟩ := List.forall_mem_append.mp names
    obtain ⟨one, notHere, notUp⟩ := ends last List.mem_cons_self
    have solid : ∀ name ∈ front ++ [last], Path.Solid name := fun name member =>
      (names name member).1
    have spelled := spells_trail solid (List.concat_ne_nil _ _)
    have grown := sound.grown_ensureEach (trail front)
    rw [trail_concat] at asked
    rcases way : system.ensureEach (trail front) with ⟨middle, reached⟩
    rw [way] at grown
    cases reached with
    | error cause =>
      rw [ensureEach_append_error way] at asked
      cases (Prod.mk.inj asked).2
    | ok _ =>
      rw [ensureEach_append way, ensureEach_singleton] at asked
      obtain ⟨goal, reached, origin⟩ := ih before way
      obtain ⟨left, prolonged⟩ := (walk_ok_iff.mp reached).append rfl
      have further (meant : Bool) := prolonged meant [last] (List.cons_ne_nil _ _)
      unfold FileSystem.ensureDirectory at asked
      cases made : middle.makeDirectory ((front ++ [last]).foldl Path.join "/") with
      | ok added =>
        rw [made] at asked
        obtain ⟨rfl, -⟩ := Prod.mk.inj asked
        obtain ⟨place, located, rfl⟩ := (makeDirectory_ok spelled.plainEnd).mp made
        have free : middle.tree.nodeAt? place = none := (node_of_locate located).symm
        refine ⟨place, ?_, .inr ⟨?_, fun below inside other => ?_⟩⟩
        · exact ((locate_spells spelled).mp (grown.sound.locate_add located)).2
        · cases stood : system.tree.nodeAt? place with
          | none => rfl
          | some node =>
            rw [grown.stays place node stood] at free
            cases free
        · rw [nodeAt?_add free, if_neg other]
          exact grown.sound.tree.free_below free inside
      | error cause =>
        rw [made] at asked
        dsimp only at asked
        by_cases stands : middle.isDirectory ((front ++ [last]).foldl Path.join "/") = true
        · rw [if_pos stands] at asked
          obtain ⟨rfl, -⟩ := Prod.mk.inj asked
          obtain ⟨place, located⟩ := isDirectory_iff.mp stands
          have followed := ((locate_spells spelled).mp located).2
          refine ⟨place, followed, ?_⟩
          rcases origin with same | ⟨-, hollow⟩
          · exact .inl same
          · have free : middle.tree.nodeAt? (goal ++ [last]) = none :=
              hollow _ (List.prefix_append _ _) (by simp)
            rw [further false] at followed
            have enters := enters_of_walk notHere notUp followed
            have noLink (target : String) :
                middle.tree.nodeAt? (goal ++ [last]) ≠ some (.link target) := by simp [free]
            rw [walk_name enters (.inr noLink), free] at followed
            cases followed
        · rw [if_neg stands] at asked
          cases (Prod.mk.inj asked).2

/-! ## Paths -/

/-- Asking for a directory is asking for those on the way. -/
theorem makeDirectories_eq (spells : Path.Spells path all) (noPoint : ∀ name ∈ all, name ≠ ".")
    (checked : checkPath path = .ok ()) :
    system.makeDirectories path = system.ensureEach (trail all) := by
  unfold makeDirectories
  rw [checked, ancestors_eq spells noPoint]

/-- A path that can be followed with one more name can be followed. -/
theorem checkPath_of_join (absolute : Path.isAbsolute path = true) (solid : Path.Solid name)
    (checked : checkPath (Path.join path name) = .ok ()) : checkPath path = .ok () := by
  have filled : path ≠ "" := by
    rintro rfl
    exact absurd absolute (by decide)
  obtain ⟨rest, text⟩ : ∃ rest, Path.join path name = path ++ rest := by
    rw [Path.join_eq solid, if_neg (by simpa using filled)]
    split
    · exact ⟨name, rfl⟩
    · exact ⟨"/" ++ name, String.append_assoc⟩
  rw [text, checkPath_ok, String.toList_append, String.utf8ByteSize_append] at checked
  obtain ⟨noNull, -, short⟩ := checked
  exact checkPath_ok.mpr ⟨fun null => noNull (List.mem_append_left _ null), filled, by omega⟩

/-- Only directories are added when a directory is asked for. -/
theorem raised_makeDirectories (spells : Path.Spells path all)
    (noPoint : ∀ name ∈ all, name ≠ ".") : Raised system (system.makeDirectories path).1 := by
  have solid := solid_of_spells spells
  unfold makeDirectories
  cases checkPath path with
  | error cause => exact .refl system
  | ok _ =>
    rw [ancestors_eq spells noPoint]
    exact raised_ensureEach fun _ => endsInSlash_of_mem_trail solid

namespace Sound

/-- A directory that was asked for is there, unless it could not be made. -/
theorem isDirectory_makeDirectories (sound : system.Sound) (spells : Path.Spells path all)
    (filled : all ≠ []) (noPoint : ∀ name ∈ all, name ≠ ".")
    (asked : system.makeDirectories path = (after, .ok ())) : after.isDirectory path = true := by
  have solid := solid_of_spells spells
  cases checked : checkPath path with
  | error cause =>
    unfold FileSystem.makeDirectories at asked
    rw [checked] at asked
    cases (Prod.mk.inj asked).2
  | ok _ =>
    rw [makeDirectories_eq spells noPoint checked] at asked
    have there := sound.isDirectory_ensureEach (fun _ => endsInSlash_of_mem_trail solid) asked
    have last : all.foldl Path.join "/" ∈ trail all :=
      mem_trail.mpr ⟨all, [], (List.append_nil _).symm, filled, rfl⟩
    obtain ⟨place, located⟩ := isDirectory_iff.mp (there _ last)
    have followed := ((locate_spells (spells_trail solid filled)).mp located).2
    exact isDirectory_iff.mpr ⟨place, (locate_spells spells).mpr ⟨checked, followed⟩⟩

/-- Asking again for a directory adds nothing and comes to the same end. -/
theorem makeDirectories_again (sound : system.Sound) (spells : Path.Spells path all)
    (noPoint : ∀ name ∈ all, name ≠ ".") (asked : system.makeDirectories path = (after, result)) :
    after.makeDirectories path = (after, result) := by
  have solid := solid_of_spells spells
  cases checked : checkPath path with
  | error cause =>
    unfold FileSystem.makeDirectories at asked ⊢
    rw [checked] at asked ⊢
    obtain ⟨rfl, rfl⟩ := Prod.mk.inj asked
    rfl
  | ok _ =>
    rw [makeDirectories_eq spells noPoint checked] at asked ⊢
    exact sound.ensureEach_again (fun _ => endsInSlash_of_mem_trail solid) asked

/-- When a directory was asked for, asking for one in it comes to the same as before. -/
theorem makeDirectories_child (sound : system.Sound) (spells : Path.Spells path all)
    (noPoint : ∀ name ∈ all, name ≠ ".") (solid : Path.Solid name) (notHere : name ≠ ".")
    (checked : checkPath (Path.join path name) = .ok ()) :
    (system.makeDirectories path).1.makeDirectories (Path.join path name) =
      system.makeDirectories (Path.join path name) := by
  have points : ∀ part ∈ all ++ [name], part ≠ "." :=
    List.forall_mem_append.mpr ⟨noPoint, List.forall_mem_singleton.mpr notHere⟩
  have further := spells.join solid
  have first := checkPath_of_join spells.absolute solid checked
  rw [makeDirectories_eq further points checked, makeDirectories_eq further points checked,
    makeDirectories_eq spells noPoint first, trail_concat]
  have plainEnds : ∀ path ∈ trail all, Path.endsInSlash path = false :=
    fun _ => endsInSlash_of_mem_trail (solid_of_spells spells)
  rcases asked : system.ensureEach (trail all) with ⟨after, result⟩
  have again := sound.ensureEach_again plainEnds asked
  cases result with
  | error cause => rw [ensureEach_append_error asked, ensureEach_append_error again]
  | ok _ => rw [ensureEach_append asked, ensureEach_append again]

/-- A directory that is there is not made again. -/
theorem makeDirectories_of_isDirectory (sound : system.Sound) (spells : Path.Spells path all)
    (noPoint : ∀ name ∈ all, name ≠ ".") (stands : system.isDirectory path = true) :
    system.makeDirectories path = (system, .ok ()) := by
  obtain ⟨place, located⟩ := isDirectory_iff.mp stands
  rw [makeDirectories_eq spells noPoint (locate_ok_iff.mp located).1]
  exact sound.ensureEach_of_directory spells stands

/-- When a directory cannot be made, there is none at its path. -/
theorem not_isDirectory_of_makeDirectories (sound : system.Sound) (spells : Path.Spells path all)
    (noPoint : ∀ name ∈ all, name ≠ ".") {cause : FileFault}
    (asked : system.makeDirectories path = (after, .error cause)) :
    after.isDirectory path = false := by
  cases checked : checkPath path with
  | error cause =>
    rw [Bool.eq_false_iff]
    intro stands
    obtain ⟨place, located⟩ := isDirectory_iff.mp stands
    rw [(locate_ok_iff.mp located).1] at checked
    cases checked
  | ok _ =>
    rw [makeDirectories_eq spells noPoint checked] at asked
    exact sound.not_isDirectory_of_error spells asked

/-- A directory whose path does not go back was there before, and then nothing was made, or it
stands at a new place and nothing is in it. -/
theorem makeDirectories_new (sound : system.Sound) (spells : Path.Spells path all)
    (names : ∀ name ∈ all, name ≠ "." ∧ name ≠ "..")
    (asked : system.makeDirectories path = (after, .ok ())) :
    ∃ place, after.locate path false = .ok ⟨place, some .directory⟩ ∧
      (after = system ∨ system.tree.nodeAt? place = none ∧
        ∀ below, place <+: below → below ≠ place → after.tree.nodeAt? below = none) := by
  cases checked : checkPath path with
  | error cause =>
    unfold FileSystem.makeDirectories at asked
    rw [checked] at asked
    cases (Prod.mk.inj asked).2
  | ok _ =>
    rw [makeDirectories_eq spells (fun name member => (names name member).1) checked] at asked
    obtain ⟨place, reached, origin⟩ := sound.ensureEach_new
      (fun name member => ⟨solid_of_spells spells name member, names name member⟩) asked
    exact ⟨place, (locate_spells spells).mpr ⟨checked, reached⟩, origin⟩

end Sound

end FileSystem

end Micromag
