import Micromag.Proofs.Files.System

/-!
# Operations on directories

Making a directory adds it at a free place and changes nothing else, so that a file system grows:
what paths led to before they lead to afterwards. Directories that are there are not made again. A
working directory can be left for another and entered again as long as its entry stays.
-/

namespace Micromag.FileSystem

open FileTree

variable {system after : FileSystem} {path : String} {place : Place} {spot : Spot}

/-- Where no link is meant, a path leads to the same spot whether links at its end are meant or
not. -/
theorem locate_meant (located : system.locate path true = .ok spot)
    (noLink : ∀ target, spot.node ≠ some (.link target)) :
    system.locate path false = .ok spot := by
  have stands := node_of_locate located
  have again : system.locate path false = .ok ⟨spot.place, system.tree.nodeAt? spot.place⟩ := by
    refine locate_extends (.refl _) rfl (fun free => ?_) (.inr ⟨rfl, noLink⟩) located
    exact (guide?_eq_none.mp free).2
  rw [← stands] at again
  exact again

/-- What a path leads to. -/
theorem nodeOf_ok {node : Node} :
    system.nodeOf path = .ok (place, node) ↔ system.locate path false = .ok ⟨place, some node⟩ := by
  unfold nodeOf
  rw [Result.bind_ok]
  constructor
  · rintro ⟨⟨found, stands⟩, located, same⟩
    cases stands with
    | none => cases same
    | some other =>
      obtain ⟨rfl, rfl⟩ := Prod.mk.inj (Except.ok.inj same)
      exact located
  · exact fun located => ⟨_, located, rfl⟩

/-- The directory that a path leads to. -/
theorem directoryOf_ok : system.directoryOf path = .ok place ↔
    system.locate path false = .ok ⟨place, some .directory⟩ := by
  unfold directoryOf
  rw [Result.bind_ok, ← nodeOf_ok]
  constructor
  · rintro ⟨⟨found, node⟩, leads, same⟩
    cases node with
    | directory => rwa [← Except.ok.inj same]
    | file content => cases same
    | link target => cases same
  · exact fun leads => ⟨_, leads, rfl⟩

/-- The file that a path leads to. -/
theorem contentOf_ok {content : List UInt8} : system.contentOf path = .ok content ↔
    ∃ place, system.locate path false = .ok ⟨place, some (.file content)⟩ := by
  unfold contentOf
  rw [Result.bind_ok]
  constructor
  · rintro ⟨⟨place, node⟩, leads, same⟩
    cases node with
    | directory => cases same
    | link target => cases same
    | file bytes =>
      obtain rfl := Except.ok.inj same
      exact ⟨place, nodeOf_ok.mp leads⟩
  · rintro ⟨place, leads⟩
    exact ⟨_, nodeOf_ok.mpr leads, rfl⟩

/-- A path leads to a file if it leads to one at some place. -/
theorem isFile_iff : system.isFile path = true ↔
    ∃ place content, system.locate path false = .ok ⟨place, some (.file content)⟩ := by
  unfold isFile
  constructor
  · intro file
    split at file
    · rename_i place content leads
      exact ⟨place, content, nodeOf_ok.mp leads⟩
    · cases file
  · rintro ⟨place, content, leads⟩
    rw [nodeOf_ok.mpr leads]

/-- Whether a result is there. -/
theorem toBool_iff {ε α : Type} {result : Except ε α} :
    result.toBool = true ↔ ∃ value, result = .ok value := by
  cases result with
  | error fault => exact ⟨(nomatch ·), fun ⟨_, same⟩ => (nomatch same)⟩
  | ok value => exact ⟨fun _ => ⟨value, rfl⟩, fun _ => rfl⟩

/-- A path leads to a directory if it leads to one at some place. -/
theorem isDirectory_iff : system.isDirectory path = true ↔
    ∃ place, system.locate path false = .ok ⟨place, some .directory⟩ := by
  unfold isDirectory
  rw [toBool_iff]
  exact exists_congr fun _ => directoryOf_ok

/-- A path leads to something if it leads to something at some place. -/
theorem exists?_iff : system.exists? path = true ↔
    ∃ place node, system.locate path false = .ok ⟨place, some node⟩ := by
  unfold exists?
  rw [toBool_iff, Prod.exists]
  exact exists_congr fun _ => exists_congr fun _ => nodeOf_ok

/-- Where nothing is, no directory is. -/
theorem not_isDirectory (absent : system.exists? path = false) :
    system.isDirectory path = false := by
  rw [Bool.eq_false_iff]
  intro stands
  obtain ⟨place, located⟩ := isDirectory_iff.mp stands
  have there := exists?_iff.mpr ⟨place, _, located⟩
  rw [absent] at there
  cases there

/-- To change the working directory is to remember the number of a directory. -/
theorem changeDirectory_ok : system.changeDirectory path = .ok after ↔
    ∃ place serial, system.directoryOf path = .ok place ∧
      system.tree.serialAt? place = some serial ∧ after = { system with workingDir := serial } := by
  unfold changeDirectory
  rw [Result.bind_ok]
  refine exists_congr fun place => ?_
  cases system.tree.serialAt? place with
  | none => simp
  | some serial =>
    constructor
    · rintro ⟨leads, same⟩
      exact ⟨serial, leads, rfl, (Except.ok.inj same).symm⟩
    · rintro ⟨_, leads, same, rfl⟩
      rw [← Option.some.inj same]
      exact ⟨leads, rfl⟩

/-- A directory of a sound file system has a number, and is found by it. -/
theorem sound_enter {files : FileSystem} (sound : files.tree.Sound) {place : Place}
    {serial : Nat} (stands : files.tree.nodeAt? place = some .directory)
    (numbered : files.tree.serialAt? place = some serial) :
    Sound { files with workingDir := serial } ∧
      workingPlace? { files with workingDir := serial } = some place := by
  have found : files.tree.placeOf? serial = some place := sound.placeOf?_of_serialAt? numbered
  refine ⟨⟨sound, ?_, fun other working => ?_⟩, found⟩
  · show serial < files.tree.nextSerial
    unfold FileTree.serialAt? at numbered
    split at numbered
    · rw [← Option.some.inj numbered]
      exact sound.next
    · obtain ⟨entry, inside, rfl⟩ := Option.map_eq_some_iff.mp numbered
      exact (sound.numbered entry (FileTree.mem_of_entryAt? inside).1).2
  · have same : some place = some other := found.symm.trans working
    rw [← Option.some.inj same]
    exact stands

/-- Where a directory or a link is removed with everything below it. -/
theorem removeTree_ok (removed : system.removeTree path = .ok after) :
    ∃ spot, system.locate path true = .ok spot ∧ spot.node ≠ none ∧
      after = { system with tree := system.tree.remove spot.place } := by
  obtain ⟨spot, located, removed⟩ := Result.bind_ok.mp removed
  refine ⟨spot, located, ?_⟩
  split at removed
  · cases removed
  · cases removed
  · rename_i node _ stands
    exact ⟨by rw [stands]; exact Option.some_ne_none _, (Except.ok.inj removed).symm⟩

/-- A path without slashes at its end stays as it is. -/
theorem trimSlashes_eq (plain : Path.endsInSlash path = false) : trimSlashes path = path := by
  have kept : (path.toList.reverse.dropWhile (· = '/')).reverse = path.toList := by
    cases text : path.toList.reverse with
    | nil => rw [← List.reverse_reverse path.toList, text]; rfl
    | cons c rest =>
      have last : path.toList.getLast? = some c := by
        rw [← List.head?_reverse, text]
        rfl
      have other : ¬decide (c = '/') = true := by
        unfold Path.endsInSlash at plain
        rw [last] at plain
        simpa using plain
      rw [List.dropWhile_cons_of_neg (by simpa using other), ← text, List.reverse_reverse]
  unfold trimSlashes
  rw [kept]
  dsimp only
  split
  · rename_i empty
    rw [Bool.and_eq_true, List.isEmpty_iff] at empty
    have nothing : path = "" := String.toList_inj.mp empty.1
    rw [nothing] at empty
    cases empty.2
  · exact String.ofList_toList

/-- A directory that is made is added at a free place. -/
theorem makeDirectory_made (made : system.makeDirectory path = .ok after) :
    ∃ place, system.locate (trimSlashes path) true = .ok ⟨place, none⟩ ∧
      after = { system with tree := system.tree.add place .directory } := by
  obtain ⟨place, free, made⟩ := Result.bind_ok.mp made
  obtain ⟨_, _, free⟩ := Result.bind_ok.mp free
  obtain ⟨⟨found, node⟩, located, free⟩ := Result.bind_ok.mp free
  cases node with
  | some node => cases free
  | none =>
    obtain rfl := Except.ok.inj free
    exact ⟨found, located, (Except.ok.inj made).symm⟩

/-- A directory is made where a path leads to a free place. -/
theorem makeDirectory_ok (plain : Path.endsInSlash path = false) :
    system.makeDirectory path = .ok after ↔
      ∃ place, system.locate path true = .ok ⟨place, none⟩ ∧
        after = { system with tree := system.tree.add place .directory } := by
  constructor
  · intro made
    have spot := makeDirectory_made made
    rwa [trimSlashes_eq plain] at spot
  · rintro ⟨place, located, rfl⟩
    have checked := (locate_ok_iff.mp located).1
    unfold makeDirectory locateNew
    rw [trimSlashes_eq plain]
    refine Result.bind_ok.mpr ⟨place, Result.bind_ok.mpr ⟨(), checked, ?_⟩, rfl⟩
    exact Result.bind_ok.mpr ⟨_, located, rfl⟩

/-- A file system that grew: it is sound, everything is where it was, and so is the working
directory. -/
structure Grown (system after : FileSystem) : Prop where
  /-- It is sound. -/
  sound : after.Sound
  /-- What stood somewhere stands there. -/
  stays : ∀ place node, system.tree.nodeAt? place = some node →
    after.tree.nodeAt? place = some node
  /-- Relative paths start where they did. -/
  working : after.workingPlace? = system.workingPlace?

namespace Grown

/-- A sound file system as it is. -/
theorem refl (sound : system.Sound) : Grown system system := ⟨sound, fun _ _ stands => stands, rfl⟩

/-- Growing twice. -/
theorem trans {last : FileSystem} (first : Grown system after) (second : Grown after last) :
    Grown system last :=
  ⟨second.sound, fun place node stands => second.stays place node (first.stays place node stands),
    second.working.trans first.working⟩

/-- Directories and links are where they were. -/
theorem extends_ (grown : Grown system after) : Extends system.tree after.tree :=
  extends_of_stays grown.stays

/-- A path that led to something still leads there. -/
theorem locate_some (grown : Grown system after) {last : Bool} {node : Node}
    (located : system.locate path last = .ok ⟨place, some node⟩) :
    after.locate path last = .ok ⟨place, some node⟩ := by
  have stands : system.tree.nodeAt? place = some node := (node_of_locate located).symm
  have stays := grown.stays place node stands
  have kept := locate_extends grown.extends_ (startOf_congr grown.working) (fun free target => ?_)
    (.inl rfl) located
  · dsimp only at kept
    rwa [stays] at kept
  · dsimp only at free ⊢
    rw [stays]
    rintro link
    obtain rfl := Option.some.inj link
    exact (guide?_eq_none.mp free).2 target stands

/-- What led to a directory leads to one. -/
theorem isDirectory (grown : Grown system after) (stands : system.isDirectory path = true) :
    after.isDirectory path = true := by
  obtain ⟨place, located⟩ := isDirectory_iff.mp stands
  exact isDirectory_iff.mpr ⟨place, grown.locate_some located⟩

end Grown

/-- What can be passed through after a directory was made. -/
theorem guide?_add {tree : FileTree} {place other : Place} (free : tree.nodeAt? place = none) :
    (tree.add place .directory).guide? other =
      if other = place then some .directory else tree.guide? other := by
  unfold guide?
  rw [nodeAt?_add free]
  by_cases same : other = place
  · rw [if_pos same, if_pos same]
  · rw [if_neg same, if_neg same]

/-- A file system grows by a directory that is made at a free place. -/
theorem Sound.add (sound : system.Sound) {last : Bool}
    (located : system.locate path last = .ok ⟨place, none⟩) :
    Grown system { system with tree := system.tree.add place .directory } := by
  have free : system.tree.nodeAt? place = none := (node_of_locate located).symm
  have stays (other : Place) (node : Node) (stands : system.tree.nodeAt? other = some node) :
      (system.tree.add place .directory).nodeAt? other = some node := by
    have apart : other ≠ place := by
      rintro rfl
      rw [free] at stands
      cases stands
    rw [nodeAt?_add free, if_neg apart, stands]
  rcases sound.ends located with directory | ⟨above, name, rfl, inside, plain, _⟩
  · cases directory
  · have same : FileSystem.workingPlace?
        { system with tree := system.tree.add (above ++ [name]) .directory } =
        system.workingPlace? := placeOf?_add sound.given
    refine ⟨⟨sound.tree.add inside plain free, Nat.lt_succ_of_lt sound.given, ?_⟩, stays, same⟩
    intro place working
    rw [same] at working
    exact stays _ _ (sound.working place working)

/-- A path that leads to a free place leads to the directory that is made there. -/
theorem Sound.locate_add (sound : system.Sound) {last : Bool}
    (located : system.locate path last = .ok ⟨place, none⟩) :
    FileSystem.locate { system with tree := system.tree.add place .directory } path false =
      .ok ⟨place, some .directory⟩ := by
  have free : system.tree.nodeAt? place = none := (node_of_locate located).symm
  have grown := sound.add located
  have stands : (system.tree.add place .directory).nodeAt? place = some .directory := by
    rw [nodeAt?_add free, if_pos rfl]
  have noLink (target : String) : none ≠ some (Node.link target) := nofun
  have leads := locate_extends grown.extends_ (startOf_congr grown.working)
    (fun _ target link => ?_) (.inr ⟨rfl, noLink⟩) located
  · dsimp only at leads
    rwa [stands] at leads
  · dsimp only at link
    rw [stands] at link
    cases link

/-- A file system grows when a directory is made. -/
theorem Sound.grown_makeDirectory (sound : system.Sound)
    (made : system.makeDirectory path = .ok after) : Grown system after := by
  obtain ⟨place, located, rfl⟩ := makeDirectory_made made
  exact sound.add located

/-- A file system grows when a directory is asked for. -/
theorem Sound.grown_ensureDirectory (sound : system.Sound) (path : String) :
    Grown system (system.ensureDirectory path).1 := by
  unfold ensureDirectory
  cases made : system.makeDirectory path with
  | ok after => exact sound.grown_makeDirectory made
  | error cause => exact .refl sound

/-- A file system grows when directories are asked for one after the other. -/
theorem Sound.grown_ensureEach (sound : system.Sound) (paths : List String) :
    Grown system (system.ensureEach paths).1 := by
  induction paths generalizing system with
  | nil => exact .refl sound
  | cons path rest ih =>
    have grown := sound.grown_ensureDirectory path
    unfold ensureEach
    rcases asked : system.ensureDirectory path with ⟨made, result⟩
    rw [asked] at grown
    cases result with
    | error cause => exact grown
    | ok _ => exact grown.trans (ih grown.sound)

/-- A file system grows when a directory is asked for with those on the way to it. -/
theorem Sound.grown_makeDirectories (sound : system.Sound) (path : String) :
    Grown system (system.makeDirectories path).1 := by
  unfold makeDirectories
  cases checkPath path with
  | error cause => exact .refl sound
  | ok _ => exact sound.grown_ensureEach _

/-- A directory that is there is not made again. -/
theorem ensureDirectory_of_isDirectory (plain : Path.endsInSlash path = false)
    (stands : system.isDirectory path = true) :
    system.ensureDirectory path = (system, .ok ()) := by
  obtain ⟨place, located⟩ := isDirectory_iff.mp stands
  unfold ensureDirectory
  cases made : system.makeDirectory path with
  | error cause =>
    dsimp only
    rw [if_pos stands]
  | ok after =>
    obtain ⟨other, free, _⟩ := (makeDirectory_ok plain).mp made
    have again := locate_meant free (fun _ link => nomatch link)
    rw [located] at again
    cases again

/-- A directory that was asked for is there, if that succeeds. -/
theorem Sound.isDirectory_ensureDirectory (sound : system.Sound)
    (plain : Path.endsInSlash path = false) (asked : system.ensureDirectory path = (after, .ok ())) :
    after.isDirectory path = true := by
  unfold ensureDirectory at asked
  cases made : system.makeDirectory path with
  | ok grown =>
    rw [made] at asked
    obtain ⟨rfl, -⟩ := Prod.mk.inj asked
    obtain ⟨place, located, rfl⟩ := (makeDirectory_ok plain).mp made
    exact isDirectory_iff.mpr ⟨place, sound.locate_add located⟩
  | error cause =>
    rw [made] at asked
    dsimp only at asked
    by_cases stands : system.isDirectory path = true
    · rw [← (Prod.mk.inj asked).1]
      exact stands
    · rw [if_neg stands] at asked
      cases (Prod.mk.inj asked).2

/-- Directories that are there are not made again. -/
theorem ensureEach_of_isDirectory {paths : List String}
    (plain : ∀ path ∈ paths, Path.endsInSlash path = false)
    (stand : ∀ path ∈ paths, system.isDirectory path = true) :
    system.ensureEach paths = (system, .ok ()) := by
  induction paths with
  | nil => rfl
  | cons path rest ih =>
    obtain ⟨first, others⟩ := List.forall_mem_cons.mp plain
    obtain ⟨stands, further⟩ := List.forall_mem_cons.mp stand
    unfold ensureEach
    rw [ensureDirectory_of_isDirectory first stands]
    exact ih others further

/-- All directories that were asked for are there, if that succeeds. -/
theorem Sound.isDirectory_ensureEach {paths : List String} (sound : system.Sound)
    (plain : ∀ path ∈ paths, Path.endsInSlash path = false)
    (asked : system.ensureEach paths = (after, .ok ())) :
    ∀ path ∈ paths, after.isDirectory path = true := by
  induction paths generalizing system with
  | nil => exact nofun
  | cons path rest ih =>
    obtain ⟨first, others⟩ := List.forall_mem_cons.mp plain
    have grown := sound.grown_ensureDirectory path
    unfold ensureEach at asked
    rcases one : system.ensureDirectory path with ⟨made, result⟩
    rw [one] at asked grown
    cases result with
    | error cause => cases (Prod.mk.inj asked).2
    | ok _ =>
      dsimp only at asked
      have further := grown.sound.grown_ensureEach rest
      rw [asked] at further
      exact List.forall_mem_cons.mpr
        ⟨further.isDirectory (sound.isDirectory_ensureDirectory first one),
          ih grown.sound others asked⟩

/-- One directory that is asked for. -/
theorem ensureEach_singleton : system.ensureEach [path] = system.ensureDirectory path := by
  unfold ensureEach
  rcases system.ensureDirectory path with ⟨made, result⟩
  cases result <;> rfl

/-- Directories after others. -/
theorem ensureEach_append {paths more : List String}
    (asked : system.ensureEach paths = (after, .ok ())) :
    system.ensureEach (paths ++ more) = after.ensureEach more := by
  induction paths generalizing system with
  | nil =>
    rw [← (Prod.mk.inj asked).1]
    rfl
  | cons path rest ih =>
    unfold ensureEach at asked
    rw [List.cons_append, ensureEach]
    rcases first : system.ensureDirectory path with ⟨made, result⟩
    rw [first] at asked
    cases result with
    | error cause => cases (Prod.mk.inj asked).2
    | ok _ => exact ih asked

/-- After a directory that cannot be made no others are asked for. -/
theorem ensureEach_append_error {paths more : List String} {cause : FileFault}
    (asked : system.ensureEach paths = (after, .error cause)) :
    system.ensureEach (paths ++ more) = (after, .error cause) := by
  induction paths generalizing system with
  | nil => cases (Prod.mk.inj asked).2
  | cons path rest ih =>
    unfold ensureEach at asked
    rw [List.cons_append, ensureEach]
    rcases first : system.ensureDirectory path with ⟨made, result⟩
    rw [first] at asked
    cases result with
    | error other => exact asked
    | ok _ => exact ih asked

end Micromag.FileSystem
