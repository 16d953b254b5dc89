import Mathlib.Data.List.Pairwise
import Micromag.Proofs.Drive.Index
import Micromag.Proofs.Files.Children
import Micromag.Proofs.Files.Directories

/-!
# Listing the drives of a problem

The drives that are found in a directory are told by the names of the directories in it. A name is
read as a number when digits stand behind the prefix; zeros in front of them and a plus in front of
these do not count. A number is therefore found again for each further spelling of it, and also where
only another spelling is there. Where no directory has such a name, the numbers found are in strict
order, and each is that of a directory with the name of the drive.
-/

namespace Micromag.Drive

open FileSystem

variable {files : FileSystem} {path name : String} {place : Place} {names : List String} {index : Nat}

/-- The names of the directories in a directory; without the directory there are none. -/
def directoriesIn (files : FileSystem) (path : String) : List String :=
  match files.list path with
  | .ok found => (found.map (·.1)).filter fun name => files.isDirectory (Path.join path name)
  | .error _ => []

/-- The names of the directories at a place. -/
theorem directoriesIn_eq (leads : files.locate path false = .ok ⟨place, some .directory⟩) :
    directoriesIn files path = ((files.tree.children place).map (·.1)).filter fun name =>
      files.isDirectory (Path.join path name) := by
  unfold directoriesIn FileSystem.list
  rw [directoryOf_ok.mpr leads]
  rfl

/-- There are no directories in what is no directory. -/
theorem directoriesIn_eq_nil (missing : files.isDirectory path = false) :
    directoriesIn files path = [] := by
  unfold directoriesIn FileSystem.list
  unfold isDirectory at missing
  cases led : files.directoryOf path with
  | error cause => rfl
  | ok place =>
    rw [led] at missing
    cases missing

/-- The numbers that are found are those in the names of the directories, and finding them changes
nothing. -/
theorem indices_eq (files : FileSystem) (path : String) :
    indices path files = (.ok (indicesOf (directoriesIn files path)), files) := by
  unfold indices
  rw [Action.bind_apply, Action.read_apply]
  dsimp only
  cases stands : files.isDirectory path with
  | false =>
    rw [directoriesIn_eq_nil stands, indicesOf_nil, if_neg Bool.false_ne_true, Action.pure_apply]
  | true =>
    obtain ⟨place, leads⟩ := isDirectory_iff.mp stands
    have listed : files.list path = .ok (files.tree.children place) := by
      unfold FileSystem.list
      rw [directoryOf_ok.mpr leads]
      rfl
    have looked : FileAction.look "IO.DRIVE_LIST" s!"failed to list {path}" (·.list path) files =
        (.ok (files.tree.children place), files) := by
      unfold FileAction.look
      dsimp only
      rw [listed]
      rfl
    rw [if_pos rfl, Action.bind_apply, looked]
    dsimp only
    rw [Action.bind_apply, Action.read_apply]
    dsimp only
    rw [Action.pure_apply, directoriesIn_eq leads]

/-- No two directories in a directory have the same name. -/
theorem nodup_directoriesIn (sound : files.Sound) : (directoriesIn files path).Nodup := by
  cases stands : files.isDirectory path with
  | false =>
    rw [directoriesIn_eq_nil stands]
    exact .nil
  | true =>
    obtain ⟨place, leads⟩ := isDirectory_iff.mp stands
    rw [directoriesIn_eq leads]
    exact sound.tree.nodup_children_names.filter _

/-- A name is read as a number when the digits of the number stand behind the prefix, perhaps behind
zeros and these behind a plus. -/
theorem indexOfName?_eq_some : indexOfName? name = some index ↔
    index < 2 ^ 64 ∧ ∃ sign zeros, (sign = [] ∨ sign = ['+']) ∧
      name.toList = namePrefix.toList ++ (sign ++ (List.replicate zeros '0' ++
        naturalDigits index)) := by
  unfold indexOfName?
  constructor
  · intro read
    split at read
    · rename_i starts
      obtain ⟨rest, text⟩ := List.isPrefixOf_iff_prefix.mp starts
      have behind : name.toList.drop namePrefix.length = rest := by
        rw [← text]
        exact List.drop_left
      rw [behind] at read
      obtain ⟨fits, sign, zeros, signed, rfl⟩ := readCount?_eq_some.mp read
      exact ⟨fits, sign, zeros, signed, text.symm⟩
    · cases read
  · rintro ⟨fits, sign, zeros, signed, text⟩
    have starts : namePrefix.toList.isPrefixOf name.toList = true := by
      rw [text, List.isPrefixOf_iff_prefix]
      exact List.prefix_append _ _
    have behind : name.toList.drop namePrefix.length =
        sign ++ (List.replicate zeros '0' ++ naturalDigits index) := by
      rw [text]
      exact List.drop_left
    rw [starts, if_pos rfl, behind]
    exact readCount?_eq_some.mpr ⟨fits, sign, zeros, signed, rfl⟩

/-- The numbers in names are in strict order when no two names have the same number. -/
theorem strict_indicesOf :
    (indicesOf names).Pairwise (· < ·) ↔ (names.filterMap indexOfName?).Nodup := by
  have ordered := pairwise_indicesOf names
  have same : (indicesOf names).Perm (names.filterMap indexOfName?) := List.mergeSort_perm _ _
  rw [← same.nodup_iff]
  constructor
  · exact fun strict => strict.imp Nat.ne_of_lt
  · exact fun distinct => (ordered.and distinct).imp fun both => Nat.lt_of_le_of_ne both.1 both.2

/-- Whether every name with a number is that of the drive with the number. -/
def Canonical (names : List String) : Prop :=
  ∀ name ∈ names, ∀ index, indexOfName? name = some index → name = directoryName index

/-- Whether numbers are those of the directories of drives, in strict order. -/
structure Matches (numbers : List Nat) (names : List String) : Prop where
  /-- The numbers are in strict order. -/
  strict : numbers.Pairwise (· < ·)
  /-- A number is among them when the directory of the drive is there. -/
  exact : ∀ index < 2 ^ 64, index ∈ numbers ↔ directoryName index ∈ names

/-- The numbers in names are those of the directories of drives when every name with a number is that
of a drive. -/
theorem matches_indicesOf (distinct : names.Nodup) :
    Matches (indicesOf names) names ↔ Canonical names := by
  constructor
  · rintro ⟨strict, exact⟩ name member index read
    have fits := lt_of_indexOfName? read
    have found : index ∈ indicesOf names := mem_indicesOf.mpr ⟨name, member, read⟩
    have other := (exact index fits).mp found
    by_contra differ
    -- the number would be found twice, for this name and for that of the drive
    have apart := List.pairwise_filterMap.mp (strict_indicesOf.mp strict)
    have symmetric : Std.Symm fun first second : String =>
        ∀ n, indexOfName? first = some n → ∀ m, indexOfName? second = some m → n ≠ m :=
      ⟨fun _ _ apart n one m two => (apart m two n one).symm⟩
    exact apart.forall member other differ index read index (indexOfName?_directoryName fits) rfl
  · intro canonical
    refine ⟨strict_indicesOf.mpr (List.pairwise_filterMap.mpr ?_), fun index fits => ?_⟩
    · refine distinct.imp_of_mem fun first second differ one read other readOther same => ?_
      have firstNamed := canonical _ first _ read
      have secondNamed := canonical _ second _ readOther
      exact differ (firstNamed.trans (same ▸ secondNamed.symm))
    · rw [mem_indicesOf]
      constructor
      · rintro ⟨name, member, read⟩
        exact canonical name member index read ▸ member
      · exact fun member => ⟨_, member, indexOfName?_directoryName fits⟩

/-- The numbers that are found in a directory are in order, and they are those of which the name of a
directory in it is a spelling: the prefix, perhaps a plus, zeros, and the digits. They are the numbers
of the drives whose directories are there, in strict order, exactly when no directory has another
spelling as its name. -/
theorem indices_listing (sound : files.Sound) (path : String) :
    ∃ found, indices path files = (.ok found, files) ∧ found.Pairwise (· ≤ ·) ∧
      (∀ index, index ∈ found ↔ index < 2 ^ 64 ∧ ∃ name ∈ directoriesIn files path,
        ∃ sign zeros, (sign = [] ∨ sign = ['+']) ∧ name.toList =
          namePrefix.toList ++ (sign ++ (List.replicate zeros '0' ++ naturalDigits index))) ∧
      (Matches found (directoriesIn files path) ↔ Canonical (directoriesIn files path)) := by
  refine ⟨_, indices_eq files path, pairwise_indicesOf _, fun index => ?_,
    matches_indicesOf (nodup_directoriesIn sound)⟩
  rw [mem_indicesOf]
  constructor
  · rintro ⟨name, member, read⟩
    obtain ⟨fits, spelled⟩ := indexOfName?_eq_some.mp read
    exact ⟨fits, name, member, spelled⟩
  · rintro ⟨fits, name, member, spelled⟩
    exact ⟨name, member, indexOfName?_eq_some.mpr ⟨fits, spelled⟩⟩

/-- Files with the directory of a problem and in it two directories whose names are spellings of five. -/
def twice : FileSystem where
  tree := ((FileTree.add {} ["p"] .directory).add ["p", "drive-5"] .directory).add
    ["p", "drive-05"] .directory

/-- These files are sound. -/
theorem sound_twice : twice.Sound where
  tree := by
    have plain (name : String) (solid : Path.Solid name) (here : name ≠ ".") (up : name ≠ "..")
        (short : name.utf8ByteSize ≤ maxName) : Path.Plain name := ⟨solid, here, up, short⟩
    have problem : (FileTree.add {} ["p"] .directory).Sound :=
      FileTree.Sound.empty.add (FileTree.nodeAt?_nil _)
        (plain "p" ⟨by decide, by decide⟩ (by decide) (by decide) (by decide)) rfl
    have stands : (FileTree.add {} ["p"] .directory).nodeAt? ["p"] = some .directory := by decide
    have first : ((FileTree.add {} ["p"] .directory).add ["p", "drive-5"] .directory).Sound :=
      problem.add stands
        (plain "drive-5" ⟨by decide, by decide⟩ (by decide) (by decide) (by decide)) (by decide)
    have stays : ((FileTree.add {} ["p"] .directory).add ["p", "drive-5"] .directory).nodeAt?
        ["p"] = some .directory := by
      decide
    exact first.add stays
      (plain "drive-05" ⟨by decide, by decide⟩ (by decide) (by decide) (by decide)) (by decide)
  given := by decide
  working place working := by
    rw [← Option.some.inj (show some [] = some place from working)]
    rfl

/-- Two directories with spellings of one number are found as two drives, so that the numbers are not
those of the directories of drives in strict order. -/
theorem indices_listing_twice : twice.Sound ∧ ∃ found, indices "/p" twice = (.ok found, twice) ∧
    5 ∈ found ∧ ¬Matches found (directoriesIn twice "/p") := by
  obtain ⟨found, same, _, members, matched⟩ := indices_listing sound_twice "/p"
  have names : directoriesIn twice "/p" = ["drive-5", "drive-05"] := by decide +kernel
  rw [names] at members matched
  refine ⟨sound_twice, found, same, (members 5).mpr ?_, fun fits => ?_⟩
  · exact ⟨by decide, "drive-5", List.mem_cons_self, [], 0, .inl rfl, by decide⟩
  · have canonical := matched.mp (names ▸ fits)
    have read : indexOfName? "drive-05" = some 5 := by decide
    exact absurd (canonical "drive-05" (List.mem_cons_of_mem _ List.mem_cons_self) 5 read)
      (by decide)

end Micromag.Drive
