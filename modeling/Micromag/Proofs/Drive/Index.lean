import Mathlib.Data.List.Sort
import Micromag.Drive.Compute
import Micromag.Proofs.Decimal.Reading
import Micromag.Proofs.Files.Path

/-!
# Numbers of drives

The directory of a drive is named by its number, which is read from the name again as long as it
fits a word. When the directories with a number in their names are those of the first drives, the
numbers that are found are those of these drives, in order. The passing directory of a computation
has no number in its name.
-/

namespace Micromag.Drive

variable {index count : Nat} {name : String}

/-- The number of a drive is read from the name of its directory. -/
theorem indexOfName?_directoryName (fits : index < 2 ^ 64) :
    indexOfName? (directoryName index) = some index := by
  have text : (directoryName index).toList = namePrefix.toList ++ naturalDigits index := by
    unfold directoryName
    rw [String.toList_append, String.toList_ofList]
  have starts : namePrefix.toList.isPrefixOf (directoryName index).toList = true := by
    rw [text, List.isPrefixOf_iff_prefix]
    exact List.prefix_append _ _
  have rest : (directoryName index).toList.drop namePrefix.length = naturalDigits index := by
    rw [text]
    exact List.drop_left
  unfold indexOfName?
  rw [starts, if_pos rfl, rest, readCount?_naturalDigits fits]

/-- A number that is read from a name fits a word. -/
theorem lt_of_indexOfName? (read : indexOfName? name = some index) : index < 2 ^ 64 := by
  unfold indexOfName? at read
  split at read
  · exact lt_of_readCount? read
  · cases read

/-- Drives whose numbers fit a word have directories of their own. -/
theorem directoryName_inj {other : Nat} (fits : index < 2 ^ 64) (otherFits : other < 2 ^ 64)
    (same : directoryName index = directoryName other) : index = other := by
  have read := indexOfName?_directoryName fits
  rw [same, indexOfName?_directoryName otherFits] at read
  exact (Option.some.inj read).symm

/-- A name with the number of a drive is one part of a path, and neither one nor two points. -/
theorem solid_of_indexOfName? (numbered : (indexOfName? name).isSome = true) :
    Path.Solid name ∧ name ≠ "." ∧ name ≠ ".." := by
  unfold indexOfName? at numbered
  split at numbered
  · rename_i starts
    obtain ⟨rest, text⟩ := List.isPrefixOf_iff_prefix.mp starts
    have same : name.toList.drop namePrefix.length = rest := by
      rw [← text]
      exact List.drop_left
    have digits : ∀ c ∈ rest, c = '+' ∨ isDigit c = true :=
      mem_of_readCount? (same ▸ numbered)
    have noSlash : '/' ∉ name.toList := by
      rw [← text, List.mem_append, not_or]
      refine ⟨by decide, fun member => ?_⟩
      rcases digits '/' member with plus | digit
      · exact absurd plus (by decide)
      · exact absurd digit (by decide)
    have differs (other : String) (short : other.toList.length < 6) : name ≠ other := by
      rintro rfl
      have length := congrArg List.length text
      have six : namePrefix.toList.length = 6 := by decide
      rw [List.length_append, six] at length
      omega
    exact ⟨⟨differs "" (by decide), noSlash⟩, differs "." (by decide), differs ".." (by decide)⟩
  · cases numbered

/-- The directory of a drive is one part of a path. -/
theorem solid_directoryName (index : Nat) : Path.Solid (directoryName index) := by
  have text : (directoryName index).toList = namePrefix.toList ++ naturalDigits index := by
    unfold directoryName
    rw [String.toList_append, String.toList_ofList]
  refine ⟨fun empty => ?_, ?_⟩
  · rw [empty] at text
    exact absurd text.symm (List.append_ne_nil_of_left_ne_nil (by decide) _)
  · rw [text, List.mem_append, not_or]
    refine ⟨by decide, fun member => ?_⟩
    exact absurd (isDigit_naturalDigits '/' member) (by decide)

/-- There are no numbers in no names. -/
theorem indicesOf_nil : indicesOf [] = [] := List.mergeSort_nil

/-- The numbers in names are listed in order. -/
theorem pairwise_indicesOf (names : List String) : (indicesOf names).Pairwise (· ≤ ·) := by
  unfold indicesOf
  exact List.pairwise_mergeSort' (· ≤ ·) (names.filterMap indexOfName?)

/-- The numbers in names are those that are read from one of them. -/
theorem mem_indicesOf {names : List String} :
    index ∈ indicesOf names ↔ ∃ name ∈ names, indexOfName? name = some index := by
  unfold indicesOf
  rw [(List.mergeSort_perm _ _).mem_iff, List.mem_filterMap]

/-- When the names with numbers are those of the first drives, the numbers that are found are
theirs, in order. -/
theorem indicesOf_eq {names : List String} (distinct : names.Nodup) (fits : count ≤ 2 ^ 64)
    (exactly : ∀ name, (indexOfName? name).isSome = true →
      (name ∈ names ↔ ∃ index < count, name = directoryName index)) :
    indicesOf names = List.range count := by
  have read (index : Nat) (less : index < count) :
      indexOfName? (directoryName index) = some index :=
    indexOfName?_directoryName (by omega)
  have ordered : ((List.range count).map directoryName).Nodup := by
    refine List.Nodup.map_on (fun first less second more same => ?_) List.nodup_range
    rw [List.mem_range] at less more
    exact directoryName_inj (by omega) (by omega) same
  have perm : (names.filter fun name => (indexOfName? name).isSome).Perm
      ((List.range count).map directoryName) := by
    refine (List.perm_ext_iff_of_nodup (distinct.filter _) ordered).mpr fun name => ?_
    rw [List.mem_filter, List.mem_map]
    constructor
    · rintro ⟨member, numbered⟩
      obtain ⟨index, less, rfl⟩ := (exactly name numbered).mp member
      exact ⟨index, List.mem_range.mpr less, rfl⟩
    · rintro ⟨index, less, rfl⟩
      rw [List.mem_range] at less
      have numbered : (indexOfName? (directoryName index)).isSome = true := by
        rw [read index less]
        rfl
      exact ⟨(exactly _ numbered).mpr ⟨index, less, rfl⟩, numbered⟩
  have found : ((List.range count).map directoryName).filterMap indexOfName? =
      List.range count := by
    rw [List.filterMap_map]
    have each : ∀ index ∈ List.range count, (indexOfName? ∘ directoryName) index = some index :=
      fun index less => read index (List.mem_range.mp less)
    rw [List.filterMap_congr each, List.filterMap_some]
  have numbers : (names.filterMap indexOfName?).Perm (List.range count) := by
    have kept : (names.filter fun name => (indexOfName? name).isSome).filterMap indexOfName? =
        names.filterMap indexOfName? := by
      rw [List.filterMap_filter]
      congr 1
      funext name
      cases indexOfName? name <;> rfl
    rw [← kept, ← found]
    exact perm.filterMap _
  have sorted := pairwise_indicesOf names
  unfold indicesOf at sorted ⊢
  exact ((List.mergeSort_perm _ _).trans numbers).eq_of_pairwise' sorted List.pairwise_le_range

end Micromag.Drive

namespace Micromag.Compute

/-- The name of a passing directory has no number of a drive. -/
theorem indexOfName?_freshName (taken : List String) :
    Drive.indexOfName? (freshName taken) = none := by
  unfold freshName Drive.indexOfName?
  dsimp only
  rw [String.toList_append]
  exact if_neg Bool.false_ne_true

/-- The name of a passing directory is one part of a path, and neither one nor two points. -/
theorem solid_freshName (taken : List String) :
    Path.Solid (freshName taken) ∧ freshName taken ≠ "." ∧ freshName taken ≠ ".." := by
  obtain ⟨n, name⟩ : ∃ n, freshName taken = scratchName ++ Timestamp.padded 6 n := ⟨_, rfl⟩
  have text : (freshName taken).toList = scratchName.toList ++
      (List.replicate (6 - (toString n).length) '0' ++ Nat.toDigits 10 n) := by
    have digits : (toString n).toList = Nat.toDigits 10 n := Nat.toList_repr
    rw [name, String.toList_append, Timestamp.padded, String.toList_append, String.toList_ofList,
      digits]
  have noSlash : '/' ∉ (freshName taken).toList := by
    rw [text, List.mem_append, List.mem_append, not_or, not_or]
    refine ⟨by decide, fun zero => ?_, fun digit => ?_⟩
    · exact absurd (List.eq_of_mem_replicate zero) (by decide)
    · exact absurd (Nat.isDigit_of_mem_toDigits (by decide) (by decide) digit) (by decide)
  have differs (other : String) (short : other.toList.length < 8) : freshName taken ≠ other := by
    intro same
    have length := congrArg List.length text
    have eight : scratchName.toList.length = 8 := by decide
    rw [same, List.length_append, eight] at length
    omega
  exact ⟨⟨differs "" (by decide), noSlash⟩, differs "." (by decide), differs ".." (by decide)⟩

end Micromag.Compute
