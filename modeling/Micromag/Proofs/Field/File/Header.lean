import Micromag.Field.File
import Micromag.Proofs.Decimal.Layout
import Micromag.Proofs.Keyed
import Micromag.Proofs.Text.Basic
import Micromag.Proofs.Text.Utf8

/-!
# Headers of field files

Reading splits bytes into lines and lines into keys and values. Lines that were written come back as
they are, whatever follows them, and each line with a key sets this key: the entries of a header are
the entries of its lines in order.
-/

namespace Micromag.FieldFile

open Text

variable {line rest : List UInt8}

/-- A line is split off at its end. -/
theorem linesWithRest_append (oneLine : 10 ∉ line) :
    linesWithRest (line ++ 10 :: rest) = (line, rest) :: linesWithRest rest := by
  induction line with
  | nil => rfl
  | cons byte others ih =>
    have other : byte ≠ 10 := fun same => oneLine (same ▸ List.mem_cons_self)
    have further := ih fun member => oneLine (List.mem_cons_of_mem byte member)
    rw [List.cons_append, linesWithRest, if_neg other, further]

/-- The bytes of a line with its end. -/
def lineBytes (line : String) : List UInt8 := Utf8.ofString line ++ [10]

/-- The bytes of lines are the bytes of each line in turn. -/
theorem ofString_joinLines (lines : List String) :
    Utf8.ofString (joinLines lines) = lines.flatMap lineBytes := by
  unfold Utf8.ofString joinLines
  rw [String.toList_join, List.flatMap_map]
  unfold Utf8.encode
  rw [List.flatMap_assoc]
  apply List.flatMap_congr
  intro line _
  rw [String.toList_append, List.flatMap_append]
  rfl

/-- The key and the value of a line. -/
def entry? (line : String) : Option (String × List Char) :=
  (comment? (Utf8.ofString line)).bind keyValue?

/-- A comment with a colon has the text before it as its key and the text after it as its value. -/
theorem entry?_of_toList {line : String} {key value : List Char}
    (text : line.toList = '#' :: ' ' :: (key ++ ':' :: value)) (first : ':' ∉ key) :
    entry? line = some (String.ofList (lowerCase (trim key)), trim value) := by
  have hash : isBlank '#' = false := by decide
  have blank : isBlank ' ' = true := by decide
  have colon : isBlank ':' = false := by decide
  have trimmed : trim line.toList = '#' :: ' ' :: (key ++ ':' :: trimEnd value) := by
    rw [text, ← trimStart_trimEnd]
    have cut : trimEnd (('#' :: ' ' :: key) ++ ':' :: value) =
        ('#' :: ' ' :: key) ++ ':' :: trimEnd value := trimEnd_append_cons colon
    rw [List.cons_append, List.cons_append] at cut
    rw [cut]
    exact trimStart_cons hash
  have content : trim (' ' :: (key ++ ':' :: trimEnd value)) =
      trimStart key ++ ':' :: trimEnd value := by
    rw [trim_cons_blank blank, trim, trimStart_append_cons colon, trimEnd_append_cons colon,
      trimEnd_trimEnd]
  have before : ∀ c ∈ trimStart key, c ≠ ':' := fun c member same =>
    first (same ▸ (List.dropWhile_suffix isBlank).subset member)
  have split : keyValue? (trimStart key ++ ':' :: trimEnd value) =
      some (String.ofList (lowerCase (trim key)), trim value) := by
    unfold keyValue?
    rw [List.dropWhile_append_of_pos (by simpa using before),
      List.takeWhile_append_of_pos (by simpa using before)]
    rw [List.dropWhile_cons_of_neg (by simp), List.takeWhile_cons_of_neg (by simp)]
    simp only [List.append_nil, trim_trimStart, trim_trimEnd]
  unfold entry? comment? Utf8.ofString
  rw [Utf8.decodeLossy_encode, trimmed]
  simp only [Option.bind_some, content]
  exact split

/-- A line that can stand in front of the data. -/
structure Plain (line : String) : Prop where
  /-- It is one line. -/
  oneLine : '\n' ∉ line.toList
  /-- It does not begin the data. -/
  notData : ∀ entry, entry? line = some entry → dataBlock? entry.1 entry.2 = none

variable {order : ByteOrder} {entries : Keyed String}

/-- Reading one line sets its key. -/
theorem readEntries_cons {line : String} (plain : Plain line) :
    readEntries order entries (linesWithRest (lineBytes line ++ rest)) =
      readEntries order (( entry? line).elim entries fun entry =>
        entries.insert entry.1 (String.ofList entry.2)) (linesWithRest rest) := by
  have oneLine : 10 ∉ Utf8.ofString line := Utf8.lineFeed_notMem_encode plain.oneLine
  unfold lineBytes
  rw [List.append_assoc, List.singleton_append, linesWithRest_append oneLine, readEntries]
  cases found : entry? line with
  | none =>
    unfold entry? at found
    rw [found]
    rfl
  | some entry =>
    have notData := plain.notData entry found
    unfold entry? at found
    obtain ⟨key, value⟩ := entry
    rw [found]
    simp only [notData]
    rfl

/-- Reading lines sets their keys in order. -/
theorem readEntries_lines {lines : List String} (plain : ∀ line ∈ lines, Plain line) :
    readEntries order entries (linesWithRest (lines.flatMap lineBytes ++ rest)) =
      readEntries order (((lines.filterMap entry?).map fun entry =>
        (entry.1, String.ofList entry.2)).foldl
          (fun map setting => map.insert setting.1 setting.2) entries) (linesWithRest rest) := by
  induction lines generalizing entries with
  | nil => rfl
  | cons line others ih =>
    have further := fun other member => plain other (List.mem_cons_of_mem line member)
    rw [List.flatMap_cons, List.append_assoc, readEntries_cons (plain line List.mem_cons_self),
      ih further]
    cases found : entry? line with
    | none => rw [List.filterMap_cons_none found]; rfl
    | some entry => rw [List.filterMap_cons_some found]; rfl

end Micromag.FieldFile
