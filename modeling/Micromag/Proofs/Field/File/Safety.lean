import Micromag.Proofs.Field.File.RoundTrip
import Micromag.Proofs.Field.File.TextData

/-!
# When reading breaks off

Every byte string is read as a field or refused, unless the counts in its header are too large for
the words in which the reader computes sizes. Text data break off when there are no addresses for the
numbers that are expected, binary data when the size that is expected is nothing as a word, as then
the check number is not in the data or the numbers end before they begin.
-/

namespace Micromag.FieldFile

/-! ## What is read before the data -/

/-- The encoding of binary data. -/
def Header.encoding? (header : Header) : Option Encoding :=
  match header.block with
  | "binary 4" => some single
  | "binary 8" => some double
  | _ => none

variable {header : Header}

/-- An entry is missing or cannot be used. -/
theorem value_ne_crash {α : Type} {read? : List Char → Option α} {key : String} :
    header.value read? key ≠ .error .crash := by
  unfold Header.value
  split
  · nofun
  · split <;> nofun

/-- An entry that may be missing cannot be used. -/
theorem valueOr_ne_crash {α : Type} {read? : List Char → Option α} {key : String} {default : α} :
    header.valueOr read? key default ≠ .error .crash := by
  unfold Header.valueOr
  split
  · exact value_ne_crash
  · nofun

/-- Entries for the axes are missing or cannot be used. -/
theorem triple_ne_crash {name : String} : header.triple name ≠ .error .crash := by
  intro failed
  unfold Header.triple at failed
  simp only [Result.bind_error, value_ne_crash, false_or] at failed
  obtain ⟨_, _, _, _, _, _, failed⟩ := failed
  cases failed

/-- A mesh that cannot be used is refused. -/
theorem readMesh_ne_crash {lower upper cell : Triple Float} :
    readMesh lower upper cell ≠ .error .crash := by
  unfold readMesh
  cases Mesh.make ⟨lower, upper⟩ cell <;> nofun

/-- Nothing breaks off before the data. -/
theorem shape_ne_crash : header.shape ≠ .error .crash := by
  intro failed
  unfold Header.shape at failed
  simp only [Result.bind_error, triple_ne_crash, valueOr_ne_crash, readMesh_ne_crash,
    false_or] at failed
  obtain ⟨_, _, _, _, _, _, _, _, _, _, _, _, failed⟩ := failed
  cases failed

/-- Entries end with data or without. -/
theorem readEntries_ne_crash {order : ByteOrder} {entries : Keyed String}
    {lines : List (List UInt8 × List UInt8)} :
    readEntries order entries lines ≠ .error .crash := by
  induction lines generalizing entries with
  | nil =>
    intro failed
    cases failed
  | cons line more ih =>
    unfold readEntries
    split
    · exact ih
    · split
      · intro failed
        cases failed
      · exact ih

/-- A header is there or not. -/
theorem readHeader_ne_crash {lines : List (List UInt8 × List UInt8)} :
    readHeader lines ≠ .error .crash := by
  induction lines with
  | nil =>
    intro failed
    cases failed
  | cons line more ih =>
    unfold readHeader
    split
    · exact ih
    · split
      · intro failed
        cases failed
      · exact readEntries_ne_crash

/-! ## The data -/

/-- Words of text are numbers or refused. -/
theorem readRow_ne_crash {line : List Char} : readRow line ≠ .error .crash := by
  have word (first : List Char) : readWord first ≠ .error .crash := by
    unfold readWord
    cases readFloat? first <;> simp
  change (Text.words line).mapM readWord ≠ .error .crash
  induction Text.words line with
  | nil =>
    intro failed
    cases failed
  | cons first others ih =>
    rw [List.mapM_cons]
    intro failed
    simp only [Result.bind_error, word, ih, false_or] at failed
    obtain ⟨_, _, _, _, failed⟩ := failed
    cases failed

/-- Rows of text are read or refused. -/
theorem readRows_ne_crash {lines : List (List Char)} : readRows lines ≠ .error .crash := by
  induction lines with
  | nil => nofun
  | cons line rest ih =>
    unfold readRows
    split
    · split
      · nofun
      · exact ih
    · intro failed
      simp only [Result.bind_error, readRow_ne_crash, ih, false_or] at failed
      obtain ⟨_, _, _, _, failed⟩ := failed
      cases failed

/-- Text breaks off when there are no addresses for the numbers. -/
theorem readText_crash_iff {expected : Nat} {data : List UInt8} :
    readText expected data = .error .crash ↔ 2 ^ 63 ≤ 8 * expected := by
  unfold readText
  by_cases many : 2 ^ 63 ≤ 8 * expected
  · rw [if_pos many]
    exact ⟨fun _ => many, fun _ => rfl⟩
  rw [if_neg many]
  refine ⟨fun failed => ?_, fun enough => absurd enough many⟩
  change (readRows _ >>= fun all => if all.length < expected then _ else _) = _ at failed
  rw [Result.bind_error] at failed
  rcases failed with failed | ⟨all, -, failed⟩
  · exact absurd failed readRows_ne_crash
  · split at failed <;> cases failed

/-- Binary data break off when the size is too small for the check number and the check number is
missing or right. -/
theorem readBinary_crash_iff {encoding : Encoding} {order : ByteOrder} {expected : Nat}
    {data : List UInt8} : readBinary encoding order expected data = .error .crash ↔
      encoding.size expected < encoding.width ∧ encoding.size expected ≤ data.length ∧
        (data.length < encoding.width ∨
          (foundCheck encoding order data != encoding.check) = false) := by
  unfold readBinary
  dsimp only
  by_cases short : data.length < encoding.size expected
  · rw [if_pos short]
    exact ⟨(nomatch ·), fun ⟨_, enough, _⟩ => by omega⟩
  rw [if_neg short]
  by_cases few : data.length < encoding.width
  · rw [if_pos few]
    exact ⟨fun _ => ⟨by omega, by omega, .inl few⟩, fun _ => rfl⟩
  rw [if_neg few]
  change (if (foundCheck encoding order data != encoding.check) = true then _ else _) = _ ↔ _
  by_cases wrong : (foundCheck encoding order data != encoding.check) = true
  · rw [if_pos wrong]
    refine ⟨(nomatch ·), ?_⟩
    rintro ⟨-, -, missing | right⟩
    · exact absurd missing few
    · rw [wrong] at right
      cases right
  rw [if_neg wrong]
  by_cases small : encoding.size expected < encoding.width
  · rw [if_pos small]
    exact ⟨fun _ => ⟨small, by omega, .inr (by simpa using wrong)⟩, fun _ => rfl⟩
  · rw [if_neg small]
    exact ⟨(nomatch ·), fun ⟨small', _⟩ => absurd small' small⟩

/-- A size that is too small for the check number is nothing. -/
theorem size_lt_width_iff {encoding : Encoding} (known : encoding.width = 4 ∨ encoding.width = 8)
    {expected : Nat} :
    encoding.size expected < encoding.width ↔ 2 ^ 64 ∣ encoding.width * (expected + 1) := by
  unfold Encoding.size
  rcases known with width | width
  · rw [width]
    omega
  · rw [width]
    omega

/-- The encodings have numbers of four or eight bytes. -/
theorem width_of_encoding {encoding : Encoding} (known : header.encoding? = some encoding) :
    encoding.width = 4 ∨ encoding.width = 8 := by
  unfold Header.encoding? at known
  split at known
  · exact .inl (congrArg Encoding.width (Option.some.inj known)).symm
  · exact .inr (congrArg Encoding.width (Option.some.inj known)).symm
  · cases known

/-- What lets the reader break off when it expects a number of values. -/
inductive Breaks (header : Header) (expected : Nat) : Prop where
  /-- There are no addresses for the numbers of text data. -/
  | text (block : header.block = "text") (many : 2 ^ 63 ≤ 8 * expected)
  /-- The size of binary data is nothing as a word, and the check number is missing or right. -/
  | binary (encoding : Encoding) (known : header.encoding? = some encoding)
      (wraps : 2 ^ 64 ∣ encoding.width * (expected + 1))
      (check : header.data.length < encoding.width ∨
        (foundCheck encoding header.order header.data != encoding.check) = false)

/-- The data break off when the number of values is one of those. -/
theorem readValues_crash_iff {expected : Nat} :
    readValues header expected = .error .crash ↔ Breaks header expected := by
  have binary {encoding : Encoding} (known : header.encoding? = some encoding) :
      readBinary encoding header.order expected header.data = .error .crash ↔
        2 ^ 64 ∣ encoding.width * (expected + 1) ∧ (header.data.length < encoding.width ∨
          (foundCheck encoding header.order header.data != encoding.check) = false) := by
    have width := width_of_encoding known
    rw [readBinary_crash_iff, size_lt_width_iff width]
    constructor
    · exact fun ⟨wraps, _, check⟩ => ⟨wraps, check⟩
    · rintro ⟨wraps, check⟩
      refine ⟨wraps, ?_, check⟩
      have nothing : encoding.size expected = 0 := by
        unfold Encoding.size
        rcases width with width | width
        · rw [width] at wraps ⊢
          omega
        · rw [width] at wraps ⊢
          omega
      omega
  constructor
  · intro failed
    unfold readValues at failed
    split at failed
    · rename_i block
      exact .text block (readText_crash_iff.mp failed)
    · rename_i block
      have known : header.encoding? = some single := by
        unfold Header.encoding?
        rw [block]
        rfl
      obtain ⟨wraps, check⟩ := (binary known).mp failed
      exact .binary single known wraps check
    · rename_i block
      have known : header.encoding? = some double := by
        unfold Header.encoding?
        rw [block]
        rfl
      obtain ⟨wraps, check⟩ := (binary known).mp failed
      exact .binary double known wraps check
    · cases failed
  · rintro (⟨block, many⟩ | ⟨encoding, known, wraps, check⟩)
    · unfold readValues
      rw [block]
      exact readText_crash_iff.mpr many
    · have failed := (binary known).mpr ⟨wraps, check⟩
      unfold Header.encoding? at known
      unfold readValues
      split at known
      · rename_i block
        rw [← Option.some.inj known] at failed
        rw [block]
        exact failed
      · rename_i block
        rw [← Option.some.inj known] at failed
        rw [block]
        exact failed
      · cases known

/-! ## The whole file -/

variable {shape : Shape}

/-- The values that are expected are those that there should be, up to the size of a word. -/
theorem expected_eq_mod : shape.expected = shape.values % 2 ^ 64 := by
  unfold Shape.expected Shape.values Mesh.cellCount
  rw [Nat.mod_mul_mod]

/-- A field is read or refused unless its data break off. -/
theorem readField_crash_iff : readField header = .error .crash ↔
    ∃ shape, header.shape = .ok shape ∧ Breaks header (shape.values % 2 ^ 64) := by
  rw [readField_eq, Result.bind_error]
  constructor
  · rintro (failed | ⟨shape, read, failed⟩)
    · exact absurd failed shape_ne_crash
    · rcases Result.bind_error.mp failed with failed | ⟨values, -, failed⟩
      · rw [expected_eq_mod, readValues_crash_iff] at failed
        exact ⟨shape, read, failed⟩
      · unfold Except.mapError at failed
        split at failed <;> cases failed
  · rintro ⟨shape, read, breaks⟩
    refine .inr ⟨shape, read, Result.bind_error.mpr (.inl ?_)⟩
    rw [expected_eq_mod]
    exact readValues_crash_iff.mpr breaks

/-- A field that is read has as many values as are expected. -/
theorem length_of_readField (read : header.shape = .ok shape) {found : Field Float}
    (accepted : readField header = .ok found) : found.values.length = shape.values % 2 ^ 64 := by
  rw [readField_eq] at accepted
  obtain ⟨_, same, accepted⟩ := Result.bind_ok.mp accepted
  obtain rfl := Except.ok.inj (read.symm.trans same)
  obtain ⟨values, _, accepted⟩ := Result.bind_ok.mp accepted
  obtain ⟨rfl, usable⟩ := Field.make_ok_iff.mp (Result.mapError_ok.mp accepted)
  rw [← expected_eq_mod]
  exact usable.length

/-- Counts that fit the words of the reader do not let it break off. -/
theorem not_breaks_of_fits (fits : 8 * (shape.values + 1) < 2 ^ 63) :
    ¬Breaks header (shape.values % 2 ^ 64) := by
  have word : shape.values % 2 ^ 64 = shape.values := Nat.mod_eq_of_lt (by omega)
  rw [word]
  rintro (⟨-, many⟩ | ⟨encoding, known, wraps, -⟩)
  · omega
  · rcases width_of_encoding known with width | width
    · rw [width] at wraps
      omega
    · rw [width] at wraps
      omega

/-- Reading any bytes ends in a field or a refusal, unless the number of values in the header lets
the data break off. It never does when this number and the size of so many values fit a word; then
the reader computes both exactly. A field that is read in the other cases has as many values as the
number of them is as a word. -/
theorem read_crash_iff (bytes : List UInt8) :
    (read bytes = .error .crash ↔ ∃ header shape, readHeader (linesWithRest bytes) = .ok header ∧
      header.shape = .ok shape ∧ Breaks header (shape.values % 2 ^ 64)) ∧
    ∀ header shape, readHeader (linesWithRest bytes) = .ok header → header.shape = .ok shape →
      (∀ found, read bytes = .ok found → found.values.length = shape.values % 2 ^ 64) ∧
      (8 * (shape.values + 1) < 2 ^ 63 → read bytes ≠ .error .crash ∧
        shape.expected = shape.values ∧ ∀ encoding, header.encoding? = some encoding →
          encoding.size shape.expected = encoding.width * (shape.values + 1)) := by
  have whole : read bytes = .error .crash ↔ ∃ header shape,
      readHeader (linesWithRest bytes) = .ok header ∧ header.shape = .ok shape ∧
        Breaks header (shape.values % 2 ^ 64) := by
    unfold FieldFile.read
    rw [Result.bind_error]
    simp only [readHeader_ne_crash, false_or, readField_crash_iff]
    exact ⟨fun ⟨header, head, shape, rest⟩ => ⟨header, shape, head, rest⟩,
      fun ⟨header, shape, head, rest⟩ => ⟨header, head, shape, rest⟩⟩
  refine ⟨whole, fun header shape head read => ⟨fun found accepted => ?_, fun fits => ⟨?_, ?_, ?_⟩⟩⟩
  · obtain ⟨_, same, accepted⟩ := Result.bind_ok.mp accepted
    obtain rfl := Except.ok.inj (head.symm.trans same)
    exact length_of_readField read accepted
  · intro failed
    obtain ⟨_, _, otherHead, otherRead, breaks⟩ := whole.mp failed
    obtain rfl := Except.ok.inj (head.symm.trans otherHead)
    obtain rfl := Except.ok.inj (read.symm.trans otherRead)
    exact not_breaks_of_fits fits breaks
  · rw [expected_eq_mod, Nat.mod_eq_of_lt (by omega)]
  · intro encoding known
    rw [expected_eq_mod, Nat.mod_eq_of_lt (show shape.values < 2 ^ 64 by omega)]
    unfold Encoding.size
    rcases width_of_encoding known with width | width
    · rw [width]
      omega
    · rw [width]
      omega

/-- A field without values on a box that has `2 ^ 20` cells along each axis. -/
def crowded : Field Float where
  mesh := { region := ⟨⟨0, 0, 0⟩, ⟨1048576, 1048576, 1048576⟩⟩, cell := ⟨1, 1, 1⟩ }
  dim := 1
  values := []

/-- The reader breaks off on a file of few bytes that holds a header and no data. -/
theorem crowded_crash : read (Text.Utf8.ofString (FieldFile.header crowded "m" .text false)) =
    .error .crash := by
  have meshUsable : crowded.mesh.validate = .ok () := Result.ok_of_toBool (by decide)
  have head : readHeader (linesWithRest
      (Text.Utf8.ofString (FieldFile.header crowded "m" .text false) ++ [])) =
      .ok ⟨.little, headerEntries crowded "m" false, blockName .text, []⟩ :=
    readHeader_header (by decide) .text
  rw [List.append_nil] at head
  have entries : Header.entries ⟨.little, headerEntries crowded "m" false, blockName .text, []⟩ =
      headerEntries crowded "m" false := rfl
  have shape := shape_written meshUsable (.inl rfl) (meshReadsBack _) entries
  have values : (Shape.mk crowded.mesh.bare (writtenDim crowded false) 1).values = 2 ^ 60 := by
    decide
  have breaks : Breaks ⟨.little, headerEntries crowded "m" false, blockName .text, []⟩
      ((Shape.mk crowded.mesh.bare (writtenDim crowded false) 1).values % 2 ^ 64) := by
    rw [values]
    exact .text rfl (by decide)
  exact (read_crash_iff _).1.mpr ⟨_, _, head, shape, breaks⟩

end Micromag.FieldFile
