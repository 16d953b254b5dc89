import Micromag.Proofs.Decimal.Significant
import Micromag.Proofs.Double.Single
import Micromag.Proofs.Field.File.Truncation

/-!
# What comes back from a file of any format

A number is read close to itself from sixteen digits or from single precision, unless it is so large
that it is rounded to an infinity there; eight bytes keep every number. The reader refuses infinities,
so a usable field comes back close to itself exactly when its format holds all of its values, and the
loose ones among them happen to be near to what the bytes behind the data stand for.
-/

namespace Micromag.FieldFile

open Text

/-! ## Single numbers -/

/-- Whether a number that was read is as near to the one that was written as a reader may expect. -/
def Near (read written : Float) : Prop :=
  |realOf read - realOf written| ≤ 1e-6 * max |realOf written| 1e-9

/-- Whether a format has a finite number for a double. -/
def Holds : FieldFormat → Float → Prop
  | .text, x => (Magnitude.ofFloat x).value < textLimit
  | .binary4, x => (Magnitude.ofFloat x).value < Single.limit
  | .binary8, _ => True

/-- The double that is read for one that was written. -/
def returned : FieldFormat → Float → Float
  | .text, x => (readFloat? (digits x)).getD 0
  | .binary4, x => decoded single singleBytes x
  | .binary8, x => x

/-- The number that a magnitude stands for is a rational one. -/
theorem toReal_eq (x : Magnitude) : x.toReal = x.value := by
  unfold Magnitude.toReal Magnitude.value
  push_cast
  rfl

variable {x y : Float}

/-- A double that is half a unit of single precision away is near. -/
theorem near_of_close (close : Double.Close y x) : Near y x := by
  have near := (Rat.cast_le (K := ℝ)).mpr close.near
  push_cast at near
  rw [← toReal_eq, ← toReal_eq] at near
  have some : 0 ≤ (Magnitude.ofFloat x).toReal := by
    unfold Magnitude.toReal
    positivity
  have sizes : |realOf x| = (Magnitude.ofFloat x).toReal := by
    unfold realOf
    split
    · rw [abs_neg, abs_of_nonneg some]
    · exact abs_of_nonneg some
  have apart : |realOf y - realOf x| =
      |(Magnitude.ofFloat y).toReal - (Magnitude.ofFloat x).toReal| := by
    unfold realOf
    rw [close.sign]
    split
    · rw [neg_sub_neg, abs_sub_comm]
    · rfl
  have first := le_max_left (Magnitude.ofFloat x).toReal (1e-9 : ℝ)
  have second := le_max_right (Magnitude.ofFloat x).toReal (1e-9 : ℝ)
  unfold Near
  rw [apart, sizes]
  refine near.trans ?_
  generalize max (Magnitude.ofFloat x).toReal (1e-9 : ℝ) = most at first second ⊢
  norm_num at second ⊢
  linarith

/-- A finite double is close to itself. -/
theorem close_self (finite : x.isFinite = true) : Double.Close x x := by
  refine ⟨finite, rfl, ?_⟩
  rw [sub_self, abs_zero]
  unfold Magnitude.value
  positivity

/-- Four bytes give back the number in single precision. -/
theorem decoded_single (x : Float) :
    decoded single singleBytes x = Single.toDouble (Single.ofDouble x) :=
  congrArg Single.toDouble (Bytes.toNat_ofNat (Single.ofDouble_lt x))

/-- A finite double that a format holds comes back close to itself. -/
theorem close_returned {format : FieldFormat} (finite : x.isFinite = true)
    (holds : Holds format x) : Double.Close (returned format x) x := by
  cases format with
  | text =>
    obtain ⟨y, read, close⟩ := Double.exists_close_sixteenDigits finite holds
    have same : returned .text x = y := by
      show (readFloat? (digits x)).getD 0 = y
      rw [show readFloat? (digits x) = some y from read]
      rfl
    rw [same]
    exact close
  | binary4 =>
    show Double.Close (decoded single singleBytes x) x
    rw [decoded_single]
    exact Single.close_toDouble finite holds
  | binary8 => exact close_self finite

/-- A finite double that a format does not hold comes back as an infinity. -/
theorem isFinite_returned {format : FieldFormat} (finite : x.isFinite = true)
    (large : ¬Holds format x) : (returned format x).isFinite = false := by
  cases format with
  | text =>
    obtain ⟨y, read, infinite⟩ := Double.readFloat?_sixteenDigits_of_limit finite (not_lt.mp large)
    have same : returned .text x = y := by
      show (readFloat? (digits x)).getD 0 = y
      rw [show readFloat? (digits x) = some y from read]
      rfl
    rw [same]
    exact infinite
  | binary4 =>
    show (decoded single singleBytes x).isFinite = false
    rw [decoded_single]
    exact Single.toDouble_of_limit finite (not_lt.mp large)
  | binary8 => exact absurd trivial large

/-! ## Whole files -/

/-- The values that make up whole cells. -/
def wholeValues (field : Field Float) : List Float :=
  field.values.take (field.values.length - loose field)

/-- The values at the end that make up no whole cell. -/
def looseValues (field : Field Float) : List Float :=
  field.values.drop (field.values.length - loose field)

/-- The bytes behind binary data. -/
def ending (format : FieldFormat) : List UInt8 :=
  10 :: Utf8.ofString (joinLines ["# End: Data " ++ format.dataLabel, "# End: Segment"])

/-- The numbers that are read behind the data: none behind text, and behind binary data what the bytes
of the lines that end the file stand for. -/
def behind : FieldFormat → Nat → List Float
  | .text, _ => []
  | .binary4, count => readWords single .little count (ending .binary4)
  | .binary8, count => readWords double .little count (ending .binary8)

variable {field : Field Float} {title : String} {format : FieldFormat}

/-- The numbers that are read are those of the words of text data. -/
theorem readRows_whole (usable : field.Usable) {extended : Bool} {all : List Float} :
    readRows (Text.lines (dataText field extended ++ footerText)) = .ok all ↔
      List.Forall₂ (fun z r => readFloat? (digits z) = some r)
        (writtenCells field extended).flatten all := by
  rcases List.eq_nil_or_concat (writtenCells field extended).flatten with none | ⟨numbers, x, last⟩
  · rw [dataText_of_none usable none, none, List.nil_append, readRows_lines,
      readRows_footer (List.prefix_refl _), List.forall₂_nil_left_iff]
    exact ⟨fun same => (Except.ok.inj same).symm, fun same => same ▸ rfl⟩
  · rw [List.concat_eq_append] at last
    obtain ⟨front, whole, known⟩ := exists_data_front usable last
    have plain : '#' ∉ front ++ digits x := by
      rw [List.mem_append, not_or]
      exact ⟨known.plain, digits_plain x⟩
    rw [whole, ← List.append_assoc, readRows_append_words plain (readRows_footer (List.prefix_refl _)),
      known.words, words_digits, last, ← mapM_digits_ok_iff, List.map_append]
    rfl

/-- All values of the whole cells are written. -/
theorem flatten_written (usable : field.Usable) :
    (writtenCells field false).flatten = wholeValues field :=
  flatten_writtenCells usable rfl

/-- There are as many values as are expected. -/
theorem length_whole (field : Field Float) :
    (wholeValues field).length + loose field = field.values.length := by
  have bound : loose field ≤ field.values.length := Nat.mod_le _ _
  unfold wholeValues
  rw [List.length_take]
  omega

/-- A finite double is read from its text as the one that comes back. -/
theorem readFloat?_digits (finite : x.isFinite = true) :
    readFloat? (digits x) = some (returned .text x) := by
  have read := readFloat?_sixteenDigits finite
  have same : returned .text x = (readFloat? (digits x)).getD 0 := rfl
  rw [same, show readFloat? (digits x) = _ from read]
  rfl

/-- Finite numbers are read from their texts as those that come back. -/
theorem forall₂_digits {written read : List Float} (finite : ∀ x ∈ written, x.isFinite = true) :
    List.Forall₂ (fun x y => readFloat? (digits x) = some y) written read ↔
      read = written.map (returned .text) := by
  induction written generalizing read with
  | nil => exact List.forall₂_nil_left_iff
  | cons x others ih =>
    obtain ⟨first, further⟩ := List.forall_mem_cons.mp finite
    rw [List.forall₂_cons_left_iff, List.map_cons]
    constructor
    · rintro ⟨y, rest, same, remaining, rfl⟩
      rw [readFloat?_digits first] at same
      rw [(ih further).mp remaining, Option.some.inj same]
    · rintro rfl
      exact ⟨_, _, readFloat?_digits first, (ih further).mpr rfl, rfl⟩

/-- A number in single precision takes four bytes. -/
theorem length_singleBytes (x : Float) : (singleBytes x).length = single.width :=
  Bytes.length_littleDigits 4 _

/-- Binary data of the whole cells give the numbers that come back and what is read behind them. -/
theorem readBinary_written (usable : field.Usable) (fits : 8 * field.values.length < 2 ^ 63)
    {encoding : Encoding} {bytes : Float → List UInt8} (some : 0 < encoding.width)
    (most : encoding.width ≤ 8) (width : ∀ x, (bytes x).length = encoding.width)
    (right : (decoded encoding bytes encoding.check != encoding.check) = false)
    {rest : List UInt8} (long : encoding.width * loose field ≤ rest.length) :
    readBinary encoding .little field.values.length
        ((encoding.check :: (writtenCells field false).flatten).flatMap bytes ++ rest) =
      .ok ((wholeValues field).map (decoded encoding bytes) ++
        readWords encoding .little (loose field) rest) := by
  have count := length_whole field
  rw [flatten_written usable, ← count]
  refine readBinary_encoded width some right long ?_
  rw [count]
  calc encoding.width * (field.values.length + 1) ≤ 8 * (field.values.length + 1) :=
        Nat.mul_le_mul_right _ most
    _ < 2 ^ 64 := by omega

/-- Binary data are always read. -/
theorem readValues_binary (usable : field.Usable) (fits : 8 * field.values.length < 2 ^ 63)
    (binary : format ≠ .text) :
    readValues ⟨.little, headerEntries field title false, blockName format,
        body field format false⟩ field.values.length =
      .ok ((wholeValues field).map (returned format) ++ behind format (loose field)) := by
  have few := loose_le_two usable
  cases format with
  | text => exact absurd rfl binary
  | binary4 =>
    have body : body field .binary4 false = (single.check ::
        (writtenCells field false).flatten).flatMap singleBytes ++ ending .binary4 :=
      List.append_assoc _ _ _
    have long : single.width * loose field ≤ (ending .binary4).length :=
      (Nat.mul_le_mul_left 4 few).trans (by decide)
    show readBinary single .little _ (FieldFile.body field .binary4 false) = _
    rw [body]
    exact readBinary_written usable fits (by decide) (by decide) length_singleBytes
      (by decide +kernel) long
  | binary8 =>
    have body : body field .binary8 false = (double.check ::
        (writtenCells field false).flatten).flatMap doubleBytes ++ ending .binary8 := body_eq
    have long : double.width * loose field ≤ (ending .binary8).length :=
      (Nat.mul_le_mul_left 8 few).trans (by decide)
    have same : (wholeValues field).map (returned .binary8) =
        (wholeValues field).map (decoded double doubleBytes) :=
      (List.map_id _).trans (decoded_doubles _).symm
    show readBinary double .little _ (FieldFile.body field .binary8 false) = _
    rw [body, same]
    exact readBinary_written usable fits (by decide) (by decide) Double.length_doubleBytes
      (by decide +kernel) long

/-- The data give the numbers that come back for the whole cells and what is read behind them. -/
theorem readValues_written (usable : field.Usable) (fits : 8 * field.values.length < 2 ^ 63)
    {values : List Float} :
    readValues ⟨.little, headerEntries field title false, blockName format,
        body field format false⟩ field.values.length = .ok values ↔
      (format = .text → loose field = 0) ∧
        values = (wholeValues field).map (returned format) ++ behind format (loose field) := by
  have count := length_whole field
  have finite : ∀ x ∈ wholeValues field, x.isFinite = true := fun x member =>
    usable.finite x (List.mem_of_mem_take member)
  by_cases text : format = .text
  · subst text
    have text : readValues ⟨.little, headerEntries field title false, blockName .text,
        body field .text false⟩ field.values.length =
          readText field.values.length (body field .text false) := rfl
    rw [text, readText_ok_iff, body_text, Utf8.decodeLossy_encode]
    simp only [readRows_whole usable, flatten_written usable, forall₂_digits finite]
    constructor
    · rintro ⟨-, _, rfl, enough, rfl⟩
      rw [List.length_map] at enough
      refine ⟨fun _ => by omega, ?_⟩
      rw [List.take_of_length_le (by rw [List.length_map]; omega)]
      exact (List.append_nil _).symm
    · rintro ⟨none, rfl⟩
      have none := none trivial
      refine ⟨fits, _, rfl, ?_, ?_⟩
      · rw [List.length_map]
        omega
      · rw [List.take_of_length_le (by rw [List.length_map]; omega)]
        exact List.append_nil _
  · rw [readValues_binary usable fits text, and_iff_right fun same => absurd same text]
    exact ⟨fun same => (Except.ok.inj same).symm, fun same => congrArg Except.ok same.symm⟩

/-- The numbers that are made of the bytes behind the data are finite. -/
theorem finite_behind {count : Nat} (few : count ≤ 2) :
    ∀ x ∈ behind format count, x.isFinite = true := by
  have finite : ∀ count ≤ 2, ∀ format ∈ [FieldFormat.text, .binary4, .binary8],
      ∀ x ∈ behind format count, Float.isFinite x = true := by decide +kernel
  exact finite count few format (by cases format <;> decide)

/-- As many numbers are read behind binary data as values are loose. -/
theorem length_behind (none : format = .text → loose field = 0) :
    (behind format (loose field)).length = loose field := by
  cases format with
  | text => exact (none rfl).symm
  | binary4 => exact length_readWords
  | binary8 => exact length_readWords

/-- Whether a file is read as a field of the same shape with values that are near to those that were
written. -/
def ReadsNear (field : Field Float) (title : String) (format : FieldFormat) : Prop :=
  ∃ found, read (write field title format false) = .ok found ∧ found.dim = field.dim ∧
    found.mesh.counts = field.mesh.counts ∧ List.Forall₂ Near found.values field.values

/-- Numbers that a format holds come back near to those that were written. -/
theorem near_returned {values : List Float} (finite : ∀ x ∈ values, x.isFinite = true)
    (holds : ∀ x ∈ values, Holds format x) :
    List.Forall₂ Near (values.map (returned format)) values := by
  rw [List.forall₂_map_left_iff, List.forall₂_same]
  exact fun x member => near_of_close (close_returned (finite x member) (holds x member))

/-- The whole cells are in front of the loose values. -/
theorem whole_append_loose (field : Field Float) :
    wholeValues field ++ looseValues field = field.values := List.take_append_drop _ _

section Formats

variable (meshUsable : field.mesh.validate = .ok ()) (usable : field.Usable)
  (oneLine : '\n' ∉ title.toList) (fits : 8 * field.values.length < 2 ^ 63)

include meshUsable usable oneLine fits

/-- A file is read exactly when its format holds the values of all whole cells, and no value of a text
is loose. -/
theorem read_write_format_iff {found : Field Float} :
    read (write field title format false) = .ok found ↔
      (∀ x ∈ wholeValues field, Holds format x) ∧ (format = .text → loose field = 0) ∧
        found = withValues field false
          ((wholeValues field).map (returned format) ++ behind format (loose field)) := by
  have finite : ∀ x ∈ wholeValues field, x.isFinite = true := fun x member =>
    usable.finite x (List.mem_of_mem_take member)
  have expected : field.mesh.bare.cellCount * writtenDim field false % 2 ^ 64 =
      field.values.length := usable.length.symm
  rw [read_header_ok_iff meshUsable usable (readHeader_write oneLine format), expected]
  simp only [readValues_written usable fits]
  constructor
  · rintro ⟨values, ⟨none, rfl⟩, rfl, accepted⟩
    refine ⟨fun x member => ?_, none, rfl⟩
    by_contra large
    have infinite := isFinite_returned (finite x member) large
    have number := accepted.finite _ (List.mem_append_left _ (List.mem_map_of_mem member))
    exact absurd (infinite.symm.trans number) Bool.false_ne_true
  · rintro ⟨holds, none, rfl⟩
    have length : ((wholeValues field).map (returned format) ++ behind format (loose field)).length =
        field.mesh.bare.cellCount * writtenDim field false % 2 ^ 64 := by
      rw [expected, List.length_append, List.length_map, length_behind none, length_whole]
    refine ⟨_, ⟨none, rfl⟩, rfl, (withValues_usable usable length).mpr fun x member => ?_⟩
    rcases List.mem_append.mp member with member | member
    · obtain ⟨z, inside, rfl⟩ := List.mem_map.mp member
      exact (close_returned (finite z inside) (holds z inside)).finite
    · exact finite_behind (loose_le_two usable) x member

/-- A file is read near to what was written exactly when its format holds the values of all whole
cells and the loose values are near to what is read behind the data. -/
theorem readsNear_iff : ReadsNear field title format ↔
    (∀ x ∈ wholeValues field, Holds format x) ∧
      List.Forall₂ Near (behind format (loose field)) (looseValues field) := by
  have finite : ∀ x ∈ wholeValues field, x.isFinite = true := fun x member =>
    usable.finite x (List.mem_of_mem_take member)
  have last : (looseValues field).length = loose field := by
    have count := length_whole field
    rw [← whole_append_loose field, List.length_append] at count
    omega
  constructor
  · rintro ⟨found, back, -, -, near⟩
    obtain ⟨holds, none, rfl⟩ :=
      (read_write_format_iff meshUsable usable oneLine fits).mp back
    refine ⟨holds, ?_⟩
    have near : List.Forall₂ Near ((wholeValues field).map (returned format) ++
        behind format (loose field)) field.values := near
    rw [← whole_append_loose field] at near
    have near := List.forall₂_drop_append _ _ _ near
    rwa [List.drop_left' (List.length_map _)] at near
  · rintro ⟨holds, near⟩
    have none (text : format = .text) : loose field = 0 := by
      rw [text] at near
      rw [← last, ← near.length_eq]
      rfl
    refine ⟨_, (read_write_format_iff meshUsable usable oneLine fits).mpr ⟨holds, none, rfl⟩,
      rfl, rfl, ?_⟩
    show List.Forall₂ Near ((wholeValues field).map (returned format) ++ _) field.values
    rw [← whole_append_loose field]
    exact List.rel_append (near_returned finite holds) near

end Formats

/-- A usable field on a usable mesh is read near to what was written, in any format, exactly when the
format holds the values of all whole cells and the loose values happen to be near to what is read behind
the data; so when the number of values on the mesh fits a word, exactly when it holds all values. A
field with a value in a whole cell that the format does not hold is written, but its file is refused.
The values must fit the memory. -/
theorem read_write_near_iff (field : Field Float) (title : String) (format : FieldFormat)
    (meshUsable : field.mesh.validate = .ok ()) (usable : field.validate = .ok ())
    (oneLine : '\n' ∉ title.toList) (fits : 8 * field.values.length < 2 ^ 63) :
    (ReadsNear field title format ↔ (∀ x ∈ wholeValues field, Holds format x) ∧
      List.Forall₂ Near (behind format (loose field)) (looseValues field)) ∧
    (field.mesh.count .x * field.mesh.count .y * field.mesh.count .z * field.dim < 2 ^ 64 →
      (ReadsNear field title format ↔ ∀ x ∈ field.values, Holds format x)) ∧
    ((∃ x ∈ wholeValues field, ¬Holds format x) →
      ∀ found, read (write field title format false) ≠ .ok found) := by
  have accepted : field.Usable := Field.validate_ok_iff.mp usable
  have exact : ReadsNear field title format ↔ _ := readsNear_iff meshUsable accepted oneLine fits
  refine ⟨exact, fun small => ?_, ?_⟩
  · have none : loose field = 0 := loose_of_fits accepted small
    have whole : wholeValues field = field.values := by
      unfold wholeValues
      rw [none, Nat.sub_zero, List.take_length]
    have rest : looseValues field = [] := by
      unfold looseValues
      rw [none, Nat.sub_zero, List.drop_length]
    have nothing : behind format 0 = [] := by cases format <;> rfl
    rw [exact, whole, rest, none, nothing, and_iff_left List.Forall₂.nil]
  · rintro ⟨x, member, large⟩ found back
    exact large (((read_write_format_iff meshUsable accepted oneLine fits).mp back).1 x member)

/-- A field with the greatest double in its only cell. -/
def greatest : Field Float where
  mesh := { region := ⟨⟨0, 0, 0⟩, ⟨1, 1, 1⟩⟩, cell := ⟨1, 1, 1⟩ }
  dim := 1
  values := [1.7976931348623157e308]

/-- Only a file with eight bytes holds the greatest double. -/
theorem holds_greatest (format : FieldFormat) :
    Holds format 1.7976931348623157e308 ↔ format = .binary8 := by
  have number : (Magnitude.ofFloat 1.7976931348623157e308).value =
      (2 ^ 53 - 1 : ℕ) * 2 ^ (971 : ℤ) := by
    have parts : Magnitude.ofFloat 1.7976931348623157e308 = ⟨2 ^ 53 - 1, 971, false⟩ := by
      decide +kernel
    rw [parts]
    rfl
  have limits (tens twos n : ℕ) (less : 17976931348623155 * 10 ^ tens ≤ n * 2 ^ twos) :
      17976931348623155 * (10 : ℚ) ^ tens ≤ n * 2 ^ (twos : ℤ) := by
    rw [zpow_natCast]
    exact_mod_cast less
  cases format with
  | text =>
    refine iff_of_false (not_lt.mpr ?_) (by decide)
    rw [number]
    exact limits 292 971 _ (by decide +kernel)
  | binary4 =>
    refine iff_of_false (not_lt.mpr ?_) (by decide)
    rw [number]
    unfold Single.limit
    gcongr <;> norm_num
  | binary8 => exact iff_of_true trivial rfl

/-- The greatest double is written in every format and read from eight bytes only. -/
theorem greatest_refused :
    greatest.mesh.validate = .ok () ∧ greatest.validate = .ok () ∧
      (∀ found, read (write greatest "m" .text false) ≠ .ok found) ∧
      (∀ found, read (write greatest "m" .binary4 false) ≠ .ok found) ∧
      ReadsNear greatest "m" .binary8 := by
  have meshUsable : greatest.mesh.validate = .ok () := Result.ok_of_toBool (by decide)
  have usable : greatest.validate = .ok () := Result.ok_of_toBool (by decide +kernel)
  have whole : wholeValues greatest = [1.7976931348623157e308] := rfl
  have result (format : FieldFormat) := read_write_near_iff greatest "m" format meshUsable usable
    (by decide) (by decide)
  have refused (format : FieldFormat) (other : format ≠ .binary8) :
      ∀ found, read (write greatest "m" format false) ≠ .ok found :=
    (result format).2.2 ⟨_, whole ▸ List.mem_cons_self, mt (holds_greatest format).mp other⟩
  refine ⟨meshUsable, usable, refused .text (by decide), refused .binary4 (by decide), ?_⟩
  exact ((result .binary8).2.1 (by decide +kernel)).mpr fun _ _ => trivial

end Micromag.FieldFile
