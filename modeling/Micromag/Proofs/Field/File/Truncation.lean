import Micromag.Proofs.Field.File.Cut
import Micromag.Proofs.Field.File.RoundTrip
import Micromag.Proofs.Field.File.TextData

/-!
# Field files that were cut off

A file that ends inside its header is refused, and binary data are counted before they are read.
Text data are not: what is left of the last number is a number of its own. A file whose text is cut
off inside its last number is therefore read with another value in this place, if what is left can
be read at all.
-/

namespace Micromag.FieldFile

open Text

/-! ## Binary data -/

/-- Binary data that are read although their end is missing are read as the whole. -/
theorem readBinary_cut {encoding : Encoding} {order : ByteOrder} {expected : Nat}
    {part data : List UInt8} {values : List Float} (cut : part <+: data)
    (read : readBinary encoding order expected part = .ok values) :
    readBinary encoding order expected data = .ok values := by
  obtain ⟨room, enough, right, rfl⟩ := readBinary_ok_iff.mp read
  obtain ⟨missing, rfl⟩ := cut
  have check : foundCheck encoding order (part ++ missing) = foundCheck encoding order part := by
    unfold foundCheck
    rw [List.take_append_of_le_length (by omega)]
  have values : (part ++ missing).drop encoding.width = part.drop encoding.width ++ missing :=
    List.drop_append_of_le_length (by omega)
  have whole : encoding.width * ((encoding.size expected - encoding.width) / encoding.width) ≤
      (part.drop encoding.width).length := by
    have product := Nat.mul_div_le (encoding.size expected - encoding.width) encoding.width
    rw [List.length_drop]
    omega
  rw [readBinary_ok_iff, check, values]
  refine ⟨room, ?_, right, ?_⟩
  · rw [List.length_append]
    omega
  · conv_rhs => rw [← readWords_take whole]
    rw [List.take_left]

/-! ## Text data -/

variable {field : Field Float} {title : String} {extended : Bool}

/-- Every cell is written with a number. -/
theorem writtenCells_filled (extended : Bool) (usable : field.Usable) :
    ∀ cell ∈ writtenCells field extended, cell ≠ [] := by
  intro cell member
  obtain ⟨components, inside, rfl⟩ := List.mem_map.mp member
  have length : components.length = field.dim := Field.length_of_mem_chunksFrom inside
  have positive := usable.components
  unfold writtenCell
  split
  · exact List.ne_nil_of_length_pos (by rw [List.length_take, List.length_append]; simp)
  · exact List.ne_nil_of_length_pos (by rw [List.length_take]; omega)

/-- At most three numbers are written for a value. -/
theorem length_written_le (extended : Bool) (usable : field.Usable) :
    (writtenCells field extended).flatten.length ≤ 3 * field.values.length := by
  rcases writtenDim_cases field extended with same | ⟨rfl, scalar⟩
  · rw [flatten_writtenCells usable same, List.length_take]
    omega
  · rw [flatten_writtenCells_extended scalar, List.length_flatMap]
    simp [Nat.mul_comm]

/-- The bytes behind the last number of text data. -/
def textEnd : List UInt8 := Utf8.encode ('\n' :: footerText)

/-- A file of text that ends inside the text of its last number. -/
structure CutInside (field : Field Float) (title : String) (extended : Bool) (part : List UInt8)
    (numbers : List Float) (x : Float) (kept : List Char) : Prop where
  /-- The last number and the numbers in front of it. -/
  numbers : (writtenCells field extended).flatten = numbers ++ [x]
  /-- A piece of the text of the last number is missing, and all that is behind it. -/
  missing : ∃ missing, missing ≠ [] ∧ digits x = kept ++ missing ∧
    part ++ (Utf8.encode missing ++ textEnd) = write field title .text extended

/-- Text data have the text of the numbers in front of the last one, the last number and the lines
behind it. -/
theorem exists_data_front (usable : field.Usable) {numbers : List Float} {x : Float}
    (last : (writtenCells field extended).flatten = numbers ++ [x]) :
    ∃ front, dataText field extended ++ footerText = front ++ (digits x ++ '\n' :: footerText) ∧
      Front front numbers := by
  obtain ⟨front, text, known⟩ := rows_concat (writtenCells_filled extended usable) last
  refine ⟨front, ?_, known⟩
  unfold dataText
  rw [text, List.append_assoc, List.append_assoc]
  rfl

/-- Without numbers there is no text. -/
theorem dataText_of_none (usable : field.Usable)
    (none : (writtenCells field extended).flatten = []) : dataText field extended = [] := by
  have cells : writtenCells field extended = [] :=
    List.eq_nil_iff_forall_not_mem.mpr fun cell member =>
      writtenCells_filled extended usable cell member (List.flatten_eq_nil_iff.mp none cell member)
  unfold dataText
  rw [cells]
  rfl

/-- Text data and the lines behind it are ASCII text. -/
theorem ascii_data (usable : field.Usable) :
    ∀ c ∈ dataText field extended ++ footerText, c.toNat < 128 := by
  have footer : footerText.all (fun c => decide (c.toNat < 128)) = true := by decide
  have rows := Front.rows (writtenCells_filled extended usable)
  intro c member
  rcases List.mem_append.mp member with member | member
  · exact (of_decide_eq_true (List.all_eq_true.mp dataChars_plain c (rows.chars c member))).1
  · exact of_decide_eq_true (List.all_eq_true.mp footer c member)

variable {front kept : List Char} {numbers others : List Float} {all : List Float}

/-- A text of numbers and blanks holds no comment. -/
theorem Front.plain (known : Front front numbers) : '#' ∉ front := fun member =>
  (of_decide_eq_true (List.all_eq_true.mp dataChars_plain '#' (known.chars '#' member))).2 rfl

/-- The text of a number holds no comment. -/
theorem digits_plain (x : Float) : '#' ∉ digits x := by
  intro member
  exact absurd (digits_mem '#' member) (by decide)

/-- The words of numbers are read one by one. -/
theorem mapM_digits_ok_iff : (numbers.map digits).mapM readWord = .ok others ↔
    List.Forall₂ (fun z r => readFloat? (digits z) = some r) numbers others := by
  rw [Result.mapM_ok, List.forall₂_map_left_iff]
  simp only [readWord_ok_iff]

/-- What is read of numbers and one more word. -/
theorem readRows_front (known : Front front numbers) (filled : kept ≠ [])
    (visible : ∀ c ∈ kept, c ∈ numberChars) (all : List Float) :
    ((words (front ++ kept)).mapM readWord = .ok all) ↔ ∃ others y,
      List.Forall₂ (fun z r => readFloat? (digits z) = some r) numbers others ∧
        readFloat? kept = some y ∧ all = others ++ [y] := by
  have word : words kept = [kept] :=
    words_of_visible filled fun c member => isBlank_numberChars (visible c member)
  rw [known.words, word, Result.mapM_concat_ok]
  simp only [mapM_digits_ok_iff, readWord_ok_iff]

/-- What is read of numbers, the last number and lines without numbers behind it. -/
theorem readRows_ended (known : Front front numbers) (x : Float) {part : List Char}
    (cut : part <+: footerText) (all : List Float) :
    readRows (Text.lines (front ++ digits x ++ '\n' :: part)) = .ok all ↔ ∃ others y,
      List.Forall₂ (fun z r => readFloat? (digits z) = some r) numbers others ∧
        readFloat? (digits x) = some y ∧ all = others ++ [y] := by
  have plain : '#' ∉ front ++ digits x := by
    rw [List.mem_append, not_or]
    exact ⟨known.plain, digits_plain x⟩
  rw [readRows_append_words plain (readRows_footer cut),
    readRows_front known (digits_ne_nil x) digits_mem]

/-- Text data that are cut off and still hold a number for the last one are read as the whole, or
end inside the text of the last number. -/
theorem readRows_cut (known : Front front numbers) {x : Float} {text : List Char}
    (cut : text <+: front ++ (digits x ++ '\n' :: footerText))
    (read : readRows (Text.lines text) = .ok all) (enough : numbers.length < all.length) :
    ∃ kept others y, (kept = digits x ∨
        text = front ++ kept ∧ ∃ missing, missing ≠ [] ∧ digits x = kept ++ missing) ∧
      List.Forall₂ (fun z r => readFloat? (digits z) = some r) numbers others ∧
      readFloat? kept = some y ∧ all = others ++ [y] := by
  -- words of the numbers alone are too few
  have few {text : List Char} (plain : '#' ∉ text) (words : (words text).length ≤ numbers.length)
      (read : readRows (Text.lines text) = .ok all) : False := by
    have length := (Result.mapM_ok.mp ((readRows_words plain).mp read)).length_eq
    omega
  rcases prefix_append cut with inside | ⟨rest, rfl, behind⟩
  · obtain ⟨missing, whole⟩ := inside
    have plain : '#' ∉ text := fun member =>
      known.plain (whole ▸ List.mem_append_left missing member)
    have bound : (words text).length ≤ numbers.length := by
      have shorter := length_words_append text missing
      have all := known.words []
      rw [List.append_nil] at all
      rw [whole, all, List.length_append, List.length_map] at shorter
      exact shorter
    exact (few plain bound read).elim
  rcases prefix_append behind with ⟨missing, split⟩ | ⟨ending, rfl, tail⟩
  · have plain : '#' ∉ front ++ rest := by
      rw [List.mem_append, not_or]
      exact ⟨known.plain, fun member =>
        digits_plain x (split ▸ List.mem_append_left missing member)⟩
    by_cases nothing : rest = []
    · have bound : (words (front ++ rest)).length ≤ numbers.length := by
        rw [nothing, known.words, List.length_append, List.length_map]
        exact Nat.le_refl _
      exact (few plain bound read).elim
    · have visible : ∀ c ∈ rest, c ∈ numberChars := fun c member =>
        digits_mem c (split ▸ List.mem_append_left missing member)
      have values := (readRows_words plain).mp read
      rw [readRows_front known nothing visible] at values
      obtain ⟨others, y, numbers, last, rfl⟩ := values
      by_cases complete : missing = []
      · rw [complete, List.append_nil] at split
        exact ⟨rest, others, y, .inl split, numbers, last, rfl⟩
      · exact ⟨rest, others, y, .inr ⟨rfl, missing, complete, split.symm⟩, numbers, last, rfl⟩
  · have whole : ∃ others y,
        List.Forall₂ (fun z r => readFloat? (digits z) = some r) numbers others ∧
          readFloat? (digits x) = some y ∧ all = others ++ [y] := by
      rcases List.prefix_cons_iff.mp tail with rfl | ⟨part, rfl, cutFooter⟩
      · have plain : '#' ∉ front ++ digits x := by
          rw [List.mem_append, not_or]
          exact ⟨known.plain, digits_plain x⟩
        rw [List.append_nil, readRows_words plain,
          readRows_front known (digits_ne_nil x) digits_mem] at read
        exact read
      · rw [← List.append_assoc] at read
        exact (readRows_ended known x cutFooter all).mp read
    obtain ⟨others, y, numbers, last, same⟩ := whole
    exact ⟨digits x, others, y, .inl rfl, numbers, last, same⟩

/-- The reader expects the numbers that were written and one for each loose value. -/
theorem expected_written (extended : Bool) (usable : field.Usable)
    (fits : 8 * field.values.length < 2 ^ 63) :
    field.mesh.bare.cellCount * writtenDim field extended % 2 ^ 64 =
      (writtenCells field extended).flatten.length + loose field := by
  have bound := length_written_le extended usable
  exact expected_eq usable (by omega)

/-- Whether numbers that were read make a usable field depends on the numbers only. -/
theorem withValues_usable (usable : field.Usable) {values : List Float}
    (length : values.length = field.mesh.bare.cellCount * writtenDim field extended % 2 ^ 64) :
    (withValues field extended values).Usable ↔ ∀ r ∈ values, r.isFinite = true := by
  constructor
  · intro accepted
    exact accepted.finite
  · intro finite
    refine ⟨?_, length, finite⟩
    change writtenDim field extended = 1 ∨ writtenDim field extended = 3
    unfold writtenDim
    split
    · exact .inr rfl
    · exact usable.components

/-! ## The exact condition -/

variable {format : FieldFormat} {part : List UInt8} {found : Field Float}

/-- A file is read when its header is, and when its data give the values of a usable field. -/
theorem read_header_ok_iff (meshUsable : field.mesh.validate = .ok ()) (usable : field.Usable)
    {data : List UInt8} (header : readHeader (linesWithRest part) =
      .ok ⟨.little, headerEntries field title extended, blockName format, data⟩) :
    read part = .ok found ↔
      ∃ values, readValues ⟨.little, headerEntries field title extended, blockName format, data⟩
          (field.mesh.bare.cellCount * writtenDim field extended % 2 ^ 64) = .ok values ∧
        found = withValues field extended values ∧ found.Usable := by
  have entries : Header.entries ⟨.little, headerEntries field title extended, blockName format, data⟩ =
      headerEntries field title extended := rfl
  have head {header : Header} (same : readHeader (linesWithRest part) = .ok header) :
      read part = readField header := by
    unfold FieldFile.read
    rw [same]
    rfl
  rw [head header]
  exact readField_ok_iff meshUsable usable (meshReadsBack _) entries

/-- The numbers of a whole file of text. -/
theorem readText_whole (usable : field.Usable) {numbers : List Float} {x : Float}
    (last : (writtenCells field extended).flatten = numbers ++ [x]) {expected : Nat}
    {values : List Float} :
    readText expected (body field .text extended) = .ok values ↔
      8 * expected < 2 ^ 63 ∧ ∃ others y,
        List.Forall₂ (fun z r => readFloat? (digits z) = some r) numbers others ∧
          readFloat? (digits x) = some y ∧ expected ≤ (others ++ [y]).length ∧
          values = (others ++ [y]).take expected := by
  obtain ⟨front, text, known⟩ := exists_data_front usable last
  rw [readText_ok_iff, body_text, Utf8.decodeLossy_encode, text, ← List.append_assoc]
  simp only [readRows_ended known x (List.prefix_refl _)]
  constructor
  · rintro ⟨few, all, ⟨others, y, front, final, rfl⟩, enough, same⟩
    exact ⟨few, others, y, front, final, enough, same⟩
  · rintro ⟨few, others, y, front, final, enough, same⟩
    exact ⟨few, _, ⟨others, y, front, final, rfl⟩, enough, same⟩

/-- A file of text that is cut off is read as the whole, or it ends inside the text of its last
number. -/
theorem read_text_cut (meshUsable : field.mesh.validate = .ok ()) (usable : field.Usable)
    (oneLine : '\n' ∉ title.toList) (fits : 8 * field.values.length < 2 ^ 63)
    (cut : part <+: write field title .text extended) (accepted : read part = .ok found)
    (differs : read (write field title .text extended) ≠ .ok found) :
    loose field = 0 ∧ 8 * (writtenCells field extended).flatten.length < 2 ^ 63 ∧
      ∃ numbers x kept others y,
      CutInside field title extended part numbers x kept ∧
      List.Forall₂ (fun z r => readFloat? (digits z) = some r) numbers others ∧
      readFloat? kept = some y ∧ readFloat? (digits x) ≠ some y ∧
      (∀ r ∈ others ++ [y], r.isFinite = true) ∧
      found = withValues field extended (others ++ [y]) := by
  rcases read_cut oneLine cut with refused | ⟨data, cutData, place, header⟩
  · exact absurd accepted (refused found)
  obtain ⟨values, given, rfl, valid⟩ := (read_header_ok_iff meshUsable usable header).mp accepted
  have count := expected_written extended usable fits
  have text : readText (field.mesh.bare.cellCount * writtenDim field extended % 2 ^ 64) data =
      .ok values := given
  -- the whole data do not give the same values
  have other : readText (field.mesh.bare.cellCount * writtenDim field extended % 2 ^ 64)
      (body field .text extended) ≠ .ok values := fun same =>
    differs ((read_header_ok_iff meshUsable usable (readHeader_write oneLine .text)).mpr
      ⟨values, same, rfl, valid⟩)
  rw [count] at text other
  obtain ⟨few, all, rows, enough, rfl⟩ := readText_ok_iff.mp text
  rw [body_text] at cutData
  obtain ⟨shown, cutText, rfl⟩ := Utf8.exists_prefix_of_ascii (ascii_data usable) cutData
  rw [Utf8.decodeLossy_encode] at rows
  rcases List.eq_nil_or_concat (writtenCells field extended).flatten with none | ⟨numbers, x, last⟩
  · -- without numbers there is nothing that could be cut off
    have empty := dataText_of_none usable none
    rw [empty, List.nil_append] at cutText
    rw [readRows_lines, readRows_footer cutText] at rows
    refine absurd (readText_ok_iff.mpr ⟨few, [], ?_, ?_, ?_⟩) other
    · rw [body_text, empty, List.nil_append, Utf8.decodeLossy_encode, readRows_lines]
      exact readRows_footer (List.prefix_refl _)
    · rw [Except.ok.inj rows]
      exact enough
    · rw [Except.ok.inj rows]
  · rw [List.concat_eq_append] at last
    obtain ⟨front, whole, known⟩ := exists_data_front usable last
    have length : (writtenCells field extended).flatten.length = numbers.length + 1 := by
      rw [last, List.length_append]
      rfl
    rw [whole] at cutText
    obtain ⟨kept, others, y, spot, before, final, rfl⟩ :=
      readRows_cut known cutText rows (by omega)
    have values : (others ++ [y]).length = numbers.length + 1 := by
      rw [List.length_append, before.length_eq]
      rfl
    have tight : loose field = 0 := by omega
    rw [length, tight, Nat.add_zero, ← values, List.take_length] at other valid ⊢
    have unlike : readFloat? (digits x) ≠ some y := fun same =>
      other ((readText_whole usable last).mpr
        ⟨by omega, others, y, before, same, Nat.le_refl _, (List.take_length).symm⟩)
    rcases spot with rfl | ⟨rfl, missing, filled, split⟩
    · exact absurd final unlike
    · refine ⟨rfl, by omega, numbers, x, kept, others, y, ⟨last, missing, filled, split, ?_⟩, before, final,
        unlike, valid.finite, rfl⟩
      rcases place with nothing | same
      · -- a piece of a number is there, so that the data are not empty
        have shown : front ++ kept = [] := by
          rw [← Utf8.decodeLossy_encode (front ++ kept), nothing]
          rfl
        have noNumber : readFloat? [] = none := by decide
        rw [(List.append_eq_nil_iff.mp shown).2, noNumber] at final
        cases final
      · have rest : digits x ++ '\n' :: footerText = kept ++ (missing ++ '\n' :: footerText) := by
          rw [split, List.append_assoc]
        unfold write textEnd
        rw [same, body_text, whole, rest, ← List.append_assoc front, Utf8.encode_append (front ++ kept),
          Utf8.encode_append missing, List.append_assoc]

/-- A file of text that ends inside the text of its last number is read with what is left of it, if
that is a number. -/
theorem read_cutInside (meshUsable : field.mesh.validate = .ok ()) (usable : field.Usable)
    (oneLine : '\n' ∉ title.toList) (fits : 8 * field.values.length < 2 ^ 63)
    (tight : loose field = 0) (few : 8 * (writtenCells field extended).flatten.length < 2 ^ 63)
    {numbers others : List Float} {x y : Float} {kept : List Char}
    (cut : CutInside field title extended part numbers x kept)
    (before : List.Forall₂ (fun z r => readFloat? (digits z) = some r) numbers others)
    (final : readFloat? kept = some y) (unlike : readFloat? (digits x) ≠ some y)
    (finite : ∀ r ∈ others ++ [y], r.isFinite = true) :
    read part = .ok (withValues field extended (others ++ [y])) ∧
      read (write field title .text extended) ≠
        .ok (withValues field extended (others ++ [y])) := by
  obtain ⟨last, missing, filled, split, whole⟩ := cut
  obtain ⟨front, text, known⟩ := exists_data_front usable last
  have count := expected_written extended usable fits
  have length : (writtenCells field extended).flatten.length = (others ++ [y]).length := by
    rw [last, List.length_append, List.length_append, before.length_eq]
    rfl
  rw [tight, Nat.add_zero, length] at count
  rw [length] at few
  have kept_ne_nil : kept ≠ [] := by
    rintro rfl
    have noNumber : readFloat? [] = none := by decide
    rw [noNumber] at final
    cases final
  have visible : ∀ c ∈ kept, c ∈ numberChars := fun c member =>
    digits_mem c (split ▸ List.mem_append_left missing member)
  constructor
  · have place : part = Utf8.ofString (header field title .text extended) ++
        Utf8.encode (front ++ kept) := by
      have rest : digits x ++ '\n' :: footerText = kept ++ (missing ++ '\n' :: footerText) := by
        rw [split, List.append_assoc]
      have same : part ++ (Utf8.encode missing ++ textEnd) =
          Utf8.ofString (FieldFile.header field title .text extended) ++ Utf8.encode (front ++ kept) ++
            (Utf8.encode missing ++ textEnd) := by
        rw [whole, write, body_text, text, rest, ← List.append_assoc front,
          Utf8.encode_append (front ++ kept), Utf8.encode_append missing, List.append_assoc]
        rfl
      exact List.append_cancel_right same
    have plain : '#' ∉ front ++ kept := by
      rw [List.mem_append, not_or]
      exact ⟨known.plain, fun member =>
        digits_plain x (split ▸ List.mem_append_left missing member)⟩
    have values : readText (field.mesh.bare.cellCount * writtenDim field extended % 2 ^ 64)
        (Utf8.encode (front ++ kept)) = .ok (others ++ [y]) := by
      rw [count, readText_ok_iff, Utf8.decodeLossy_encode]
      refine ⟨few, others ++ [y], ?_, Nat.le_refl _, List.take_length.symm⟩
      rw [readRows_words plain, readRows_front known kept_ne_nil visible]
      exact ⟨others, y, before, final, rfl⟩
    have header : readHeader (linesWithRest (Utf8.ofString (header field title .text extended) ++
        Utf8.encode (front ++ kept))) = .ok ⟨.little, headerEntries field title extended,
          blockName .text, Utf8.encode (front ++ kept)⟩ := readHeader_header oneLine .text
    rw [← place] at header
    exact (read_header_ok_iff meshUsable usable header).mpr
      ⟨_, values, rfl, (withValues_usable usable count.symm).mpr finite⟩
  · intro same
    obtain ⟨values, given, equal, -⟩ := (read_header_ok_iff meshUsable usable
      (readHeader_write oneLine .text)).mp same
    have wholeText : readText (field.mesh.bare.cellCount * writtenDim field extended % 2 ^ 64)
        (body field .text extended) = .ok values := given
    rw [count, readText_whole usable last] at wholeText
    obtain ⟨-, theirs, z, numbers, final, enough, rfl⟩ := wholeText
    have sizes : (theirs ++ [z]).length = (others ++ [y]).length := by
      rw [List.length_append, List.length_append, ← before.length_eq, numbers.length_eq]
      rfl
    have values : others ++ [y] = theirs ++ [z] := by
      have taken := congrArg Field.values equal
      change others ++ [y] = (theirs ++ [z]).take (others ++ [y]).length at taken
      rw [← sizes, List.take_length] at taken
      exact taken
    obtain ⟨-, last⟩ := List.append_inj' values rfl
    rw [(List.cons.inj last).1] at unlike
    exact unlike final

/-- A usable field on a usable mesh is written, and the file is cut off somewhere. Whatever the form
of the data, the file is then refused or read as the whole, with one exception: text that ends
inside its last number is read with the number that is left, exactly when a number is left, it is
another one, and nothing else is refused. -/
theorem read_cut_iff (field : Field Float) (title : String) (format : FieldFormat)
    (extended : Bool) (meshUsable : field.mesh.validate = .ok ()) (usable : field.validate = .ok ())
    (oneLine : '\n' ∉ title.toList) (fits : 8 * field.values.length < 2 ^ 63) {part : List UInt8}
    (cut : part <+: write field title format extended) (found : Field Float) :
    (read part = .ok found ∧ read (write field title format extended) ≠ .ok found) ↔
      format = .text ∧ loose field = 0 ∧
        8 * (writtenCells field extended).flatten.length < 2 ^ 63 ∧
        ∃ numbers x kept others y, CutInside field title extended part numbers x kept ∧
          List.Forall₂ (fun z r => readFloat? (digits z) = some r) numbers others ∧
          readFloat? kept = some y ∧ readFloat? (digits x) ≠ some y ∧
          (∀ r ∈ others ++ [y], r.isFinite = true) ∧
          found = withValues field extended (others ++ [y]) := by
  have accepted : field.Usable := Field.validate_ok_iff.mp usable
  constructor
  · rintro ⟨read, differs⟩
    -- what is read of binary data is read of the whole, too
    have binary {encoding : Encoding} (other : ∀ data : List UInt8, ∀ expected, readValues
        ⟨.little, headerEntries field title extended, blockName format, data⟩ expected =
          readBinary encoding .little expected data) : False := by
      rcases read_cut oneLine cut with refused | ⟨data, cutData, -, header⟩
      · exact refused found read
      · obtain ⟨values, given, same, valid⟩ :=
          (read_header_ok_iff meshUsable accepted header).mp read
        rw [other] at given
        have whole := readBinary_cut cutData given
        rw [← other] at whole
        exact differs ((read_header_ok_iff meshUsable accepted
          (readHeader_write oneLine format)).mpr ⟨values, whole, same, valid⟩)
    cases format with
    | text => exact ⟨rfl, read_text_cut meshUsable accepted oneLine fits cut read differs⟩
    | binary4 => exact (binary fun data expected => rfl).elim
    | binary8 => exact (binary fun data expected => rfl).elim
  · rintro ⟨rfl, tight, few, numbers, x, kept, others, y, inside, before, final, unlike, finite, rfl⟩
    exact read_cutInside meshUsable accepted oneLine fits tight few inside before final unlike finite

/-- A field with the value eighty in its only cell. -/
def eighty : Field Float where
  mesh := { region := ⟨⟨0, 0, 0⟩, ⟨1, 1, 1⟩⟩, cell := ⟨1, 1, 1⟩ }
  dim := 1
  values := [80]

/-- A file of the value eighty that ends behind the first digit. -/
theorem eighty_cut :
    read (Utf8.ofString (header eighty "m" .text false) ++ Utf8.encode ['8']) =
        .ok (withValues eighty false [8]) ∧
      read (write eighty "m" .text false) ≠ .ok (withValues eighty false [8]) := by
  have meshUsable : eighty.mesh.validate = .ok () := Result.ok_of_toBool (by decide)
  have usable : eighty.validate = .ok () := Result.ok_of_toBool (by decide)
  have inside : CutInside eighty "m" false
      (Utf8.ofString (header eighty "m" .text false) ++ Utf8.encode ['8']) [] 80 ['8'] := by
    refine ⟨by decide, ".000000000000000e1".toList, by decide, by decide, ?_⟩
    rw [List.append_assoc]
    exact congrArg _ (by decide)
  have cut : Utf8.ofString (header eighty "m" .text false) ++ Utf8.encode ['8'] <+:
      write eighty "m" .text false := by
    obtain ⟨-, missing, -, -, whole⟩ := inside
    exact ⟨_, whole⟩
  exact (read_cut_iff eighty "m" .text false meshUsable usable (by decide) (by decide) cut _).mpr
    ⟨rfl, by decide, by decide, [], 80, ['8'], [], 8, inside, .nil, by decide, by decide,
      by decide, rfl⟩

end Micromag.FieldFile
