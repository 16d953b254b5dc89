import Micromag.Proofs.Field.File.RoundTrip
import Micromag.Proofs.Text.Words

/-!
# Text data

The numbers of text data are its words, line by line, up to the line that ends the data. A number is
written as a word of its own, so that the words of the text that is written are the texts of the
numbers in order.
-/

namespace Micromag.FieldFile

open Text

/-- The number of a word of text data. -/
def readWord (word : List Char) : Except ReadFault Float :=
  match readFloat? word with
  | some x => .ok x
  | none => .error (.unusable "data" (String.ofList word))

/-- A word is read when it is the text of a number. -/
theorem readWord_ok_iff {word : List Char} {x : Float} :
    readWord word = .ok x ↔ readFloat? word = some x := by
  unfold readWord
  cases readFloat? word with
  | none => exact ⟨(nomatch ·), (nomatch ·)⟩
  | some y => exact ⟨fun same => by rw [Except.ok.inj same], fun same => by rw [Option.some.inj same]⟩

variable {text rest : List Char} {lines others : List (List Char)} {all : List Float}

/-- Only the blanks at the ends of lines may differ. -/
theorem readRows_congr (same : List.Forall₂ (fun a b => trim a = trim b) lines others) :
    readRows lines = readRows others := by
  induction same with
  | nil => rfl
  | cons head _ ih => simp only [readRows, head, ih]

/-- An empty line at the end holds no numbers. -/
theorem readRows_append_empty : readRows (lines ++ [[]]) = readRows lines := by
  induction lines with
  | nil => rfl
  | cons line others ih => simp only [List.cons_append, readRows, ih]

/-- The numbers of a text are those of the pieces between its line feeds. -/
theorem readRows_lines : readRows (Text.lines text) = readRows (splitOn '\n' text) := by
  have noReturn (line : List Char) : trim (dropReturn line) = trim line := by
    unfold dropReturn
    split
    · rename_i last
      have blank : isBlank '\r' = true := by decide
      have split : line = line.dropLast ++ ['\r'] := (List.dropLast_append_getLast? _ last).symm
      rw [← trim_trimEnd line]
      conv_rhs => rw [split]
      unfold trimEnd
      rw [List.reverse_append]
      change trim line.dropLast =
        trim (('\r' :: line.dropLast.reverse).dropWhile isBlank).reverse
      rw [List.dropWhile_cons_of_pos blank]
      exact (trim_trimEnd line.dropLast).symm
    · rfl
  have pieces : splitOn '\n' text ≠ [] := by
    rw [splitOn_eq]
    exact List.splitOnP_ne_nil _ text
  obtain ⟨front, last, parts⟩ := (List.eq_nil_or_concat _).resolve_left pieces
  rw [List.concat_eq_append] at parts
  unfold Text.lines
  rw [parts]
  dsimp only
  rw [List.dropLast_concat, List.getLast?_concat, Option.getD_some]
  have fronts : List.Forall₂ (fun a b => trim a = trim b) (front.map dropReturn) front := by
    rw [List.forall₂_map_left_iff]
    exact List.forall₂_same.mpr fun line _ => noReturn line
  by_cases empty : last.isEmpty = true
  · rw [if_pos empty, List.append_nil, List.isEmpty_iff.mp empty, readRows_append_empty]
    exact readRows_congr fronts
  · rw [if_neg empty]
    exact readRows_congr (List.rel_append fronts (.cons rfl .nil))

/-- Lines without a comment are read word by word. -/
theorem readRows_append_ok_iff (plain : ∀ line ∈ lines, '#' ∉ line) :
    readRows (lines ++ others) = .ok all ↔
      ∃ front back, (lines.flatMap words).mapM readWord = .ok front ∧
        readRows others = .ok back ∧ all = front ++ back := by
  induction lines generalizing all with
  | nil =>
    constructor
    · intro read
      exact ⟨[], all, rfl, read, rfl⟩
    · rintro ⟨front, back, none, read, rfl⟩
      rw [← Except.ok.inj none]
      exact read
  | cons line more ih =>
    obtain ⟨first, further⟩ := List.forall_mem_cons.mp plain
    have row : readRows (line :: (more ++ others)) =
        (words line).mapM readWord >>= fun row =>
          readRows (more ++ others) >>= fun rest => pure (row ++ rest) := by
      rw [readRows]
      split
      · rename_i content comment
        exact absurd (mem_of_mem_trim (comment ▸ List.mem_cons_self)) first
      · rw [← words_trim line]
        rfl
    rw [List.cons_append, row, List.flatMap_cons, Result.bind_ok]
    constructor
    · rintro ⟨values, here, read⟩
      obtain ⟨rest, there, same⟩ := Result.bind_ok.mp read
      obtain ⟨front, back, before, behind, rfl⟩ := (ih further).mp there
      refine ⟨values ++ front, back, ?_, behind, ?_⟩
      · rw [List.mapM_append, here, before]
        rfl
      · rw [← Except.ok.inj same, List.append_assoc]
    · rintro ⟨front, back, before, behind, rfl⟩
      rw [List.mapM_append] at before
      obtain ⟨values, here, before⟩ := Result.bind_ok.mp before
      obtain ⟨rest, there, same⟩ := Result.bind_ok.mp before
      refine ⟨values, here, Result.bind_ok.mpr ⟨rest ++ back, ?_, ?_⟩⟩
      · exact (ih further).mpr ⟨rest, back, there, behind, rfl⟩
      · rw [← Except.ok.inj same, List.append_assoc]
        rfl

/-- Text without a comment is read word by word. -/
theorem readRows_words (plain : '#' ∉ text) :
    readRows (Text.lines text) = .ok all ↔ (words text).mapM readWord = .ok all := by
  have pieces : ∀ line ∈ splitOn '\n' text, '#' ∉ line := by
    intro line member inside
    rw [splitOn_eq] at member
    exact plain (subset_of_mem_splitOnP member inside)
  have split : readRows (splitOn '\n' text ++ []) = .ok all ↔ _ := readRows_append_ok_iff pieces
  rw [List.append_nil, ← words_eq_flatMap_splitOn] at split
  rw [readRows_lines, split]
  constructor
  · rintro ⟨front, back, before, behind, rfl⟩
    rw [← Except.ok.inj behind, List.append_nil]
    exact before
  · intro before
    exact ⟨all, [], before, rfl, (List.append_nil all).symm⟩

/-- What holds no numbers does not matter behind a text. -/
theorem readRows_append_words (plain : '#' ∉ text)
    (nothing : readRows (splitOn '\n' rest) = .ok []) :
    readRows (Text.lines (text ++ '\n' :: rest)) = .ok all ↔
      (words text).mapM readWord = .ok all := by
  have pieces : ∀ line ∈ splitOn '\n' text, '#' ∉ line := by
    intro line member inside
    rw [splitOn_eq] at member
    exact plain (subset_of_mem_splitOnP member inside)
  rw [readRows_lines, splitOn_append_cons, readRows_append_ok_iff pieces,
    ← words_eq_flatMap_splitOn]
  constructor
  · rintro ⟨front, back, before, behind, rfl⟩
    rw [← Except.ok.inj (nothing.symm.trans behind), List.append_nil]
    exact before
  · intro before
    exact ⟨all, [], before, nothing, (List.append_nil all).symm⟩

/-- The numbers of text data, as many as are expected, for which there must be addresses. -/
theorem readText_ok_iff {expected : Nat} {data : List UInt8} {values : List Float} :
    readText expected data = .ok values ↔
      8 * expected < 2 ^ 63 ∧ ∃ all, readRows (Text.lines (Utf8.decodeLossy data)) = .ok all ∧
        expected ≤ all.length ∧ values = all.take expected := by
  unfold readText
  by_cases many : 2 ^ 63 ≤ 8 * expected
  · rw [if_pos many]
    exact ⟨(nomatch ·), fun ⟨few, _⟩ => by omega⟩
  rw [if_neg many]
  change (readRows _ >>= fun all => if all.length < expected then _ else _) = _ ↔ _
  rw [Result.bind_ok]
  constructor
  · rintro ⟨all, read, some⟩
    by_cases short : all.length < expected
    · rw [if_pos short] at some
      cases some
    · rw [if_neg short] at some
      exact ⟨by omega, all, read, by omega, (Except.ok.inj some).symm⟩
  · rintro ⟨-, all, read, enough, rfl⟩
    refine ⟨all, read, ?_⟩
    rw [if_neg (by omega)]
    rfl

/-! ## The text that is written -/

/-- The text of a number in text data. -/
def digits (x : Float) : List Char := (sixteenDigits x).toList

/-- The text of a row of numbers. -/
def rowText (cell : List Float) : List Char :=
  (String.intercalate " " (cell.map sixteenDigits) ++ "\n").toList

variable {field : Field Float} {extended : Bool}

/-- The text of all rows. -/
def dataText (field : Field Float) (extended : Bool) : List Char :=
  (writtenCells field extended).flatMap rowText

/-- The lines behind text data. -/
def footerText : List Char := (joinLines ["# End: Data Text", "# End: Segment"]).toList

/-- Text data are the text of the rows and the lines behind it. -/
theorem body_text : body field .text extended = Utf8.encode (dataText field extended ++ footerText) := by
  have rows : (joinLines ((writtenCells field extended).map fun cell =>
      String.intercalate " " (cell.map sixteenDigits))).toList = dataText field extended := by
    unfold joinLines dataText
    rw [String.toList_join, List.flatMap_map, List.flatMap_map]
    rfl
  unfold body dataBytes Utf8.ofString
  dsimp only
  rw [rows, Utf8.encode_append]
  rfl

/-- The text of a number is not empty. -/
theorem digits_ne_nil (x : Float) : digits x ≠ [] := sixteenDigits_ne_nil x

/-- The text of a number has the characters of number text. -/
theorem digits_mem {x : Float} : ∀ c ∈ digits x, c ∈ numberChars := fun _ => sixteenDigits_mem

/-- The text of a number is one word. -/
theorem words_digits (x : Float) : words (digits x) = [digits x] :=
  words_of_visible (digits_ne_nil x) fun c member => isBlank_numberChars (digits_mem c member)

/-- The characters of text data. -/
def dataChars : List Char := ' ' :: '\n' :: numberChars

/-- A text up to its last number: numbers, each with a blank behind it, in front of one more. -/
structure Front (front : List Char) (numbers : List Float) : Prop where
  /-- The words in front of any text are those of the numbers. -/
  words : ∀ rest, words (front ++ rest) = numbers.map digits ++ words rest
  /-- There are no other characters than those of numbers and blanks. -/
  chars : ∀ c ∈ front, c ∈ dataChars

namespace Front

variable {front more : List Char} {numbers further : List Float}

/-- Nothing stands in front of the first number. -/
theorem empty : Front [] [] := ⟨fun _ => rfl, fun _ member => absurd member List.not_mem_nil⟩

/-- A number and a blank stand in front of the next number. -/
theorem single (x : Float) {c : Char} (blank : c = ' ' ∨ c = '\n') :
    Front (digits x ++ [c]) [x] where
  words rest := by
    have separates : isBlank c = true := by
      rcases blank with rfl | rfl <;> decide
    rw [List.append_assoc, List.singleton_append, words_append_blank separates, words_digits]
    rfl
  chars d member := by
    rcases List.mem_append.mp member with member | member
    · exact List.mem_cons_of_mem _ (List.mem_cons_of_mem _ (digits_mem d member))
    · rw [List.mem_singleton.mp member]
      rcases blank with rfl | rfl <;> decide

/-- What stands in front of numbers follows what stands in front of others. -/
theorem append (first : Front front numbers) (second : Front more further) :
    Front (front ++ more) (numbers ++ further) where
  words rest := by
    rw [List.append_assoc, first.words, second.words, List.map_append, List.append_assoc]
  chars c member := by
    rcases List.mem_append.mp member with member | member
    · exact first.chars c member
    · exact second.chars c member

end Front

/-- A row ends with its last number and a line feed. -/
theorem rowText_concat (numbers : List Float) (x : Float) :
    ∃ front, rowText (numbers ++ [x]) = front ++ (digits x ++ ['\n']) ∧ Front front numbers := by
  induction numbers with
  | nil =>
    refine ⟨[], ?_, .empty⟩
    unfold rowText
    rw [List.nil_append, List.map_singleton, String.intercalate_singleton, String.toList_append]
    rfl
  | cons first others ih =>
    obtain ⟨front, text, known⟩ := ih
    obtain ⟨second, more, parts⟩ := List.exists_cons_of_ne_nil
      (List.concat_ne_nil x others)
    refine ⟨digits first ++ [' '] ++ front, ?_, (Front.single first (.inl rfl)).append known⟩
    rw [List.append_assoc, List.append_assoc, ← text, List.cons_append, parts]
    unfold rowText
    rw [List.map_cons, List.map_cons, String.intercalate_cons_cons, String.toList_append,
      String.toList_append, String.toList_append, String.toList_append]
    simp only [List.append_assoc]
    rfl

/-- Whole rows stand in front of the next row. -/
theorem Front.rows {cells : List (List Float)} (filled : ∀ cell ∈ cells, cell ≠ []) :
    Front (cells.flatMap rowText) cells.flatten := by
  induction cells with
  | nil => exact .empty
  | cons cell others ih =>
    obtain ⟨some, further⟩ := List.forall_mem_cons.mp filled
    obtain ⟨numbers, x, parts⟩ := (List.eq_nil_or_concat cell).resolve_left some
    rw [List.concat_eq_append] at parts
    obtain ⟨front, text, known⟩ := rowText_concat numbers x
    have row : Front (rowText cell) cell := by
      rw [parts, text]
      exact known.append (.single x (.inr rfl))
    rw [List.flatMap_cons, List.flatten_cons]
    exact row.append (ih further)

/-- The rows end with the last number and a line feed. -/
theorem rows_concat {cells : List (List Float)} (filled : ∀ cell ∈ cells, cell ≠ [])
    {numbers : List Float} {x : Float} (last : cells.flatten = numbers ++ [x]) :
    ∃ front, cells.flatMap rowText = front ++ (digits x ++ ['\n']) ∧ Front front numbers := by
  have some : cells ≠ [] := by
    rintro rfl
    exact List.concat_ne_nil x numbers last.symm
  obtain ⟨before, cell, rfl⟩ : ∃ before cell, cells = before ++ [cell] := by
    obtain ⟨before, cell, parts⟩ := (List.eq_nil_or_concat cells).resolve_left some
    exact ⟨before, cell, by rw [parts, List.concat_eq_append]⟩
  obtain ⟨within, y, parts⟩ := (List.eq_nil_or_concat cell).resolve_left
    (filled cell (List.mem_append_right _ List.mem_cons_self))
  rw [List.concat_eq_append] at parts
  have others := Front.rows fun cell member => filled cell (List.mem_append_left _ member)
  obtain ⟨front, text, known⟩ := rowText_concat within y
  rw [parts, List.flatten_concat, ← List.append_assoc] at last
  obtain ⟨rfl, same⟩ := List.append_inj' last rfl
  refine ⟨before.flatMap rowText ++ front, ?_, others.append known⟩
  rw [List.flatMap_append, List.flatMap_singleton, parts, text, List.append_assoc,
    (List.cons.inj same).1]

/-- Nothing behind text data is a number, wherever it is cut off. -/
theorem readRows_footer {part : List Char} (cut : part <+: footerText) :
    readRows (splitOn '\n' part) = .ok [] := by
  have tried : (footerText.inits.all fun part =>
      decide ((readRows (splitOn '\n' part)).toOption = some [])) = true := by decide
  apply Result.ok_of_toOption
  exact of_decide_eq_true (List.all_eq_true.mp tried part ((List.mem_inits part _).mpr cut))

/-- Text data and what follows them are ASCII text without comments in the data. -/
theorem dataChars_plain : dataChars.all (fun c => decide (c.toNat < 128 ∧ c ≠ '#')) = true := by
  decide

end Micromag.FieldFile
