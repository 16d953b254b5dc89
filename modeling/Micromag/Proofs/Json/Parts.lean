import Micromag.Proofs.Json.Numbers

/-!
# The parts of a document's text

Text in quotes is read as itself: every character is escaped so that it is read again, line ends and
other control characters among them. Parts between brackets, each on a line of its own, are read up to
the closing bracket if each of them is read from its own text, and otherwise nothing is read.
-/

namespace Micromag.Json

variable {text rest : List Char} {depth : Nat}

/-! ## Text in quotes -/

/-- The value of a hexadecimal digit is read. -/
theorem hexValue?_hexDigit {n : Nat} (small : n < 16) : hexValue? (hexDigit n) = some n := by
  have all : ∀ n < 16, hexValue? (hexDigit n) = some n := by decide
  exact all n small

/-- A control character is read from the four digits of its unit. -/
theorem readEscapedUnit?_control {c : Char} (control : c.toNat < 32) :
    readEscapedUnit? ('0' :: '0' :: hexDigit (c.toNat / 16) :: hexDigit (c.toNat % 16) :: text) =
      some (c, text) := by
  have zero : hexValue? '0' = some 0 := by decide
  have unit : readUnit? ('0' :: '0' :: hexDigit (c.toNat / 16) :: hexDigit (c.toNat % 16) :: text) =
      some (c.toNat, text) := by
    show ((hexValue? '0').bind fun a => (hexValue? '0').bind fun b =>
      (hexValue? (hexDigit (c.toNat / 16))).bind fun high =>
        (hexValue? (hexDigit (c.toNat % 16))).bind fun low =>
          some (((a * 16 + b) * 16 + high) * 16 + low, text)) = _
    rw [zero, hexValue?_hexDigit (by omega), hexValue?_hexDigit (by omega)]
    show some (((0 * 16 + 0) * 16 + c.toNat / 16) * 16 + c.toNat % 16, text) = _
    congr 2
    omega
  have noHigh : ¬(0xD800 ≤ c.toNat ∧ c.toNat < 0xDC00) := by omega
  have noLow : ¬(0xDC00 ≤ c.toNat ∧ c.toNat < 0xE000) := by omega
  unfold readEscapedUnit?
  rw [unit]
  show (if 0xD800 ≤ c.toNat ∧ c.toNat < 0xDC00 then _ else
    if 0xDC00 ≤ c.toNat ∧ c.toNat < 0xE000 then none else some (Char.ofNat c.toNat, text)) = _
  rw [if_neg noHigh, if_neg noLow, Char.ofNat_toNat]

/-- A character is escaped by the letter that stands for it, by the digits of its unit, or not at all. -/
theorem escape_cases (c : Char) :
    (∃ letter, escape c = ['\\', letter] ∧ letter ≠ 'u' ∧ unescape? letter = some c) ∨
      (escape c = ['\\', 'u', '0', '0', hexDigit (c.toNat / 16), hexDigit (c.toNat % 16)] ∧
        c.toNat < 32) ∨
      (escape c = [c] ∧ c ≠ '"' ∧ c ≠ '\\' ∧ 32 ≤ c.toNat) := by
  unfold escape
  split
  · rename_i same
    exact .inl ⟨'"', rfl, by decide, congrArg some same.symm⟩
  rename_i noQuote
  split
  · rename_i same
    exact .inl ⟨'\\', rfl, by decide, congrArg some same.symm⟩
  rename_i noBackslash
  split
  · rename_i same
    exact .inl ⟨'b', rfl, by decide, congrArg some same.symm⟩
  split
  · rename_i same
    exact .inl ⟨'f', rfl, by decide, congrArg some same.symm⟩
  split
  · rename_i same
    exact .inl ⟨'n', rfl, by decide, congrArg some same.symm⟩
  split
  · rename_i same
    exact .inl ⟨'r', rfl, by decide, congrArg some same.symm⟩
  split
  · rename_i same
    exact .inl ⟨'t', rfl, by decide, congrArg some same.symm⟩
  split
  · rename_i control
    exact .inr (.inl ⟨rfl, control⟩)
  · rename_i visible
    exact .inr (.inr ⟨rfl, noQuote, noBackslash, Nat.le_of_not_lt visible⟩)

/-- A character between quotes is read as itself. -/
theorem readQuoted?_escape (fuel : Nat) (before : List Char) (c : Char) :
    readQuoted? (fuel + 1) before (escape c ++ text) = readQuoted? fuel (c :: before) text := by
  rcases escape_cases c with ⟨letter, same, other, stands⟩ | ⟨same, control⟩ |
    ⟨same, noQuote, noBackslash, visible⟩
  · rw [same]
    show readQuoted? (fuel + 1) before ('\\' :: letter :: text) = _
    rw [readQuoted?, stands]
    · rfl
    · exact other
  · rw [same]
    show ((readEscapedUnit? ('0' :: '0' :: hexDigit (c.toNat / 16) :: hexDigit (c.toNat % 16) ::
      text)).bind fun found => readQuoted? fuel (found.1 :: before) found.2) = _
    rw [readEscapedUnit?_control control]
    rfl
  · have plain : ¬(decide (c.toNat < 32) || decide (c = '\\')) = true := by
      simp [noBackslash, visible]
    rw [same]
    show readQuoted? (fuel + 1) before (c :: text) = _
    rw [readQuoted?, if_neg plain]
    · exact noQuote
    · exact fun _ backslash _ => noBackslash backslash
    · exact fun _ _ backslash _ => noBackslash backslash

/-- Text between quotes is read as itself. -/
theorem readQuoted?_flatMap {fuel : Nat} {chars : List Char} (enough : chars.length < fuel)
    (before : List Char) :
    readQuoted? fuel before (chars.flatMap escape ++ '"' :: rest) =
      some (String.ofList (before.reverse ++ chars), rest) := by
  induction chars generalizing fuel before with
  | nil =>
    obtain ⟨fuel, rfl⟩ := Nat.exists_eq_succ_of_ne_zero enough.ne'
    rw [List.append_nil]
    rfl
  | cons c chars ih =>
    obtain ⟨fuel, rfl⟩ := Nat.exists_eq_succ_of_ne_zero (Nat.ne_zero_of_lt enough)
    rw [List.flatMap_cons, List.append_assoc, readQuoted?_escape,
      ih (Nat.lt_of_succ_lt_succ enough), List.reverse_cons, List.append_assoc]
    rfl

/-- Every character is written. -/
theorem length_le_flatMap_escape (chars : List Char) :
    chars.length ≤ (chars.flatMap escape).length := by
  induction chars with
  | nil => exact Nat.le_refl 0
  | cons c chars ih =>
    have some : 1 ≤ (escape c).length := by
      rcases escape_cases c with ⟨letter, same, -⟩ | ⟨same, -⟩ | ⟨same, -⟩ <;> rw [same] <;>
        exact Nat.succ_pos _
    rw [List.flatMap_cons, List.length_append, List.length_cons]
    omega

/-- Text in quotes is read as itself, whatever follows. -/
theorem readText?_quote (text : String) (rest : List Char) :
    ∃ behind, quote text ++ rest = '"' :: behind ∧ readText? behind = some (text, rest) := by
  refine ⟨text.toList.flatMap escape ++ '"' :: rest, by simp [quote], ?_⟩
  have enough := length_le_flatMap_escape text.toList
  unfold readText?
  rw [readQuoted?_flatMap (by rw [List.length_append]; omega), List.reverse_nil, List.nil_append,
    String.ofList_toList]

/-! ## Parts between brackets -/

/-- Space is skipped up to a character that is none. -/
theorem skipSpace_cons {c : Char} (other : isSpace c = false) : skipSpace (c :: text) = c :: text :=
  List.dropWhile_cons_of_neg (by rw [other]; decide)

/-- A line break and blanks are skipped. -/
theorem skipSpace_newLine (depth : Nat) (text : List Char) :
    skipSpace (newLine depth ++ text) = skipSpace text := by
  unfold skipSpace
  refine List.dropWhile_append_of_pos fun c member => ?_
  rcases List.mem_cons.mp member with rfl | blank
  · decide
  · rw [List.eq_of_mem_replicate blank]
    decide

/-- What stands on the next line does not belong to a number. -/
theorem ends_newLine (depth : Nat) (text : List Char) : Ends (newLine depth ++ text) := by
  rintro _ ⟨⟩
  decide

section Parts

variable {α : Type} {part : List Char → Option (α × List Char)} {write : α → List Char}
  {close : Char} {fits : α → Bool} {value : α} {others : List α}

/-- The parts after the first, each on a line of its own, and the closing bracket. -/
def partsText (write : α → List Char) (close : Char) (depth : Nat) : List α → List Char
  | [] => newLine depth ++ [close]
  | value :: others =>
    ',' :: (newLine (depth + 1) ++ write value ++ partsText write close depth others)

/-- Parts that are read from their text if they fit. -/
structure Reads (part : List Char → Option (α × List Char)) (write : α → List Char) (close : Char)
    (fits : α → Bool) (value : α) : Prop where
  /-- The text begins neither with space nor with the closing bracket. -/
  starts : ∃ first more, write value = first :: more ∧ isSpace first = false ∧ first ≠ close
  /-- The part is read, whatever follows. -/
  read : ∀ rest, Ends rest →
    part (write value ++ rest) = if fits value then some (value, rest) else none

/-- What follows a part does not belong to a number. -/
theorem ends_partsText (others : List α) : Ends (partsText write close depth others ++ rest) := by
  cases others with
  | nil =>
    rw [partsText, List.append_assoc]
    exact ends_newLine _ _
  | cons value others =>
    rintro _ ⟨⟩
    decide

/-- Every part is written. -/
theorem length_lt_partsText (write : α → List Char) (close : Char) (depth : Nat) (others : List α) :
    others.length < (partsText write close depth others).length := by
  induction others with
  | nil => exact Nat.succ_pos _
  | cons value others ih =>
    rw [partsText, List.length_cons, List.length_cons, List.length_append]
    omega

/-- Space in front of a part is skipped. -/
theorem Reads.skipSpace_eq (reads : Reads part write close fits value) (text : List Char) :
    skipSpace (newLine depth ++ (write value ++ text)) = write value ++ text := by
  obtain ⟨first, more, same, visible, -⟩ := reads.starts
  rw [skipSpace_newLine, same]
  exact skipSpace_cons visible

/-- A part that is the last one is read if it fits. -/
theorem readParts?_last {fuel : Nat} (closes : isSpace close = false)
    (reads : Reads part write close fits value) (before : List α) :
    readParts? part close (fuel + 1) before
        (newLine (depth + 1) ++ (write value ++ (partsText write close depth [] ++ rest))) =
      if fits value then some (before.reverse ++ [value], rest) else none := by
  have behind : skipSpace (partsText write close depth [] ++ rest) = close :: rest := by
    rw [partsText, List.append_assoc, skipSpace_newLine]
    exact skipSpace_cons closes
  rw [readParts?, reads.skipSpace_eq, reads.read _ (ends_partsText [])]
  split
  · simp only [Option.bind_eq_bind, Option.bind_some, behind, if_true, List.reverse_cons]
  · rfl

/-- A part in front of others is read if it fits, and then the others. -/
theorem readParts?_next {fuel : Nat} {next : α} (noComma : close ≠ ',')
    (reads : Reads part write close fits value) (before : List α) :
    readParts? part close (fuel + 1) before
        (newLine (depth + 1) ++ (write value ++ (partsText write close depth (next :: others) ++ rest))) =
      if fits value then readParts? part close fuel (value :: before)
        (newLine (depth + 1) ++ (write next ++ (partsText write close depth others ++ rest)))
      else none := by
  have text : partsText write close depth (next :: others) ++ rest =
      ',' :: (newLine (depth + 1) ++ (write next ++ (partsText write close depth others ++ rest))) := by
    simp only [partsText, List.cons_append, List.append_assoc]
  have comma : skipSpace (',' :: (newLine (depth + 1) ++
      (write next ++ (partsText write close depth others ++ rest)))) =
        ',' :: (newLine (depth + 1) ++ (write next ++ (partsText write close depth others ++ rest))) :=
    skipSpace_cons (by decide)
  rw [readParts?, reads.skipSpace_eq, reads.read _ (ends_partsText _), text]
  split
  · simp only [Option.bind_eq_bind, Option.bind_some, comma, if_neg noComma.symm, if_true]
  · rfl

/-- Parts are read up to the closing bracket if all of them fit. -/
theorem readParts?_partsText {fuel : Nat} (closes : isSpace close = false) (noComma : close ≠ ',')
    (reads : ∀ one ∈ value :: others, Reads part write close fits one)
    (enough : others.length < fuel) (before : List α) :
    readParts? part close fuel before
        (newLine (depth + 1) ++ (write value ++ (partsText write close depth others ++ rest))) =
      if (value :: others).all fits then some (before.reverse ++ value :: others, rest) else none := by
  induction others generalizing value fuel before with
  | nil =>
    obtain ⟨fuel, rfl⟩ := Nat.exists_eq_succ_of_ne_zero (Nat.ne_zero_of_lt enough)
    rw [readParts?_last closes (reads value List.mem_cons_self), List.all_cons, List.all_nil,
      Bool.and_true]
  | cons next others ih =>
    obtain ⟨fuel, rfl⟩ := Nat.exists_eq_succ_of_ne_zero (Nat.ne_zero_of_lt enough)
    obtain ⟨first, further⟩ := List.forall_mem_cons.mp reads
    have both : (value :: next :: others).all fits = (fits value && (next :: others).all fits) :=
      List.all_cons
    rw [readParts?_next noComma first, ih further (Nat.lt_of_succ_lt_succ enough), both,
      List.reverse_cons, List.append_assoc]
    cases fits value with
    | true =>
      rw [if_pos rfl, Bool.true_and]
      rfl
    | false => rfl

/-- Brackets without parts are read. -/
theorem readBracketed?_close (closes : isSpace close = false) (rest : List Char) :
    readBracketed? part close (close :: rest) = some ([], rest) := by
  unfold readBracketed?
  rw [skipSpace_cons closes]
  exact if_pos rfl

/-- Parts between brackets are read if all of them fit. -/
theorem readBracketed?_partsText (closes : isSpace close = false) (noComma : close ≠ ',')
    (reads : ∀ one ∈ value :: others, Reads part write close fits one) (depth : Nat)
    (rest : List Char) :
    readBracketed? part close
        (newLine (depth + 1) ++ (write value ++ (partsText write close depth others ++ rest))) =
      if (value :: others).all fits then some (value :: others, rest) else none := by
  have first := reads value List.mem_cons_self
  obtain ⟨c, more, same, -, other⟩ := first.starts
  have begins : skipSpace (newLine (depth + 1) ++
      (write value ++ (partsText write close depth others ++ rest))) =
        c :: (more ++ (partsText write close depth others ++ rest)) := by
    rw [first.skipSpace_eq, same, List.cons_append]
  have few := length_lt_partsText write close depth others
  unfold readBracketed?
  rw [begins]
  dsimp only
  rw [if_neg other]
  refine readParts?_partsText closes noComma reads ?_ []
  simp only [List.length_append]
  omega

end Parts

end Micromag.Json
