import Micromag.Json.Reading
import Micromag.Proofs.Decimal.Positional
import Micromag.Proofs.Double.Text

/-!
# Numbers in documents

A whole number that fits a word and a finite double are read from their text in a document, whatever
follows, as long as it does not go on with a character of numbers. A double is written with a point or
with an exponent, so that it is told from a whole number even if it is one.
-/

namespace Micromag.Json

variable {whole fraction power behind rest : List Char} {json : Json} {x : Float}

/-- Text that does not go on with a character of numbers. -/
def Ends (rest : List Char) : Prop :=
  ∀ first ∈ rest.head?, isDigit first = false ∧ first ≠ '.' ∧ first ≠ 'e' ∧ first ≠ 'E'

/-- No digit goes on behind a number. -/
theorem Ends.stop (ends : Ends rest) : ∀ first ∈ rest.head?, isDigit first = false :=
  fun first member => (ends first member).1

/-- Text that is the text of a number in a document. -/
structure Spells (text : List Char) (json : Json) : Prop where
  /-- It begins with a minus or a digit. -/
  starts : ∃ first more, text = first :: more ∧ (first = '-' ∨ isDigit first = true)
  /-- The number is read from it, whatever follows. -/
  read : ∀ rest, Ends rest → readNumber? (text ++ rest) = some (json, rest)

/-! ## The parts of a number -/

/-- What does not begin with a point has no fraction. -/
theorem readFraction?_of_ne (other : ∀ first ∈ rest.head?, first ≠ '.') :
    readFraction? rest = some ([], rest) := by
  unfold readFraction?
  split
  · exact absurd rfl (other '.' rfl)
  · rfl

/-- The digits behind a point are the fraction. -/
theorem readFraction?_point (back : fraction ≠ []) (digits : ∀ c ∈ fraction, isDigit c = true)
    (stop : ∀ first ∈ rest.head?, isDigit first = false) :
    readFraction? ('.' :: (fraction ++ rest)) = some ('.' :: fraction, rest) := by
  show (if ((fraction ++ rest).takeWhile isDigit).isEmpty = true then none
    else some ('.' :: (fraction ++ rest).takeWhile isDigit, (fraction ++ rest).dropWhile isDigit)) = _
  rw [takeWhile_isDigit digits stop, dropWhile_isDigit digits stop, if_neg (by simpa using back)]

/-- A fraction is read if there is one. -/
theorem readFraction?_optional (digits : ∀ c ∈ fraction, isDigit c = true)
    (stop : ∀ first ∈ rest.head?, isDigit first = false)
    (other : ∀ first ∈ rest.head?, first ≠ '.') :
    readFraction? ((if fraction.isEmpty then [] else '.' :: fraction) ++ rest) =
      some (if fraction.isEmpty then [] else '.' :: fraction, rest) := by
  cases fraction with
  | nil => exact readFraction?_of_ne other
  | cons c fraction => exact readFraction?_point (List.cons_ne_nil c fraction) digits stop

/-- What does not begin with the mark of an exponent has none. -/
theorem readPower?_of_ne (other : ∀ first ∈ rest.head?, first ≠ 'e' ∧ first ≠ 'E') :
    readPower? rest = some ([], rest) := by
  cases rest with
  | nil => rfl
  | cons c rest =>
    have none : ¬(c = 'e' ∨ c = 'E') := not_or.mpr (other c rfl)
    unfold readPower?
    dsimp only
    rw [if_neg none]

/-- The digits behind the mark and a sign are the exponent. -/
theorem readPower?_of_splitSign {negative : Bool} {text digits : List Char}
    (split : splitSign text = (negative, digits ++ rest)) (filled : digits ≠ [])
    (each : ∀ c ∈ digits, isDigit c = true) (stop : ∀ first ∈ rest.head?, isDigit first = false) :
    readPower? ('e' :: text) = some ('e' :: (if negative then '-' :: digits else digits), rest) := by
  unfold readPower?
  dsimp only
  rw [if_pos (.inl rfl), split]
  dsimp only
  rw [takeWhile_isDigit each stop, dropWhile_isDigit each stop, if_neg (by simpa using filled)]

/-- An exponent is read from its digits, in front of which a plus may stand, and kept without it. -/
theorem readPower?_integerDigits (exponentSign : Bool) (exponent : Int)
    (stop : ∀ first ∈ rest.head?, isDigit first = false) :
    readPower? ('e' :: ((if exponentSign && 0 ≤ exponent then ['+'] else []) ++
      integerDigits exponent ++ rest)) = some ('e' :: integerDigits exponent, rest) := by
  cases exponent with
  | ofNat n =>
    have plus : splitSign ('+' :: (naturalDigits n ++ rest)) = (false, naturalDigits n ++ rest) := rfl
    have bare : splitSign (naturalDigits n ++ rest) = (false, naturalDigits n ++ rest) := by
      obtain ⟨c, others, parts, digit, -⟩ := exists_naturalDigits n
      rw [parts, List.cons_append, splitSign_of_isDigit digit]
    split
    · exact readPower?_of_splitSign plus (naturalDigits_ne_nil n) isDigit_naturalDigits stop
    · exact readPower?_of_splitSign bare (naturalDigits_ne_nil n) isDigit_naturalDigits stop
  | negSucc n =>
    have minus : splitSign ('-' :: (naturalDigits (n + 1) ++ rest)) =
        (true, naturalDigits (n + 1) ++ rest) := rfl
    have negative : ¬(exponentSign && decide (0 ≤ Int.negSucc n)) = true := by simp
    rw [if_neg negative]
    exact readPower?_of_splitSign minus (naturalDigits_ne_nil _) isDigit_naturalDigits stop

/-- A numeral is not empty, and no zero stands in front of its other digits. -/
theorem proper_of_numeral (numeral : Numeral whole) :
    (whole.isEmpty || (decide (whole.head? = some '0') && decide (1 < whole.length))) = false := by
  rw [List.isEmpty_eq_false_iff.mpr numeral.filled, Bool.false_or, ← Bool.decide_and,
    decide_eq_false_iff_not]
  rintro ⟨zero, more⟩
  rw [numeral.plain zero] at more
  exact absurd more (by decide)

/-- A number is read from its sign, its digits, its fraction and its exponent. -/
theorem readNumber?_eq_some {negative : Bool} {tail : List Char} (numeral : Numeral whole)
    (stop : ∀ first ∈ behind.head?, isDigit first = false)
    (fractionRead : readFraction? behind = some (fraction, tail))
    (powerRead : readPower? tail = some (power, rest))
    (stands : (if fraction.isEmpty && power.isEmpty then wholeNumber negative whole
      else
        let x := ((readDecimal? (whole ++ fraction ++ power)).map nearestFloat).getD 0
        number (if negative then -x else x)) = json)
    (finite : ∀ x, json = number x → x.isFinite = true) :
    readNumber? ((if negative then ['-'] else []) ++ (whole ++ behind)) = some (json, rest) := by
  unfold readNumber?
  split
  rename_i minus text sign
  obtain ⟨rfl, rfl⟩ : minus = negative ∧ text = whole ++ behind := by
    cases negative with
    | true =>
      obtain ⟨rfl, rfl⟩ := Prod.mk.inj sign
      exact ⟨rfl, rfl⟩
    | false =>
      obtain ⟨c, others, rfl⟩ := List.exists_cons_of_ne_nil numeral.filled
      have digit := numeral.digits c List.mem_cons_self
      split at sign
      · rename_i same
        rw [(List.cons.inj same).1] at digit
        cases digit
      · obtain ⟨rfl, rfl⟩ := Prod.mk.inj sign
        exact ⟨rfl, rfl⟩
  dsimp only at stands ⊢
  rw [takeWhile_isDigit numeral.digits stop, dropWhile_isDigit numeral.digits stop,
    proper_of_numeral numeral, fractionRead, if_neg Bool.false_ne_true]
  simp only [Option.bind_eq_bind, Option.bind_some, powerRead, stands]
  cases json with
  | number x => exact if_pos (finite x rfl)
  | _ => rfl

/-- Text that begins with a sign and digits, and from which the number is read, is its text. -/
theorem spells_of_read {negative : Bool} (numeral : Numeral whole)
    (read : ∀ rest, Ends rest → readNumber? ((if negative then ['-'] else []) ++
      (whole ++ (behind ++ rest))) = some (json, rest)) :
    Spells ((if negative then ['-'] else []) ++ (whole ++ behind)) json := by
  constructor
  · cases negative with
    | true => exact ⟨'-', whole ++ behind, rfl, .inl rfl⟩
    | false =>
      obtain ⟨c, others, rfl⟩ := List.exists_cons_of_ne_nil numeral.filled
      exact ⟨c, others ++ behind, rfl, .inr (numeral.digits c List.mem_cons_self)⟩
  · intro rest ends
    rw [List.append_assoc, List.append_assoc]
    exact read rest ends

/-! ## Whole numbers -/

/-- Digits that stand for a whole number are its text. -/
theorem spells_digits {negative : Bool} {n : Int} (numeral : Numeral whole)
    (stands : wholeNumber negative whole = .whole n) :
    Spells ((if negative then ['-'] else []) ++ (whole ++ [])) (.whole n) :=
  spells_of_read numeral fun _ ends =>
    readNumber?_eq_some numeral ends.stop
      (readFraction?_of_ne fun first member => (ends first member).2.1)
      (readPower?_of_ne fun first member => (ends first member).2.2) stands nofun

/-- A whole number that fits a word is written with its digits. -/
theorem spells_whole {n : Int} (low : -2 ^ 63 ≤ n) (high : n < 2 ^ 64) :
    Spells (integerDigits n) (.whole n) := by
  cases n with
  | ofNat n =>
    have fits : n < 2 ^ 64 := Int.ofNat_lt.mp high
    have stands : wholeNumber false (naturalDigits n) = .whole n := by
      unfold wholeNumber
      rw [natOfDigits_naturalDigits]
      exact if_pos fits
    have spells := spells_digits (numeral_naturalDigits n) stands
    rwa [List.append_nil] at spells
  | negSucc n =>
    have fits : 0 < n + 1 ∧ n + 1 ≤ 2 ^ 63 := by omega
    have stands : wholeNumber true (naturalDigits (n + 1)) = .whole (.negSucc n) := by
      unfold wholeNumber
      rw [natOfDigits_naturalDigits]
      exact if_pos fits
    have spells := spells_digits (numeral_naturalDigits (n + 1)) stands
    rwa [List.append_nil] at spells

/-! ## Doubles -/

variable {negative : Bool} {d : Decimal}

/-- Positional text of a decimal is the text of the double nearest to its digits. -/
theorem spells_written (written : d.Written whole fraction)
    (stands : (if negative then -nearestFloat ⟨natOfDigits (whole ++ fraction), -fraction.length⟩
      else nearestFloat ⟨natOfDigits (whole ++ fraction), -fraction.length⟩) = x)
    (finite : x.isFinite = true) :
    Spells ((if negative then ['-'] else []) ++ d.positional true) (.number x) := by
  rw [written.text]
  refine spells_of_read written.numeral fun rest ends => ?_
  have fractionRead := readFraction?_point written.back written.places ends.stop
  have powerRead := readPower?_of_ne fun first member => (ends first member).2.2
  refine readNumber?_eq_some written.numeral (stop_cons (by decide)) fractionRead powerRead ?_ ?_
  · rw [List.append_nil, written.read]
    exact congrArg Json.number stands
  · rintro _ ⟨⟩
    exact finite

/-- Text of a decimal with an exponent is the text of the double nearest to it. -/
theorem spells_scientific
    (stands : (if negative then -nearestFloat d else nearestFloat d) = x)
    (finite : x.isFinite = true) :
    Spells ((if negative then ['-'] else []) ++ d.scientific true) (.number x) := by
  obtain ⟨c, fraction, parts, digit, others⟩ := exists_naturalDigits d.digits
  have text (exponentSign : Bool) : d.scientific exponentSign =
      [c] ++ ((if fraction.isEmpty then [] else '.' :: fraction) ++ 'e' ::
        ((if exponentSign && 0 ≤ d.leading then ['+'] else []) ++ integerDigits d.leading)) := by
    unfold Decimal.scientific
    rw [parts]
    simp
  have decimal := readDecimal?_scientific d false
  rw [text, Bool.false_and, if_neg Bool.false_ne_true, List.nil_append, ← List.append_assoc] at decimal
  rw [text]
  refine spells_of_read (numeral_single digit) fun rest ends => ?_
  have powerRead := readPower?_integerDigits true d.leading ends.stop
  generalize (if (true && decide (0 ≤ d.leading)) = true then ['+'] else []) ++
    integerDigits d.leading = tail at powerRead ⊢
  have mark : ∀ first ∈ ('e' :: (tail ++ rest)).head?, isDigit first = false ∧ first ≠ '.' := by
    rintro _ ⟨⟩
    decide
  have fractionRead := readFraction?_optional others (fun first member => (mark first member).1)
    fun first member => (mark first member).2
  rw [List.append_assoc, List.cons_append]
  refine readNumber?_eq_some (numeral_single digit) ?_ fractionRead powerRead ?_ ?_
  · cases fraction with
    | nil => exact stop_cons (by decide)
    | cons c fraction => exact stop_cons (by decide)
  · have marked : ((if fraction.isEmpty then [] else '.' :: fraction).isEmpty &&
        ('e' :: integerDigits d.leading).isEmpty) = false := Bool.and_false _
    rw [marked, decimal]
    exact congrArg Json.number stands
  · rintro _ ⟨⟩
    exact finite

/-- A finite double is written as a number. -/
theorem spells_number (finite : x.isFinite = true) : Spells (numberChars x) (.number x) := by
  have chars : numberChars x = (if isNegative x then ['-'] else []) ++
      numberLayout.magnitudeText (.ofFloat x) := by
    have signed : (isNegative x && (numberLayout.signedZero || x != 0)) = isNegative x :=
      Bool.and_true _
    unfold numberChars Layout.chars
    rw [if_pos finite, Double.isNaN_of_finite finite, if_neg Bool.false_ne_true, signed, if_pos finite]
  rw [chars]
  by_cases positional :
      numberLayout.positional ((Magnitude.ofFloat x).shortest .even).leading = true
  · have text : numberLayout.magnitudeText (.ofFloat x) =
        ((Magnitude.ofFloat x).shortest .even).positional true := if_pos positional
    obtain ⟨whole, fraction, written⟩ := Decimal.exists_written (Double.shortest_proper x .even)
    rw [text]
    exact spells_written written (Double.nearestFloat_of_value finite written.value) finite
  · have text : numberLayout.magnitudeText (.ofFloat x) =
        ((Magnitude.ofFloat x).shortest .even).scientific true := if_neg positional
    rw [text]
    exact spells_scientific (Double.nearestFloat_of_value finite rfl) finite

end Micromag.Json
