import Micromag.Proofs.Decimal.Reading
import Micromag.Proofs.Double.Scientific

/-!
# Doubles are read from their text

The text of a double with an exponent is read as this double, whatever the double is: its shortest
decimal is nearest to no other double, zeros keep their sign, and infinities and the double that is
no number have words of their own.
-/

namespace Micromag

open Float.Model.UnpackedFloat

namespace Double

variable {x y : Float}

/-- A double that is no number is unpacked as such. -/
theorem unpack_of_isNaN (special : x.isNaN = true) : x.toModel.unpack = .notANumber := by
  have special : x.toModel.unpack.isNaN = true := special
  cases parts : x.toModel.unpack with
  | notANumber => rfl
  | infinity | zero | finite =>
    rw [parts] at special
    cases special

/-- A finite double is a number. -/
theorem isNaN_of_finite (finite : x.isFinite = true) : x.isNaN = false := by
  refine Bool.eq_false_iff.mpr fun special => ?_
  have finite : x.toModel.unpack.isFinite = true := finite
  rw [unpack_of_isNaN special] at finite
  cases finite

/-- A double that is a number but not finite is an infinity with its sign. -/
theorem unpack_of_infinite (finite : x.isFinite = false) (number : x.isNaN = false) :
    x.toModel.unpack = .infinity (signOf x) := by
  have finite : (unpack Float.Model.Format.binary64 x.toBits.toBitVec).isFinite = false := finite
  have number : (unpack Float.Model.Format.binary64 x.toBits.toBitVec).isNaN = false := number
  have sign := ofBitVec_unpackSign x.toBits
  show unpack Float.Model.Format.binary64 x.toBits.toBitVec = _
  unfold unpack at finite number ⊢
  dsimp only at finite number ⊢
  by_cases special : @unpackExponent Float.Model.Format.binary64 x.toBits.toBitVec = -1#_
  · rw [if_pos special] at finite number ⊢
    by_cases infinite : @unpackMantissa Float.Model.Format.binary64 x.toBits.toBitVec = 0#_
    · rw [if_pos infinite, sign]
      rfl
    · rw [if_neg infinite] at number
      cases number
  · rw [if_neg special] at finite
    split at finite
    · split at finite <;> cases finite
    · cases finite

/-- A double is its sign in front of the double with the other parts of it. -/
theorem signed_eq (parts : Sign → Float.Model.UnpackedFloat)
    (same : x.toModel.unpack = parts (signOf x)) (plus : y.toModel.unpack = parts .positive)
    (negates : (parts .positive).neg = parts .negative) :
    (if isNegative x then -y else y) = x := by
  by_cases negative : isNegative x = true
  · have sign : signOf x = .negative := if_pos negative
    rw [if_pos negative, ← ofModel_unpack x, same, sign, ← negates, ← plus]
    rfl
  · have sign : signOf x = .positive := if_neg negative
    rw [if_neg negative, ← ofModel_unpack x, same, sign, ← plus, ofModel_unpack]

end Double

variable {text : List Char}

/-- A minus in front of a number is read as its sign. -/
theorem readFloat?_signed (unsigned : splitSign text = (false, text)) (negative : Bool) :
    readFloat? ((if negative then ['-'] else []) ++ text) =
      (readFloat? text).map fun x => if negative then -x else x := by
  cases negative with
  | false => exact Option.map_id'.symm
  | true =>
    have split : splitSign ('-' :: text) = (true, text) := rfl
    show readFloat? ('-' :: text) = _
    unfold readFloat?
    rw [split, unsigned]
    dsimp only
    rw [Option.map_map]
    rfl

/-- A character that begins a word for a special value is no digit. -/
theorem toLower_of_isDigit {c : Char} (digit : isDigit c = true) :
    c.toLower ≠ 'i' ∧ c.toLower ≠ 'n' := by
  have all : ∀ value < 10,
      (digitChar value).toLower ≠ 'i' ∧ (digitChar value).toLower ≠ 'n' := by
    decide
  obtain ⟨value, small, rfl⟩ := exists_of_isDigit digit
  exact all value small

/-- Text that begins with a digit is a decimal. -/
theorem readFloat?_of_isDigit {c : Char} (digit : isDigit c = true) :
    readFloat? (c :: text) = (readDecimal? (c :: text)).map nearestFloat := by
  obtain ⟨notInfinite, notNone⟩ := toLower_of_isDigit digit
  have notInfinity : ¬((c :: text).map Char.toLower = "inf".toList ∨
      (c :: text).map Char.toLower = "infinity".toList) := by
    rintro (word | word)
    · exact notInfinite (List.cons.inj word).1
    · exact notInfinite (List.cons.inj word).1
  have notNaN : ¬(c :: text).map Char.toLower = "nan".toList := fun word =>
    notNone (List.cons.inj word).1
  unfold readFloat?
  rw [splitSign_of_isDigit digit]
  dsimp only
  rw [if_neg notInfinity, if_neg notNaN]
  exact Option.map_id'

namespace Decimal

variable (d : Decimal) (exponentSign : Bool)

/-- The text of a decimal begins with a digit. -/
theorem exists_scientific :
    ∃ c rest, d.scientific exponentSign = c :: rest ∧ isDigit c = true := by
  obtain ⟨c, fraction, parts, first, -⟩ := exists_naturalDigits d.digits
  have text : ∃ rest, d.scientific exponentSign = c :: rest := by
    unfold Decimal.scientific
    dsimp only
    rw [parts]
    exact ⟨_, rfl⟩
  obtain ⟨rest, text⟩ := text
  exact ⟨c, rest, text, first⟩

/-- The text of a decimal has no sign. -/
theorem splitSign_scientific :
    splitSign (d.scientific exponentSign) = (false, d.scientific exponentSign) := by
  obtain ⟨c, rest, text, digit⟩ := d.exists_scientific exponentSign
  rw [text, splitSign_of_isDigit digit]

/-- The text of a decimal is read as the double nearest to it. -/
theorem readFloat?_scientific :
    readFloat? (d.scientific exponentSign) = some (nearestFloat d) := by
  obtain ⟨c, rest, text, digit⟩ := d.exists_scientific exponentSign
  have read := readDecimal?_scientific d exponentSign
  rw [text] at read ⊢
  rw [readFloat?_of_isDigit digit, read]
  rfl

end Decimal

namespace Double

variable {x : Float}

/-- The shortest decimal of a finite double has digits, unless it is zero without an exponent. -/
theorem shortest_proper (x : Float) (tie : Tie)
    (empty : ((Magnitude.ofFloat x).shortest tie).digits = 0) :
    ((Magnitude.ofFloat x).shortest tie).exponent = 0 := by
  rcases Nat.eq_zero_or_pos (Magnitude.ofFloat x).mantissa with zero | filled
  · unfold Magnitude.shortest
    rw [if_pos (show (Magnitude.ofFloat x).isZero = true from decide_eq_true zero)]
  · have positive := digits_pos (canonical_ofFloat filled) (Magnitude.covers_shortest filled tie)
    exact absurd empty positive.ne'

/-- The double nearest to a decimal that is the same number as the shortest decimal of a finite double
is this double up to its sign. -/
theorem nearestFloat_of_value (finite : x.isFinite = true) {tie : Tie} {d : Decimal}
    (same : d.value = ((Magnitude.ofFloat x).shortest tie).value) :
    (if isNegative x then -nearestFloat d else nearestFloat d) = x := by
  rcases Nat.eq_zero_or_pos (Magnitude.ofFloat x).mantissa with empty | filled
  · have zero : (Magnitude.ofFloat x).isZero = true := decide_eq_true empty
    have shortest : (Magnitude.ofFloat x).shortest tie = ⟨0, 0⟩ := by
      unfold Magnitude.shortest
      rw [if_pos zero]
    have none : d.digits = 0 := by
      have unit : (10 : ℚ) ^ d.exponent ≠ 0 := zpow_ne_zero _ (by norm_num)
      rw [shortest] at same
      simpa [Decimal.value, unit] using same
    have read : nearestFloat d = 0 := by
      unfold nearestFloat
      rw [if_pos none]
    have plus : (0 : Float).toModel.unpack = .zero .positive :=
      unpack_of_zero (by decide +kernel) (by decide +kernel)
    rw [read]
    exact signed_eq .zero (unpack_of_zero finite empty) plus rfl
  · have double := canonical_ofFloat filled
    have most := exponent_le finite
    rw [nearestFloat_eq double most (same ▸ Magnitude.covers_shortest filled tie)]
    refine signed_eq (.finite · _ _ filled) (unpack_of_filled finite filled) ?_ rfl
    exact unpack_pack _ _ double.short double.full double.least most

/-- Every double is read from its text with an exponent. -/
theorem readFloat?_scientific (x : Float) : readFloat? (Layout.scientific.chars x) = some x := by
  unfold Layout.chars
  cases special : x.isNaN with
  | true =>
    have same : x = 0 / 0 := by
      rw [← ofModel_unpack x, unpack_of_isNaN special]
      decide +kernel
    rw [if_pos rfl, same]
    decide +kernel
  | false =>
    have signed : (isNegative x && (Layout.scientific.signedZero || x != 0)) = isNegative x :=
      Bool.and_true _
    rw [if_neg Bool.false_ne_true, signed]
    cases finite : x.isFinite with
    | true =>
      rw [if_pos rfl]
      show readFloat? (_ ++ Decimal.scientific _ _) = _
      rw [readFloat?_signed (Decimal.splitSign_scientific _ _), Decimal.readFloat?_scientific,
        Option.map_some, nearestFloat_of_value finite rfl]
    | false =>
      have word : splitSign ['i', 'n', 'f'] = (false, ['i', 'n', 'f']) := rfl
      have read : readFloat? ['i', 'n', 'f'] = some (1 / 0) := by decide +kernel
      have plus : (1 / 0 : Float).toModel.unpack = .infinity .positive := by
        have sign : signOf (1 / 0) = .positive := rfl
        rw [← sign]
        exact unpack_of_infinite (by decide +kernel) (by decide +kernel)
      rw [if_neg Bool.false_ne_true, readFloat?_signed word, read, Option.map_some]
      exact congrArg some (signed_eq .infinity (unpack_of_infinite finite special) plus rfl)

end Double

end Micromag
