import Micromag.Proofs.Decimal.Reading
import Micromag.Proofs.Decimal.Shortest

/-!
# Decimals in positional text

A decimal that is written with a point and never without a fraction has digits on both sides of the
point. No zero stands in front of other digits unless the point is next, and the digits, with as many
places as stand behind the point, are the same number.
-/

namespace Micromag

/-- Digits in front of a point or an exponent: at least one, and no zero in front of others. -/
structure Numeral (whole : List Char) : Prop where
  /-- There is a digit. -/
  filled : whole ≠ []
  /-- There are only digits. -/
  digits : ∀ c ∈ whole, isDigit c = true
  /-- A zero at the start stands alone. -/
  plain : whole.head? = some '0' → whole = ['0']

/-- A digit alone. -/
theorem numeral_single {c : Char} (digit : isDigit c = true) : Numeral [c] where
  filled := List.cons_ne_nil c []
  digits := List.forall_mem_singleton.mpr digit
  plain := fun zero => congrArg (fun first => [first]) (Option.some.inj zero)

/-- The digits of a natural number. -/
theorem numeral_naturalDigits (n : ℕ) : Numeral (naturalDigits n) where
  filled := naturalDigits_ne_nil n
  digits := isDigit_naturalDigits
  plain := by
    intro zero
    rcases Nat.eq_zero_or_pos n with rfl | positive
    · rfl
    · exact absurd zero (head?_naturalDigits positive)

namespace Decimal

variable {d : Decimal} {whole fraction : List Char}

/-- Digits in front of a point and behind it that are the text of a decimal. -/
structure Written (d : Decimal) (whole fraction : List Char) : Prop where
  /-- The text is made of them. -/
  text : d.positional true = whole ++ '.' :: fraction
  /-- In front of the point are digits. -/
  numeral : Numeral whole
  /-- Behind the point is something. -/
  back : fraction ≠ []
  /-- Behind the point are only digits. -/
  places : ∀ c ∈ fraction, isDigit c = true
  /-- The number is the same. -/
  value : (⟨natOfDigits (whole ++ fraction), -fraction.length⟩ : Decimal).value = d.value

/-- A decimal without places is followed by zeros, a point and a zero. -/
theorem written_of_whole (proper : d.digits = 0 → d.exponent = 0) (large : 0 ≤ d.exponent) :
    d.Written (naturalDigits d.digits ++ List.replicate d.exponent.toNat '0') ['0'] where
  text := by
    unfold positional
    dsimp only
    rw [if_pos large]
    simp
  numeral := by
    rcases Nat.eq_zero_or_pos d.digits with none | positive
    · rw [none, proper none]
      exact numeral_naturalDigits 0
    · refine ⟨List.append_ne_nil_of_left_ne_nil (naturalDigits_ne_nil _) _,
        List.forall_mem_append.mpr ⟨isDigit_naturalDigits, fun c member => ?_⟩, fun zero => ?_⟩
      · rw [List.eq_of_mem_replicate member]
        decide
      · rw [head?_naturalDigits_append] at zero
        exact absurd zero (head?_naturalDigits positive)
  back := List.cons_ne_nil _ _
  places := by decide
  value := by
    have zeros : naturalDigits d.digits ++ List.replicate d.exponent.toNat '0' ++ ['0'] =
        naturalDigits d.digits ++ List.replicate (d.exponent.toNat + 1) '0' := by
      rw [List.replicate_succ', List.append_assoc]
    have power : (10 : ℚ) ^ d.exponent = 10 ^ d.exponent.toNat := by
      rw [← zpow_natCast, Int.toNat_of_nonneg large]
    have tenth : (10 : ℚ) * 10 ^ (-(1 : ℤ)) = 1 := by norm_num
    rw [zeros, natOfDigits_append_zeros, natOfDigits_naturalDigits]
    unfold Decimal.value
    rw [power]
    show ((d.digits * 10 ^ (d.exponent.toNat + 1) : ℕ) : ℚ) * 10 ^ (-(1 : ℤ)) = _
    push_cast
    rw [pow_succ, mul_assoc, mul_assoc, tenth, mul_one]

/-- The point of a decimal with fewer places than digits stands between the digits. -/
theorem written_of_between (small : d.exponent < 0)
    (between : (-d.exponent).toNat < (naturalDigits d.digits).length) :
    d.Written ((naturalDigits d.digits).take ((naturalDigits d.digits).length - (-d.exponent).toNat))
      ((naturalDigits d.digits).drop ((naturalDigits d.digits).length - (-d.exponent).toNat)) where
  text := by
    unfold positional
    dsimp only
    rw [if_neg (by omega), if_pos between]
  numeral := by
    have some : (naturalDigits d.digits).length - (-d.exponent).toNat ≠ 0 := by omega
    refine ⟨?_, fun c member => isDigit_naturalDigits c (List.mem_of_mem_take member), fun zero => ?_⟩
    · rw [ne_eq, List.take_eq_nil_iff, not_or]
      exact ⟨some, naturalDigits_ne_nil _⟩
    · rw [List.head?_take, if_neg some] at zero
      rcases Nat.eq_zero_or_pos d.digits with none | positive
      · -- zero has a single digit and so no place for the point
        have single : (naturalDigits d.digits).length = 1 := by rw [none]; rfl
        omega
      · exact absurd zero (head?_naturalDigits positive)
  back := by
    rw [ne_eq, List.drop_eq_nil_iff]
    omega
  places := fun c member => isDigit_naturalDigits c (List.mem_of_mem_drop member)
  value := by
    have places : (naturalDigits d.digits).length -
        ((naturalDigits d.digits).length - (-d.exponent).toNat) = (-d.exponent).toNat := by
      omega
    have exponent : (-((-d.exponent).toNat : ℤ)) = d.exponent := by omega
    rw [List.take_append_drop, natOfDigits_naturalDigits, List.length_drop, places, exponent]

/-- A decimal with no more digits than places follows a zero, a point and zeros. -/
theorem written_of_small (small : d.exponent < 0)
    (tiny : (naturalDigits d.digits).length ≤ (-d.exponent).toNat) :
    d.Written ['0'] (List.replicate ((-d.exponent).toNat - (naturalDigits d.digits).length) '0' ++
      naturalDigits d.digits) where
  text := by
    unfold positional
    dsimp only
    rw [if_neg (by omega), if_neg (by omega)]
    rfl
  numeral := numeral_single (by decide)
  back := List.append_ne_nil_of_right_ne_nil _ (naturalDigits_ne_nil _)
  places := isDigit_zeros
  value := by
    have zero : ['0'] = List.replicate 1 '0' := rfl
    have places : (-d.exponent).toNat - (naturalDigits d.digits).length +
        (naturalDigits d.digits).length = (-d.exponent).toNat := Nat.sub_add_cancel tiny
    have exponent : (-((-d.exponent).toNat : ℤ)) = d.exponent := by omega
    rw [zero, natOfDigits_zeros, natOfDigits_zeros, natOfDigits_naturalDigits, List.length_append,
      List.length_replicate, places, exponent]

/-- A decimal is written with digits on both sides of a point, if the decimal zero has no exponent. -/
theorem exists_written (proper : d.digits = 0 → d.exponent = 0) :
    ∃ whole fraction, d.Written whole fraction := by
  rcases lt_or_ge d.exponent 0 with small | large
  · rcases lt_or_ge (-d.exponent).toNat (naturalDigits d.digits).length with between | tiny
    · exact ⟨_, _, written_of_between small between⟩
    · exact ⟨_, _, written_of_small small tiny⟩
  · exact ⟨_, _, written_of_whole proper large⟩

/-- The text of a decimal is read as a decimal of the same number. -/
theorem Written.read (written : d.Written whole fraction) :
    readDecimal? (whole ++ '.' :: fraction) =
      some ⟨natOfDigits (whole ++ fraction), -fraction.length⟩ := by
  have ends : ∀ first ∈ ([] : List Char).head?, isDigit first = false := nofun
  have read := readDecimal?_point written.numeral.filled written.numeral.digits written.places ends rfl
  rwa [List.append_nil, zero_sub] at read

end Decimal

end Micromag
