import Micromag.Decimal.Basic
import Micromag.Text.Basic

/-!
# The characters of number text

Every layout writes numbers with few characters: digits, a point, signs, the mark of an exponent and
the letters of the special values. None of them is blank or separates parts of a header or a script.
-/

namespace Micromag

/-- The characters of number text. -/
def numberChars : List Char := "0123456789.+-eNainf".toList

/-- No character of number text is blank. -/
theorem isBlank_numberChars {c : Char} (member : c ∈ numberChars) : Text.isBlank c = false := by
  have all : (numberChars.all fun c => !Text.isBlank c) = true := by decide
  simpa using List.all_eq_true.mp all c member

/-- A digit is a character of number text. -/
theorem digitChar_mem {digit : Nat} (small : digit < 10) : digitChar digit ∈ numberChars := by
  have all : ∀ digit < 10, digitChar digit ∈ numberChars := by decide
  exact all digit small

variable {c : Char}

/-- Digits are put in front of the text. -/
theorem mem_digitsOnto {fuel n : Nat} {rest : List Char} (member : c ∈ digitsOnto fuel n rest) :
    c ∈ numberChars ∨ c ∈ rest := by
  induction fuel generalizing n rest with
  | zero => exact .inr member
  | succ fuel ih =>
    unfold digitsOnto at member
    by_cases last : n < 10
    · rw [if_pos last] at member
      rcases List.mem_cons.mp member with rfl | member
      · exact .inl (digitChar_mem last)
      · exact .inr member
    · rw [if_neg last] at member
      rcases ih member with number | member
      · exact .inl number
      · rcases List.mem_cons.mp member with rfl | member
        · exact .inl (digitChar_mem (Nat.mod_lt n (by omega)))
        · exact .inr member

/-- A natural number is written with characters of number text. -/
theorem naturalDigits_mem {n : Nat} (member : c ∈ naturalDigits n) : c ∈ numberChars := by
  rcases mem_digitsOnto member with number | nothing
  · exact number
  · exact absurd nothing List.not_mem_nil

/-- An integer is written with characters of number text. -/
theorem integerDigits_mem {n : Int} (member : c ∈ integerDigits n) : c ∈ numberChars := by
  cases n with
  | ofNat n => exact naturalDigits_mem member
  | negSucc n =>
    rcases List.mem_cons.mp member with rfl | member
    · decide
    · exact naturalDigits_mem member

/-- A repeated zero is a character of number text. -/
theorem replicate_zero_mem {count : Nat} (member : c ∈ List.replicate count '0') :
    c ∈ numberChars := by
  rw [List.eq_of_mem_replicate member]
  decide

/-- Positional text has only characters of number text. -/
theorem Decimal.positional_mem {d : Decimal} {pointZero : Bool}
    (member : c ∈ d.positional pointZero) : c ∈ numberChars := by
  have point : '.' ∈ numberChars := by decide
  have zero : '0' ∈ numberChars := by decide
  unfold Decimal.positional at member
  dsimp only at member
  split at member
  · rcases List.mem_append.mp member with member | member
    · rcases List.mem_append.mp member with member | member
      · exact naturalDigits_mem member
      · exact replicate_zero_mem member
    · split at member
      · rcases List.mem_cons.mp member with rfl | member
        · exact point
        · rw [List.mem_singleton.mp member]
          exact zero
      · exact absurd member List.not_mem_nil
  · split at member
    · rcases List.mem_append.mp member with member | member
      · exact naturalDigits_mem (List.mem_of_mem_take member)
      · rcases List.mem_cons.mp member with rfl | member
        · exact point
        · exact naturalDigits_mem (List.mem_of_mem_drop member)
    · rcases List.mem_cons.mp member with rfl | member
      · exact zero
      · rcases List.mem_cons.mp member with rfl | member
        · exact point
        · rcases List.mem_append.mp member with member | member
          · exact replicate_zero_mem member
          · exact naturalDigits_mem member

/-- Text with an exponent has only characters of number text. -/
theorem Decimal.scientific_mem {d : Decimal} {exponentSign : Bool}
    (member : c ∈ d.scientific exponentSign) : c ∈ numberChars := by
  unfold Decimal.scientific at member
  dsimp only at member
  rcases List.mem_append.mp member with member | member
  · rcases List.mem_append.mp member with member | member
    · exact naturalDigits_mem (List.mem_of_mem_take member)
    · split at member
      · exact absurd member List.not_mem_nil
      · rcases List.mem_cons.mp member with rfl | member
        · decide
        · exact naturalDigits_mem (List.mem_of_mem_drop member)
  · rcases List.mem_cons.mp member with rfl | member
    · decide
    · rcases List.mem_append.mp member with member | member
      · split at member
        · rw [List.mem_singleton.mp member]
          decide
        · exact absurd member List.not_mem_nil
      · exact integerDigits_mem member

/-- The text of a double has only characters of number text, in every layout. -/
theorem Layout.chars_mem {layout : Layout} {x : Float} (member : c ∈ layout.chars x) :
    c ∈ numberChars := by
  have all : (['N', 'a', 'N'] ++ ['-'] ++ ['i', 'n', 'f']).all numberChars.contains = true := by
    decide
  have special : ∀ c ∈ ['N', 'a', 'N'] ++ ['-'] ++ ['i', 'n', 'f'], c ∈ numberChars :=
    fun c inside => List.contains_iff_mem.mp (List.all_eq_true.mp all c inside)
  unfold Layout.chars at member
  split at member
  · exact special c (List.mem_append_left _ (List.mem_append_left _ member))
  · dsimp only at member
    rcases List.mem_append.mp member with member | member
    · split at member
      · exact special c (List.mem_append_left _ (List.mem_append_right _ member))
      · exact absurd member List.not_mem_nil
    · split at member
      · unfold Layout.magnitudeText at member
        dsimp only at member
        split at member
        · exact Decimal.positional_mem member
        · exact Decimal.scientific_mem member
      · exact special c (List.mem_append_right _ member)

/-- Text with sixteen digits has only characters of number text. -/
theorem sixteenDigits_mem {x : Float} (member : c ∈ (sixteenDigits x).toList) :
    c ∈ numberChars := by
  have special : ∀ text ∈ ["NaN", "-inf", "inf"], text.toList ⊆ numberChars := by decide
  have padded (n count : Nat) (c : Char)
      (inside : c ∈ naturalDigits n ++ List.replicate count '0') : c ∈ numberChars := by
    rcases List.mem_append.mp inside with inside | inside
    · exact naturalDigits_mem inside
    · exact replicate_zero_mem inside
  unfold sixteenDigits at member
  split at member
  · exact special "NaN" (by decide) member
  · split at member
    · split at member
      · exact special "-inf" (by decide) member
      · exact special "inf" (by decide) member
    · dsimp only at member
      rw [String.toList_ofList] at member
      simp only [List.mem_append, List.mem_cons] at member
      rcases member with ((sign | first) | rfl | others) | rfl | exponent
      · split at sign
        · rw [List.mem_singleton.mp sign]
          decide
        · exact absurd sign List.not_mem_nil
      · exact padded _ _ c (List.mem_of_mem_take first)
      · decide
      · exact padded _ _ c (List.mem_of_mem_drop others)
      · decide
      · exact integerDigits_mem exponent

/-- Text with sixteen digits is not empty. -/
theorem sixteenDigits_ne_nil (x : Float) : (sixteenDigits x).toList ≠ [] := by
  unfold sixteenDigits
  split
  · decide
  · split
    · split <;> decide
    · dsimp only
      rw [String.toList_ofList]
      simp

end Micromag
