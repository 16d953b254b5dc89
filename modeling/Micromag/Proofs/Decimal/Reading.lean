import Mathlib.Data.List.Induction
import Micromag.Decimal.Basic
import Micromag.Decimal.Reading

/-!
# Digits and decimal numbers are read back
-/

/-!
## Natural numbers in digits

The digits of a natural number are read as this number again, and a number that fits a word is read
as a count. No number is written as empty text.
-/

namespace Micromag

/-- A digit is read as its value. -/
theorem digitValue?_digitChar {digit : Nat} (small : digit < 10) :
    digitValue? (digitChar digit) = some digit := by
  have all : ∀ digit < 10, digitValue? (digitChar digit) = some digit := by decide
  exact all digit small

/-- A digit is one. -/
theorem isDigit_digitChar {digit : Nat} (small : digit < 10) :
    isDigit (digitChar digit) = true := by
  unfold isDigit
  rw [digitValue?_digitChar small]
  rfl

/-- One more digit behind a number. -/
def pushDigit (n : Nat) (c : Char) : Nat := 10 * n + (digitValue? c).getD 0

variable {fuel n : Nat} {rest : List Char}

/-- Digits in front of a text are read as their number, and then the text behind it. -/
theorem natOfDigits_digitsOnto (enough : n < 10 ^ fuel) :
    natOfDigits (digitsOnto fuel n rest) = rest.foldl pushDigit n := by
  induction fuel generalizing n rest with
  | zero =>
    have zero : n = 0 := by omega
    rw [zero]
    rfl
  | succ fuel ih =>
    unfold digitsOnto
    by_cases last : n < 10
    · rw [if_pos last]
      show (digitChar n :: rest).foldl pushDigit 0 = _
      rw [List.foldl_cons, pushDigit, digitValue?_digitChar last]
      simp
    · have shorter : n / 10 < 10 ^ fuel := by
        rw [Nat.pow_succ] at enough
        omega
      have next : pushDigit (n / 10) (digitChar (n % 10)) = n := by
        unfold pushDigit
        rw [digitValue?_digitChar (Nat.mod_lt n (by decide)), Option.getD_some]
        omega
      rw [if_neg last, ih shorter, List.foldl_cons, next]

/-- The digits of a natural number stand for it. -/
theorem natOfDigits_naturalDigits (n : Nat) : natOfDigits (naturalDigits n) = n := by
  have enough : n < 10 ^ (n.log2 + 1) :=
    Nat.lt_of_lt_of_le Nat.lt_log2_self (Nat.pow_le_pow_left (by decide) _)
  exact natOfDigits_digitsOnto enough

/-- Digits in front of digits are digits. -/
theorem isDigit_digitsOnto (digits : ∀ c ∈ rest, isDigit c = true) :
    ∀ c ∈ digitsOnto fuel n rest, isDigit c = true := by
  induction fuel generalizing n rest with
  | zero => exact digits
  | succ fuel ih =>
    unfold digitsOnto
    by_cases last : n < 10
    · rw [if_pos last]
      exact List.forall_mem_cons.mpr ⟨isDigit_digitChar last, digits⟩
    · rw [if_neg last]
      have digit := isDigit_digitChar (Nat.mod_lt n (show 10 > 0 by decide))
      exact ih (List.forall_mem_cons.mpr ⟨digit, digits⟩)

/-- A natural number is written with digits. -/
theorem isDigit_naturalDigits : ∀ c ∈ naturalDigits n, isDigit c = true :=
  isDigit_digitsOnto nofun

/-- Every natural number has a digit. -/
theorem naturalDigits_ne_nil (n : Nat) : naturalDigits n ≠ [] := by
  have some (fuel n : Nat) (rest : List Char) (more : rest ≠ []) :
      digitsOnto fuel n rest ≠ [] := by
    induction fuel generalizing n rest with
    | zero => exact more
    | succ fuel ih =>
      unfold digitsOnto
      split
      · exact List.cons_ne_nil _ _
      · exact ih _ _ (List.cons_ne_nil _ _)
  unfold naturalDigits digitsOnto
  split
  · exact List.cons_ne_nil _ _
  · exact some _ _ _ (List.cons_ne_nil _ _)

/-- An integer has digits. -/
theorem integerDigits_ne_nil (n : Int) : integerDigits n ≠ [] := by
  cases n with
  | ofNat n => exact naturalDigits_ne_nil n
  | negSucc n => exact List.cons_ne_nil _ _

/-- The text of a finite double is not empty. -/
theorem Layout.chars_ne_nil (layout : Layout) (x : Float) : layout.chars x ≠ [] := by
  have magnitude (d : Decimal) :
      d.positional layout.pointZero ≠ [] ∧ d.scientific layout.exponentSign ≠ [] := by
    refine ⟨?_, ?_⟩
    · unfold Decimal.positional
      dsimp only
      split
      · exact List.append_ne_nil_of_left_ne_nil
          (List.append_ne_nil_of_left_ne_nil (naturalDigits_ne_nil _) _) _
      · split
        · exact List.append_ne_nil_of_right_ne_nil _ (List.cons_ne_nil _ _)
        · exact List.cons_ne_nil _ _
    · unfold Decimal.scientific
      dsimp only
      exact List.append_ne_nil_of_right_ne_nil _ (List.cons_ne_nil _ _)
  unfold Layout.chars
  split
  · exact List.cons_ne_nil _ _
  · dsimp only
    refine List.append_ne_nil_of_right_ne_nil _ ?_
    split
    · unfold Layout.magnitudeText
      dsimp only
      split
      · exact (magnitude _).1
      · exact (magnitude _).2
    · exact List.cons_ne_nil _ _

/-- The digits are the ten characters for the values below ten. -/
theorem exists_of_isDigit {c : Char} (digit : isDigit c = true) : ∃ value < 10, c = digitChar value := by
  unfold isDigit digitValue? at digit
  split at digit
  · rename_i between
    have low : 48 ≤ c.toNat := between.1
    have high : c.toNat ≤ 57 := between.2
    refine ⟨c.toNat - 48, by omega, ?_⟩
    unfold digitChar
    rw [Nat.add_sub_cancel' low, Char.ofNat_toNat]
  · cases digit

/-- A digit has digits of its own. -/
theorem naturalDigits_of_lt {digit : Nat} (small : digit < 10) :
    naturalDigits digit = [digitChar digit] :=
  if_pos small

/-- Text behind digits stands behind them. -/
theorem digitsOnto_append (front : List Char) :
    digitsOnto fuel n (front ++ rest) = digitsOnto fuel n front ++ rest := by
  induction fuel generalizing n front with
  | zero => rfl
  | succ fuel ih =>
    unfold digitsOnto
    split
    · rfl
    · rw [← List.cons_append, ih]

/-- More steps than are needed make no difference. -/
theorem digitsOnto_congr {other : Nat} (positive : 0 < n) (enough : n < 10 ^ fuel)
    (enoughToo : n < 10 ^ other) : digitsOnto fuel n rest = digitsOnto other n rest := by
  induction fuel generalizing n other rest with
  | zero => omega
  | succ fuel ih =>
    cases other with
    | zero => omega
    | succ other =>
      unfold digitsOnto
      split
      · rfl
      · rw [Nat.pow_succ] at enough enoughToo
        exact ih (by omega) (by omega) (by omega)

/-- One more digit behind a positive number is one more digit behind its digits. -/
theorem naturalDigits_push {digit : Nat} (positive : 0 < n) (small : digit < 10) :
    naturalDigits (10 * n + digit) = naturalDigits n ++ [digitChar digit] := by
  have enough (n : Nat) : n < 10 ^ (n.log2 + 1) :=
    Nat.lt_of_lt_of_le Nat.lt_log2_self (Nat.pow_le_pow_left (by decide) _)
  have fewer : n < 10 ^ (10 * n + digit).log2 := by
    have whole : 10 * n + digit < 2 ^ ((10 * n + digit).log2 + 1) := Nat.lt_log2_self
    rw [Nat.pow_succ] at whole
    have powers := Nat.pow_le_pow_left (show 2 ≤ 10 by decide) (10 * n + digit).log2
    omega
  have large : ¬10 * n + digit < 10 := by omega
  have front : (10 * n + digit) / 10 = n := by omega
  have last : (10 * n + digit) % 10 = digit := by omega
  show digitsOnto ((10 * n + digit).log2 + 1) (10 * n + digit) [] = _
  rw [digitsOnto, if_neg large, front, last, digitsOnto_congr positive fewer (enough n)]
  exact digitsOnto_append []

/-- Digits are those of their number, perhaps behind zeros. -/
theorem exists_zeros {text : List Char} (digits : ∀ c ∈ text, isDigit c = true)
    (filled : text ≠ []) :
    ∃ zeros, text = List.replicate zeros '0' ++ naturalDigits (natOfDigits text) := by
  induction text using List.reverseRecOn with
  | nil => exact absurd rfl filled
  | append_singleton front c ih =>
    obtain ⟨earlier, last⟩ := List.forall_mem_append.mp digits
    obtain ⟨digit, small, rfl⟩ := exists_of_isDigit (last c List.mem_cons_self)
    have number : natOfDigits (front ++ [digitChar digit]) = 10 * natOfDigits front + digit := by
      unfold natOfDigits
      rw [List.foldl_append, List.foldl_cons, List.foldl_nil, digitValue?_digitChar small]
      rfl
    rw [number]
    by_cases empty : front = []
    · rw [empty]
      exact ⟨0, (naturalDigits_of_lt small).symm.trans (by simp [natOfDigits])⟩
    · obtain ⟨zeros, whole⟩ := ih earlier empty
      rcases Nat.eq_zero_or_pos (natOfDigits front) with none | some
      · rw [none] at whole ⊢
        refine ⟨zeros + 1, ?_⟩
        rw [whole, Nat.mul_zero, Nat.zero_add, naturalDigits_of_lt small, List.replicate_succ']
        rfl
      · refine ⟨zeros, ?_⟩
        rw [naturalDigits_push some small, ← List.append_assoc, ← whole]

/-- Zeros in front of digits do not change their number. -/
theorem natOfDigits_zeros (zeros : Nat) (digits : List Char) :
    natOfDigits (List.replicate zeros '0' ++ digits) = natOfDigits digits := by
  induction zeros with
  | zero => rfl
  | succ zeros ih =>
    rw [List.replicate_succ, List.cons_append, ← ih]
    rfl

/-- Zeros behind digits raise their number by powers of ten. -/
theorem natOfDigits_append_zeros (text : List Char) (zeros : Nat) :
    natOfDigits (text ++ List.replicate zeros '0') = natOfDigits text * 10 ^ zeros := by
  have zero (n : Nat) : pushDigit n '0' = n * 10 := Nat.mul_comm 10 n
  have pushed (n : Nat) : (List.replicate zeros '0').foldl pushDigit n = n * 10 ^ zeros := by
    induction zeros generalizing n with
    | zero => exact (Nat.mul_one n).symm
    | succ zeros ih => rw [List.replicate_succ, List.foldl_cons, ih, zero, Nat.pow_succ', Nat.mul_assoc]
  unfold natOfDigits
  rw [List.foldl_append]
  exact pushed _

/-- Text behind the digits of a number does not change the first one. -/
theorem head?_naturalDigits_append (n : Nat) (rest : List Char) :
    (naturalDigits n ++ rest).head? = (naturalDigits n).head? := by
  obtain ⟨c, others, parts⟩ := List.exists_cons_of_ne_nil (naturalDigits_ne_nil n)
  rw [parts]
  rfl

/-- The digits of a positive number do not begin with a zero. -/
theorem head?_naturalDigits (positive : 0 < n) : (naturalDigits n).head? ≠ some '0' := by
  induction n using Nat.strongRecOn with
  | ind n ih =>
    have digit : n % 10 < 10 := Nat.mod_lt n (by decide)
    rcases Nat.eq_zero_or_pos (n / 10) with single | more
    · have small : n < 10 := by omega
      have all : ∀ n < 10, 0 < n → digitChar n ≠ '0' := by decide
      rw [naturalDigits_of_lt small]
      exact fun same => all n small positive (Option.some.inj same)
    · have parts : n = 10 * (n / 10) + n % 10 := by omega
      rw [parts, naturalDigits_push more digit, head?_naturalDigits_append]
      exact ih (n / 10) (by omega) more

/-- Zeros and digits behind them are digits. -/
theorem isDigit_zeros {zeros : Nat} :
    ∀ c ∈ List.replicate zeros '0' ++ naturalDigits n, isDigit c = true := by
  refine List.forall_mem_append.mpr ⟨fun c member => ?_, isDigit_naturalDigits⟩
  rw [List.eq_of_mem_replicate member]
  decide

/-- A count is read from its digits, which may stand behind zeros and these behind a plus. -/
theorem readCount?_eq_some {text : List Char} : readCount? text = some n ↔
    n < 2 ^ 64 ∧ ∃ sign zeros, (sign = [] ∨ sign = ['+']) ∧
      text = sign ++ (List.replicate zeros '0' ++ naturalDigits n) := by
  have unsigned (digits : List Char) :
      (if digits.isEmpty || !digits.all isDigit then none
        else if natOfDigits digits < 2 ^ 64 then some (natOfDigits digits) else none) = some n ↔
        n < 2 ^ 64 ∧ ∃ zeros, digits = List.replicate zeros '0' ++ naturalDigits n := by
    constructor
    · intro read
      split at read
      · cases read
      · rename_i accepted
        rw [Bool.or_eq_true, not_or, Bool.not_eq_true', Bool.not_eq_false, List.isEmpty_iff,
          List.all_eq_true] at accepted
        split at read
        · rename_i fits
          obtain rfl := Option.some.inj read
          exact ⟨fits, exists_zeros accepted.2 accepted.1⟩
        · cases read
    · rintro ⟨fits, zeros, rfl⟩
      have number : natOfDigits (List.replicate zeros '0' ++ naturalDigits n) = n := by
        rw [natOfDigits_zeros, natOfDigits_naturalDigits]
      have filled : List.replicate zeros '0' ++ naturalDigits n ≠ [] :=
        List.append_ne_nil_of_right_ne_nil _ (naturalDigits_ne_nil n)
      rw [number, if_neg, if_pos fits]
      rw [Bool.or_eq_true, not_or, Bool.not_eq_true', Bool.not_eq_false, List.isEmpty_iff,
        List.all_eq_true]
      exact ⟨filled, isDigit_zeros⟩
  unfold readCount?
  constructor
  · intro read
    split at read
    · obtain ⟨fits, zeros, rfl⟩ := (unsigned _).mp read
      exact ⟨fits, ['+'], zeros, .inr rfl, rfl⟩
    · obtain ⟨fits, zeros, rfl⟩ := (unsigned _).mp read
      exact ⟨fits, [], zeros, .inl rfl, rfl⟩
  · rintro ⟨fits, sign, zeros, rfl | rfl, rfl⟩
    · split
      · rename_i rest plus
        -- digits do not begin with a plus
        rw [List.nil_append] at plus
        have first : isDigit '+' = true := isDigit_zeros '+' (plus ▸ List.mem_cons_self)
        exact absurd first (by decide)
      · exact (unsigned _).mpr ⟨fits, zeros, rfl⟩
    · exact (unsigned _).mpr ⟨fits, zeros, rfl⟩

/-- The digits of a number that fits a word are read as a count. -/
theorem readCount?_naturalDigits (fits : n < 2 ^ 64) : readCount? (naturalDigits n) = some n :=
  readCount?_eq_some.mpr ⟨fits, [], 0, .inl rfl, rfl⟩

/-- A count that is read fits a word. -/
theorem lt_of_readCount? {text : List Char} (read : readCount? text = some n) : n < 2 ^ 64 :=
  (readCount?_eq_some.mp read).1

/-- A count is written with digits and perhaps a plus. -/
theorem mem_of_readCount? {text : List Char} (read : (readCount? text).isSome = true) :
    ∀ c ∈ text, c = '+' ∨ isDigit c = true := by
  obtain ⟨n, read⟩ := Option.isSome_iff_exists.mp read
  obtain ⟨_, sign, zeros, signed, rfl⟩ := readCount?_eq_some.mp read
  refine List.forall_mem_append.mpr ⟨fun c member => .inl ?_, fun c member => ?_⟩
  · rcases signed with rfl | rfl
    · exact absurd member List.not_mem_nil
    · exact List.mem_singleton.mp member
  · exact .inr (isDigit_zeros c member)

end Micromag

/-!
## Decimals are read from their text

The text of a decimal with an exponent stands for exactly this decimal: as many of its digits stand
behind the point as the exponent of the leading digit is larger than that of the last one.
-/

namespace Micromag

variable {c : Char} {text rest : List Char}

/-- A digit is no sign. -/
theorem splitSign_of_isDigit (digit : isDigit c = true) :
    splitSign (c :: rest) = (false, c :: rest) := by
  have noMinus : c ≠ '-' := by
    rintro rfl
    cases digit
  have noPlus : c ≠ '+' := by
    rintro rfl
    cases digit
  unfold splitSign
  split
  · rename_i same
    exact absurd (List.cons.inj same).1 noMinus
  · rename_i same
    exact absurd (List.cons.inj same).1 noPlus
  · rfl

/-- The digits of a natural number begin with a digit. -/
theorem exists_naturalDigits (n : Nat) :
    ∃ c rest, naturalDigits n = c :: rest ∧ isDigit c = true ∧ ∀ c ∈ rest, isDigit c = true := by
  have digits := isDigit_naturalDigits (n := n)
  cases parts : naturalDigits n with
  | nil => exact absurd parts (naturalDigits_ne_nil n)
  | cons c rest =>
    rw [parts] at digits
    obtain ⟨first, others⟩ := List.forall_mem_cons.mp digits
    exact ⟨c, rest, rfl, first, others⟩

/-- The digits of a natural number have no sign. -/
theorem splitSign_naturalDigits (n : Nat) :
    splitSign (naturalDigits n) = (false, naturalDigits n) := by
  obtain ⟨c, rest, parts, first, -⟩ := exists_naturalDigits n
  rw [parts, splitSign_of_isDigit first]

variable {negative : Bool} {n : Nat}

/-- The digits behind the mark and a sign are the exponent. -/
theorem readExponent?_of_splitSign (split : splitSign text = (negative, naturalDigits n)) :
    readExponent? ('e' :: text) = some (if negative then -(n : Int) else n) := by
  have some : (naturalDigits n).isEmpty = false :=
    List.isEmpty_eq_false_iff.mpr (naturalDigits_ne_nil n)
  have digits : (naturalDigits n).all isDigit = true :=
    List.all_eq_true.mpr isDigit_naturalDigits
  have mark : 'e' = 'e' ∨ 'e' = 'E' := .inl rfl
  unfold readExponent?
  dsimp only
  rw [if_pos mark, split]
  dsimp only
  rw [some, digits, natOfDigits_naturalDigits]
  rfl

/-- An exponent is read from its digits, in front of which a plus may stand. -/
theorem readExponent?_integerDigits (exponentSign : Bool) (exponent : Int) :
    readExponent? ('e' ::
      ((if exponentSign && 0 ≤ exponent then ['+'] else []) ++ integerDigits exponent)) =
      some exponent := by
  cases exponent with
  | ofNat n =>
    have plus : splitSign ('+' :: naturalDigits n) = (false, naturalDigits n) := rfl
    split
    · exact readExponent?_of_splitSign plus
    · exact readExponent?_of_splitSign (splitSign_naturalDigits n)
  | negSucc n =>
    have minus : splitSign ('-' :: naturalDigits (n + 1)) = (true, naturalDigits (n + 1)) := rfl
    have negative : ¬(exponentSign && decide (0 ≤ Int.negSucc n)) = true := by simp
    rw [if_neg negative]
    exact readExponent?_of_splitSign minus

/-- What begins with a character that is no digit. -/
theorem stop_cons (stop : isDigit c = false) : ∀ first ∈ (c :: rest).head?, isDigit first = false :=
  fun _ member => Option.mem_some.mp member ▸ stop

/-- Digits are taken up to a character that is none. -/
theorem takeWhile_isDigit (digits : ∀ c ∈ text, isDigit c = true)
    (stop : ∀ first ∈ rest.head?, isDigit first = false) :
    (text ++ rest).takeWhile isDigit = text := by
  rw [List.takeWhile_append_of_pos digits]
  cases rest with
  | nil => exact List.append_nil text
  | cons c rest =>
    rw [List.takeWhile_cons_of_neg (by simp [stop c rfl]), List.append_nil]

/-- Behind the digits stands what begins with a character that is none. -/
theorem dropWhile_isDigit (digits : ∀ c ∈ text, isDigit c = true)
    (stop : ∀ first ∈ rest.head?, isDigit first = false) :
    (text ++ rest).dropWhile isDigit = rest := by
  rw [List.dropWhile_append_of_pos digits]
  cases rest with
  | nil => rfl
  | cons c rest => rw [List.dropWhile_cons_of_neg (by simp [stop c rfl])]

variable {whole fraction : List Char} {exponent : Int}

/-- Digits with an exponent are the whole decimal. -/
theorem readDecimal?_whole (some : whole ≠ []) (digits : ∀ c ∈ whole, isDigit c = true)
    (read : readExponent? ('e' :: rest) = .some exponent) :
    readDecimal? (whole ++ 'e' :: rest) = .some ⟨natOfDigits whole, exponent⟩ := by
  have mark : ∀ first ∈ ('e' :: rest).head?, isDigit first = false := stop_cons (by decide)
  have filled : (whole.isEmpty && ([] : List Char).isEmpty) = false := by
    rw [List.isEmpty_eq_false_iff.mpr some]
    rfl
  unfold readDecimal?
  rw [takeWhile_isDigit digits mark, dropWhile_isDigit digits mark]
  show (if (whole.isEmpty && ([] : List Char).isEmpty) = true then none else
    (readExponent? ('e' :: rest)).map fun exponent =>
      (⟨natOfDigits (whole ++ []), exponent - (0 : Nat)⟩ : Decimal)) = _
  rw [filled, read, List.append_nil]
  exact congrArg (fun e => Option.some (⟨natOfDigits whole, e⟩ : Decimal)) (Int.sub_zero exponent)

/-- Digits behind a point belong to the decimal and lower its exponent. -/
theorem readDecimal?_point (some : whole ≠ []) (digits : ∀ c ∈ whole, isDigit c = true)
    (others : ∀ c ∈ fraction, isDigit c = true)
    (stop : ∀ first ∈ rest.head?, isDigit first = false)
    (read : readExponent? rest = .some exponent) :
    readDecimal? (whole ++ '.' :: (fraction ++ rest)) =
      .some ⟨natOfDigits (whole ++ fraction), exponent - fraction.length⟩ := by
  have point : ∀ first ∈ ('.' :: (fraction ++ rest)).head?, isDigit first = false :=
    stop_cons (by decide)
  have filled : (whole.isEmpty && fraction.isEmpty) = false := by
    rw [List.isEmpty_eq_false_iff.mpr some]
    rfl
  unfold readDecimal?
  rw [takeWhile_isDigit digits point, dropWhile_isDigit digits point]
  show (if (whole.isEmpty && ((fraction ++ rest).takeWhile isDigit).isEmpty) = true then none
    else (readExponent? ((fraction ++ rest).dropWhile isDigit)).map fun exponent =>
      (⟨natOfDigits (whole ++ (fraction ++ rest).takeWhile isDigit),
        exponent - ((fraction ++ rest).takeWhile isDigit).length⟩ : Decimal)) = _
  rw [takeWhile_isDigit others stop, dropWhile_isDigit others stop, filled, read]
  rfl

/-- A decimal is read from its text with an exponent. -/
theorem readDecimal?_scientific (d : Decimal) (exponentSign : Bool) :
    readDecimal? (d.scientific exponentSign) = some d := by
  obtain ⟨c, fraction, parts, first, others⟩ := exists_naturalDigits d.digits
  have digits := natOfDigits_naturalDigits d.digits
  have exponent := readExponent?_integerDigits exponentSign d.leading
  have places : d.leading - fraction.length = d.exponent := by
    unfold Decimal.leading
    rw [parts, List.length_cons]
    omega
  have whole : ∀ c' ∈ [c], isDigit c' = true := fun _ member =>
    List.mem_singleton.mp member ▸ first
  unfold Decimal.scientific
  dsimp only
  rw [parts] at digits ⊢
  generalize (if exponentSign && 0 ≤ d.leading then ['+'] else []) ++ integerDigits d.leading = tail
    at exponent ⊢
  cases fraction with
  | nil =>
    have single : d.leading = d.exponent := (Int.sub_zero _).symm.trans places
    have read := readDecimal?_whole (List.cons_ne_nil c []) whole exponent
    rw [digits, single] at read
    exact read
  | cons second fraction =>
    have joined : natOfDigits ([c] ++ second :: fraction) = d.digits := digits
    have read := readDecimal?_point (List.cons_ne_nil c []) whole others (stop_cons (by decide))
      exponent
    rw [joined, places] at read
    exact read

end Micromag
