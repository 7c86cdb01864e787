/-
Module: Calculator.Proofs.Literals
Purpose: The value of a literal is the positional value of all its digits. Zeros in front do not change the
  value, and a numeral without them that has more than ten digits exceeds every word, so looking at the
  significant digits only loses nothing. Conversely a numeral is the decimal digits of its value behind zeros.
Main exports: Literal.digitsValue_dropZeros, Literal.pow_le_digitsValue, Literal.value?_of_digits,
  Literal.value?_eq_some_iff, Literal.value?_numeral, Literal.exists_zeros
-/
import Mathlib.Algebra.Group.Nat.Defs
import Calculator.Literal

namespace Calculator.Literal

theorem digitsValue_eq (digits : List Char) : digitsValue digits = Nat.ofDigitChars 10 digits 0 := rfl

/-- Zeros in front do not count. -/
theorem digitsValue_dropZeros (digits : List Char) :
    digitsValue (digits.dropWhile (· == '0')) = digitsValue digits := by
  induction digits with
  | nil => rfl
  | cons digit rest ih =>
      rw [List.dropWhile_cons]
      split
      · rename_i zero
        rw [ih, eq_of_beq zero]
        rfl
      · rfl

/-- A numeral that does not start with a zero is at least the power of ten of its length. -/
theorem pow_le_digitsValue {digit : Char} (isDigit : digit.isDigit = true) (notZero : digit ≠ '0')
    (rest : List Char) : 10 ^ rest.length ≤ digitsValue (digit :: rest) := by
  have low := (Char.isDigit_iff_toNat.mp isDigit).1
  have differs : digit.toNat ≠ '0'.toNat := fun same => notZero (Char.toNat_inj.mp same)
  have positive : 1 ≤ digit.toNat - '0'.toNat := by omega
  calc 10 ^ rest.length
      ≤ 10 ^ rest.length * (digit.toNat - '0'.toNat) := Nat.le_mul_of_pos_right _ positive
    _ ≤ 10 ^ rest.length * (digit.toNat - '0'.toNat) + Nat.ofDigitChars 10 rest 0 := Nat.le_add_right _ _
    _ = Nat.ofDigitChars 10 rest (digit.toNat - '0'.toNat) := Nat.ofDigitChars_eq_ofDigitChars_zero.symm
    _ = digitsValue (digit :: rest) := by
      rw [digitsValue_eq, Nat.ofDigitChars_cons, Nat.mul_zero, Nat.zero_add]

/-- The first significant digit is a digit of the numeral other than zero. -/
theorem first_significant {raw rest : List Char} {digit : Char}
    (significant : raw.dropWhile (· == '0') = digit :: rest) : digit ∈ raw ∧ digit ≠ '0' := by
  constructor
  · apply (List.dropWhile_suffix (· == '0')).subset
    rw [significant]
    exact List.mem_cons_self
  · have starts := List.head?_dropWhile_not (· == '0') raw
    rw [significant] at starts
    simpa using starts

/-- No numeral whose value fits is too long without its zeros. -/
theorem length_significant_le {raw : List Char} (digits : raw.all Char.isDigit = true)
    (fits : digitsValue raw ≤ maxValue) : (raw.dropWhile (· == '0')).length ≤ maxDigits := by
  rw [← digitsValue_dropZeros] at fits
  cases significant : raw.dropWhile (· == '0') with
  | nil => exact Nat.zero_le _
  | cons digit rest =>
      obtain ⟨member, notZero⟩ := first_significant significant
      have isDigit := List.all_eq_true.mp digits digit member
      rw [significant] at fits
      have bound : 10 ^ rest.length < 10 ^ maxDigits :=
        calc 10 ^ rest.length
            ≤ digitsValue (digit :: rest) := pow_le_digitsValue isDigit notZero rest
          _ ≤ maxValue := fits
          _ < 10 ^ maxDigits := by decide
      exact (Nat.pow_lt_pow_iff_right (by decide)).mp bound

/-- A numeral whose value fits is a literal of that value. -/
theorem value?_of_digits {raw : List Char} (nonempty : raw ≠ []) (digits : raw.all Char.isDigit = true)
    (fits : digitsValue raw ≤ maxValue) : value? raw = some (digitsValue raw) := by
  have short := length_significant_le digits fits
  have guard : ¬(raw.isEmpty || !raw.all Char.isDigit) = true := by
    simp [nonempty, digits]
  rw [value?, if_neg guard]
  dsimp only
  rw [if_neg (Nat.not_lt_of_le short), digitsValue_dropZeros, if_pos fits]

/-- A literal has digits only, and its value is their positional value. -/
theorem value?_eq_some_iff {raw : List Char} {value : Nat} :
    value? raw = some value ↔
      raw ≠ [] ∧ raw.all Char.isDigit = true ∧ digitsValue raw ≤ maxValue ∧ digitsValue raw = value := by
  constructor
  · intro read
    have fits := value?_le read
    rw [value?] at read
    split at read
    · cases read
    · rename_i guard
      rw [Bool.or_eq_true, not_or, Bool.not_eq_true, Bool.not_eq_true, Bool.not_eq_false'] at guard
      dsimp only at read
      split at read
      · cases read
      · split at read
        · cases read
          rw [digitsValue_dropZeros] at fits
          exact ⟨List.isEmpty_eq_false_iff.mp guard.1, guard.2, fits, (digitsValue_dropZeros raw).symm⟩
        · cases read
  · rintro ⟨nonempty, digits, fits, rfl⟩
    exact value?_of_digits nonempty digits fits

theorem all_isDigit_numeral (zeros value : Nat) :
    (List.replicate zeros '0' ++ (toString value).toList).all Char.isDigit = true := by
  rw [List.all_append, Nat.toString_eq_repr, Nat.toList_repr, Bool.and_eq_true]
  constructor
  · rw [List.all_replicate]
    split <;> rfl
  · exact List.all_eq_true.mpr fun c member => Nat.isDigit_of_mem_toDigits (by decide) (by decide) member

/-- The decimal digits of a number, after any number of zeros, are a literal of that number. -/
theorem value?_numeral (zeros : Nat) {value : Nat} (fits : value ≤ maxValue) :
    value? (List.replicate zeros '0' ++ (toString value).toList) = some value := by
  have same : digitsValue (List.replicate zeros '0' ++ (toString value).toList) = value := by
    rw [digitsValue_eq, Nat.ofDigitChars_append, Nat.ofDigitChars_replicate_zero, Nat.mul_zero,
      Nat.toString_eq_repr, Nat.toList_repr, Nat.ofDigitChars_ten_toDigits]
  have nonempty : List.replicate zeros '0' ++ (toString value).toList ≠ [] := by
    rw [Nat.toString_eq_repr, Nat.toList_repr]
    exact List.append_ne_nil_of_right_ne_nil _ Nat.toDigits_ne_nil
  rw [value?_of_digits nonempty (all_isDigit_numeral zeros value) (same.symm ▸ fits), same]

/-! ### Numerals are written back -/

/-- A digit is the one that its value is written with. -/
theorem digitChar_digitValue {digit : Char} (isDigit : digit.isDigit = true) :
    digitValue digit < 10 ∧ Nat.digitChar (digitValue digit) = digit := by
  obtain ⟨low, high⟩ : 48 ≤ digit.toNat ∧ digit.toNat ≤ 57 := Char.isDigit_iff_toNat.mp isDigit
  have value : digitValue digit = digit.toNat - 48 := rfl
  have small : digitValue digit < 10 := by omega
  refine ⟨small, Char.toNat_inj.mp ?_⟩
  rw [Nat.toNat_digitChar_of_lt_ten small]
  omega

/-- Digits behind a positive number are the last ones of the number that they make of it. -/
theorem toDigits_ofDigitChars {digits : List Char} (known : digits.all Char.isDigit = true) {value : Nat}
    (positive : 0 < value) :
    Nat.toDigits 10 (Nat.ofDigitChars 10 digits value) = Nat.toDigits 10 value ++ digits := by
  induction digits generalizing value with
  | nil => simp
  | cons digit rest ih =>
      obtain ⟨isDigit, known⟩ : digit.isDigit = true ∧ rest.all Char.isDigit = true := by simpa using known
      obtain ⟨small, same⟩ := digitChar_digitValue isDigit
      have next := Nat.toDigits_append_toDigits (by decide) positive small
      rw [Nat.toDigits_of_lt_base small, same] at next
      calc Nat.toDigits 10 (Nat.ofDigitChars 10 rest (10 * value + digitValue digit))
          = Nat.toDigits 10 (10 * value + digitValue digit) ++ rest := ih known (by omega)
        _ = Nat.toDigits 10 value ++ digit :: rest := by simp [← next]

/-- A numeral is the decimal digits of its value, behind any number of zeros. -/
theorem exists_zeros {raw : List Char} (nonempty : raw ≠ []) (digits : raw.all Char.isDigit = true) :
    ∃ zeros, raw = List.replicate zeros '0' ++ (toString (digitsValue raw)).toList := by
  induction raw with
  | nil => exact absurd rfl nonempty
  | cons digit rest ih =>
      obtain ⟨isDigit, known⟩ : digit.isDigit = true ∧ rest.all Char.isDigit = true := by simpa using digits
      by_cases zero : digit = '0'
      · cases rest with
        | nil => exact ⟨0, by simp [zero, digitsValue, digitValue]⟩
        | cons next rest =>
            obtain ⟨zeros, same⟩ := ih (List.cons_ne_nil _ _) known
            have value : digitsValue (digit :: next :: rest) = digitsValue (next :: rest) := by rw [zero]; rfl
            refine ⟨zeros + 1, ?_⟩
            rw [value, List.replicate_succ, List.cons_append, ← same, zero]
      · obtain ⟨small, same⟩ := digitChar_digitValue isDigit
        have positive : 0 < digitValue digit := by
          apply Nat.pos_of_ne_zero
          intro none
          rw [none] at same
          exact zero same.symm
        have first : Nat.toDigits 10 (digitValue digit) = [digit] := by
          rw [Nat.toDigits_of_lt_base small, same]
        have value : digitsValue (digit :: rest) = Nat.ofDigitChars 10 rest (digitValue digit) := by
          rw [digitsValue_eq, Nat.ofDigitChars_cons, Nat.mul_zero, Nat.zero_add, digitValue]
        refine ⟨0, ?_⟩
        simp [value, toDigits_ofDigitChars known positive, first]

end Calculator.Literal
