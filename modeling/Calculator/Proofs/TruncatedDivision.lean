/-
Module: Calculator.Proofs.TruncatedDivision
Purpose: Which quotient a division takes, and which word stands for it. Many quotients leave less than the divisor
  over; one of them leaves nothing or something of the sign of the dividend (`IsQuotient`), and division takes that
  one. One word is congruent to a given integer, and wrapping gives that one. The quotient of two words is a word
  itself, but for the one of the least word by -1.
Main exports: Word.IsQuotient, Word.isQuotient_tdiv, Word.IsQuotient.unique, Word.wrap_eq_iff,
  Word.inRange_tdiv_iff, division_truncates
-/
import Mathlib.Data.Int.ModEq
import Calculator.Eval

namespace Calculator

namespace Word

/-! ### Quotients -/

/-- `quotient` is that of `left` by `right`: what it leaves over is smaller than the divisor, and is nothing or has
    the sign of the dividend. -/
structure IsQuotient (left right quotient : Int) : Prop where
  small : (left - quotient * right).natAbs < right.natAbs
  sign : left - quotient * right = 0 ∨ (left - quotient * right).sign = left.sign

section Quotients

variable {left right quotient other : Int}

theorem IsQuotient.ne_zero (divides : IsQuotient left right quotient) : right ≠ 0 := by
  rintro rfl
  exact Nat.not_lt_zero _ divides.small

/-- Truncation toward zero leaves the remainder that goes with it. -/
theorem isQuotient_tdiv (nonzero : right ≠ 0) : IsQuotient left right (left.tdiv right) := by
  have remains : left - left.tdiv right * right = left.tmod right := by rw [Int.tmod_def, Int.mul_comm]
  constructor
  · rw [remains, Int.natAbs_tmod]
    exact Nat.mod_lt _ (Int.natAbs_pos.mpr nonzero)
  · rw [remains, Int.sign_tmod]
    by_cases whole : right ∣ left
    · exact Or.inl (Int.tmod_eq_zero_of_dvd whole)
    · exact Or.inr (if_neg whole)

/-- What is left over lies on the side of zero that the dividend is on. -/
theorem IsQuotient.side (divides : IsQuotient left right quotient) :
    (0 ≤ left → 0 ≤ left - quotient * right) ∧ (left ≤ 0 → left - quotient * right ≤ 0) := by
  rcases divides.sign with none | same
  · rw [none]
    exact ⟨fun _ => Int.le_refl 0, fun _ => Int.le_refl 0⟩
  · constructor
    · intro positive
      rwa [← Int.sign_nonneg_iff, same, Int.sign_nonneg_iff]
    · intro negative
      rwa [← Int.sign_nonpos_iff, same, Int.sign_nonpos_iff]

/-- Two quotients would differ by a multiple of the divisor that is smaller than it. -/
theorem IsQuotient.unique (first : IsQuotient left right quotient) (second : IsQuotient left right other) :
    quotient = other := by
  have apart : (left - other * right) - (left - quotient * right) = (quotient - other) * right := by
    rw [Int.sub_mul]
    omega
  have multiple : right ∣ (left - other * right) - (left - quotient * right) := apart ▸ Int.dvd_mul_left _ _
  have close : ((left - other * right) - (left - quotient * right)).natAbs < right.natAbs := by
    have small := first.small
    have small' := second.small
    rcases Int.le_total 0 left with positive | negative
    · have side := first.side.1 positive
      have side' := second.side.1 positive
      omega
    · have side := first.side.2 negative
      have side' := second.side.2 negative
      omega
  rw [Int.eq_zero_of_dvd_of_natAbs_lt_natAbs multiple close] at apart
  rcases Int.mul_eq_zero.mp apart.symm with same | zero
  · exact Int.sub_eq_zero.mp same
  · exact absurd zero first.ne_zero

end Quotients

/-! ### Words -/

/-- Wrapping gives the one word that is congruent to an integer. -/
theorem wrap_eq_iff {v word : Int} : wrap v = word ↔ InRange word ∧ word ≡ v [ZMOD 2 ^ 32] := by
  unfold Int.ModEq
  constructor
  · rintro rfl
    refine ⟨wrap_inRange v, ?_⟩
    unfold wrap
    omega
  · rintro ⟨fits, congruent⟩
    unfold wrap
    unfold InRange at fits
    omega

/-- Of all quotients of words one is no word. -/
theorem inRange_tdiv_iff {left right : Int} (word : InRange left) (nonzero : right ≠ 0) :
    InRange (left.tdiv right) ↔ ¬(left = -2147483648 ∧ right = -1) := by
  have size : (left.tdiv right).natAbs = left.natAbs / right.natAbs := Int.natAbs_tdiv left right
  unfold InRange at *
  constructor
  · rintro fits ⟨rfl, rfl⟩
    exact absurd fits (by decide)
  · intro notBoth
    obtain rfl | rfl | large : right = 1 ∨ right = -1 ∨ 2 ≤ right.natAbs := by omega
    · rwa [Int.tdiv_one]
    · rw [Int.tdiv_neg, Int.tdiv_one]
      omega
    · -- any other divisor halves the dividend at least
      have half : left.natAbs / right.natAbs ≤ left.natAbs / 2 := Nat.div_le_div_left large (by decide)
      omega

end Word

theorem ArithOp.apply_div {left right : Int} (nonzero : right ≠ 0) :
    ArithOp.div.apply left right = .ok (Word.wrap (left.tdiv right)) := by
  rw [apply, Word.divide?_eq, if_neg nonzero]

theorem ArithOp.apply_div_eq_error_iff {left right : Int} :
    ArithOp.div.apply left right = .error .divisionByZero ↔ right = 0 := by
  constructor
  · intro failed
    by_contra nonzero
    rw [apply_div nonzero] at failed
    cases failed
  · rintro rfl
    rfl

/-- **Division.** Only zero is refused as a divisor. Any other one, of any size, has exactly one quotient that leaves
    less than the divisor over, with the sign of the dividend or nothing; division gives the word for it, and the
    word for an integer is the only one congruent to it modulo `2^32`. Of two words the quotient is given as it is,
    but for `-2^31` by `-1`, which gives `-2^31`. -/
theorem division_truncates (left right : Int) :
    (ArithOp.div.apply left right = .error .divisionByZero ↔ right = 0) ∧
    (right ≠ 0 → ∃ quotient, ArithOp.div.apply left right = .ok (Word.wrap quotient) ∧
      Word.IsQuotient left right quotient ∧ ∀ other, Word.IsQuotient left right other → other = quotient) ∧
    (∀ v word, Word.wrap v = word ↔ Word.InRange word ∧ word ≡ v [ZMOD 2 ^ 32]) ∧
    (Word.InRange left → Word.InRange right → ∀ quotient, Word.IsQuotient left right quotient →
      ArithOp.div.apply left right = .ok (if left = -2 ^ 31 ∧ right = -1 then -2 ^ 31 else quotient)) := by
  refine ⟨ArithOp.apply_div_eq_error_iff, ?_, fun _ _ => Word.wrap_eq_iff, ?_⟩
  · intro nonzero
    have divides : Word.IsQuotient left right (left.tdiv right) := Word.isQuotient_tdiv nonzero
    exact ⟨left.tdiv right, ArithOp.apply_div nonzero, divides, fun other also => also.unique divides⟩
  · intro word _ quotient divides
    obtain rfl := divides.unique (Word.isQuotient_tdiv divides.ne_zero)
    rw [ArithOp.apply_div divides.ne_zero]
    by_cases least : left = -2 ^ 31 ∧ right = -1
    · obtain ⟨rfl, rfl⟩ := least
      rfl
    · rw [if_neg least, Word.wrap_of_inRange ((Word.inRange_tdiv_iff word divides.ne_zero).mpr least)]

/-- A dividend beyond the words whose quotient is beyond them too, a negative dividend, and the one quotient of words
    that is no word. -/
theorem division_truncates_least :
    ArithOp.div.apply (-30000000001) 7 = .ok 9253011 ∧ ArithOp.div.apply (-7) 2 = .ok (-3) ∧
      ArithOp.div.apply (-2 ^ 31) (-1) = .ok (-2 ^ 31) := by
  have beyond : Word.IsQuotient (-30000000001) 7 (-4285714285) := ⟨by decide, by decide⟩
  have negative : Word.IsQuotient (-7) 2 (-3) := ⟨by decide, by decide⟩
  have least : Word.IsQuotient (-2 ^ 31) (-1) (2 ^ 31) := ⟨by decide, by decide⟩
  obtain ⟨quotient, divided, -, only⟩ := (division_truncates (-30000000001) 7).2.1 (by decide)
  obtain rfl := only _ beyond
  have wrapped : Word.wrap (-4285714285) = 9253011 := by decide
  rw [wrapped] at divided
  have halved := (division_truncates (-7) 2).2.2.2 (by decide) (by decide) _ negative
  have overflown := (division_truncates (-2 ^ 31) (-1)).2.2.2 (by decide) (by decide) _ least
  exact ⟨divided, halved, overflown⟩

end Calculator
