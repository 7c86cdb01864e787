/-
Module: Calculator.Word
Purpose: Signed 32-bit arithmetic on unbounded integers. Every result of the calculator is a word: an
  integer in `[-2^31, 2^31 - 1]`, read as a residue modulo `2^32`.
Main exports: Word.InRange, Word.wrap, Word.wrap_eq_bmod, Word.divide?, Word.divide?_eq
-/

namespace Calculator.Word

/-- `v` can be held in one word: it lies in `[-2^31, 2^31 - 1]`. -/
def InRange (v : Int) : Prop := -2147483648 ≤ v ∧ v ≤ 2147483647

instance (v : Int) : Decidable (InRange v) := inferInstanceAs (Decidable (_ ∧ _))

/-- The word congruent to `v` modulo `2^32`: moved up by half of that, reduced, and moved back. -/
def wrap (v : Int) : Int := (v + 2147483648) % 4294967296 - 2147483648

/-- The quotient, wrapped; there is none by zero. The absolute values are divided with the remainder thrown
    away, and the result is negated if one of the two numbers is negative and the other is not. -/
def divide? (left right : Int) : Option Int :=
  if right = 0 then none
  else
    let quotient := Int.fdiv left.natAbs right.natAbs
    some (wrap (if (decide (left < 0)) != (decide (right < 0)) then -quotient else quotient))

/-- Wrapping takes the balanced remainder, the smallest one at the lower end. -/
theorem wrap_eq_bmod (v : Int) : wrap v = v.bmod 4294967296 := by
  unfold wrap Int.bmod
  dsimp only
  split <;> omega

/-- Wrapping always lands in a word. -/
theorem wrap_inRange (v : Int) : InRange (wrap v) := by
  unfold InRange wrap
  omega

/-- A word is left alone. -/
theorem wrap_of_inRange {v : Int} (h : InRange v) : wrap v = v := by
  unfold InRange at h
  unfold wrap
  omega

/-- Wrapping twice is wrapping once. -/
@[simp] theorem wrap_wrap (v : Int) : wrap (wrap v) = wrap v :=
  wrap_of_inRange (wrap_inRange v)

/-- Wrapping respects negation, sums, differences and products, so it may as well come last. -/
@[simp] theorem wrap_neg (v : Int) : wrap (-wrap v) = wrap (-v) := by
  simp only [wrap_eq_bmod, Int.bmod_neg_bmod]

@[simp] theorem wrap_add (left right : Int) : wrap (wrap left + wrap right) = wrap (left + right) := by
  simp only [wrap_eq_bmod, ← Int.add_bmod]

@[simp] theorem wrap_sub (left right : Int) : wrap (wrap left - wrap right) = wrap (left - right) := by
  simp only [wrap_eq_bmod, ← Int.sub_bmod]

@[simp] theorem wrap_mul (left right : Int) : wrap (wrap left * wrap right) = wrap (left * right) := by
  simp only [wrap_eq_bmod, ← Int.mul_bmod]

/-- Dividing the absolute values and putting the sign right comes to truncating toward zero. -/
theorem signed_fdiv_natAbs (left right : Int) :
    (if (decide (left < 0)) != (decide (right < 0)) then -Int.fdiv left.natAbs right.natAbs
      else Int.fdiv left.natAbs right.natAbs) = left.tdiv right := by
  have magnitudes : Int.fdiv left.natAbs right.natAbs = (left.natAbs : Int).tdiv right.natAbs := by
    rw [Int.fdiv_eq_ediv_of_nonneg _ (Int.natCast_nonneg _), Int.tdiv_eq_ediv_of_nonneg (Int.natCast_nonneg _)]
  have absolute : ∀ v : Int, (v.natAbs : Int) = if v < 0 then -v else v := by
    intro v
    split <;> omega
  rw [magnitudes, absolute, absolute]
  by_cases leftSign : left < 0 <;> by_cases rightSign : right < 0 <;> simp [leftSign, rightSign]

/-- Division truncates toward zero, and wraps the quotient. -/
theorem divide?_eq (left right : Int) :
    divide? left right = if right = 0 then none else some (wrap (left.tdiv right)) := by
  unfold divide?
  dsimp only
  rw [signed_fdiv_natAbs]

end Calculator.Word
