/-
Module: Calculator.Proofs.LiteralConversion
Purpose: Which texts are literals, said by plain conversion. A text of digits stands for the sum of what its digits
  are worth at their places, and it is a literal if that sum is no more than the largest one. A conversion that
  bounds the length of what it takes (`convertUpTo`) refuses long texts, so the plain way (`readPlainly`) can fail. The
  way that drops zeros in front and refuses what is longer than ten digits (`readSignificant`) converts ten digits
  at most: it never fails, and it says of every text what the plain way says where that one does not fail.
Main exports: Literal.IsNumeral, Literal.placeValue, Literal.convertUpTo, Literal.readPlainly,
  Literal.readSignificant, Literal.value?_eq, Literal.readSignificant_eq, Literal.readPlainly_eq,
  literals_are_fitting_numerals
-/
import Mathlib.Data.List.Induction
import Mathlib.Data.Nat.Digits.Defs
import Calculator.Proofs.Literals

namespace Calculator

namespace Literal

/-! ### Numerals and their values -/

/-- A text of decimal digits, with one of them at least. -/
structure IsNumeral (text : List Char) : Prop where
  nonempty : text ≠ []
  digits : ∀ c ∈ text, c.isDigit = true

theorem isNumeral_iff {text : List Char} : (!text.isEmpty && text.all Char.isDigit) = true ↔ IsNumeral text := by
  rw [Bool.and_eq_true, Bool.not_eq_true', List.isEmpty_eq_false_iff, List.all_eq_true]
  exact ⟨fun both => ⟨both.1, both.2⟩, fun numeral => ⟨numeral.nonempty, numeral.digits⟩⟩

instance (text : List Char) : Decidable (IsNumeral text) :=
  decidable_of_iff ((!text.isEmpty && text.all Char.isDigit) = true) isNumeral_iff

/-- What digits are worth together: each one its own value times the power of ten of its place, the places counted
    from the right. -/
def placeValue (digits : List Char) : Nat :=
  Nat.ofDigits 10 (digits.reverse.map digitValue)

/-- A digit put behind others moves them up by one place. -/
theorem placeValue_append_digit (digits : List Char) (digit : Char) :
    placeValue (digits ++ [digit]) = 10 * placeValue digits + digitValue digit := by
  rw [placeValue, List.reverse_append, List.reverse_singleton, List.singleton_append, List.map_cons,
    Nat.ofDigits_cons, Nat.add_comm, placeValue]

/-- Reading digit by digit from the left adds up the same places. -/
theorem digitsValue_eq_placeValue (digits : List Char) : digitsValue digits = placeValue digits := by
  -- from the right, where the places are counted from
  induction digits using List.reverseRecOn with
  | nil => rfl
  | append_singleton digits digit ih =>
      have step : digitsValue (digits ++ [digit]) = 10 * digitsValue digits + digitValue digit := by
        rw [digitsValue, List.foldl_append, List.foldl_cons, List.foldl_nil, digitsValue]
      rw [step, ih, placeValue_append_digit]

/-! ### Reading by conversion -/

/-- Conversion of a text to the number that it stands for. Numerals of up to `limit` digits are taken; any other
    text is refused and handed back. -/
def convertUpTo (limit : Nat) (text : List Char) : Except (List Char) Nat :=
  if IsNumeral text ∧ text.length ≤ limit then .ok (placeValue text) else .error text

/-- A number that is no more than the largest literal. -/
def fitting? (value : Nat) : Option Nat :=
  if value ≤ maxValue then some value else none

/-- The plain way to read a literal: what is no numeral is none, all digits are converted, and their value is
    compared. -/
def readPlainly (conversion : List Char → Except (List Char) Nat) (raw : List Char) :
    Except (List Char) (Option Nat) :=
  if IsNumeral raw then (conversion raw).map fitting? else .ok none

/-- The digits of a numeral from the first one other than zero, or one zero if there is none. -/
def significant (raw : List Char) : List Char :=
  match raw.dropWhile (· == '0') with
  | [] => ['0']
  | digit :: rest => digit :: rest

/-- The short way to read a literal: of a numeral only the significant digits are converted, and none of them if
    there are more than the largest literal has. -/
def readSignificant (conversion : List Char → Except (List Char) Nat) (raw : List Char) :
    Except (List Char) (Option Nat) :=
  if IsNumeral raw then
    if maxDigits < (significant raw).length then .ok none else (conversion (significant raw)).map fitting?
  else .ok none

theorem convertUpTo_of_short {limit : Nat} {text : List Char} (numeral : IsNumeral text)
    (short : text.length ≤ limit) : convertUpTo limit text = .ok (placeValue text) := by
  rw [convertUpTo, if_pos ⟨numeral, short⟩]

theorem convertUpTo_of_long {limit : Nat} {text : List Char} (long : limit < text.length) :
    convertUpTo limit text = .error text := by
  rw [convertUpTo, if_neg fun taken => Nat.not_lt_of_le taken.2 long]

/-! ### What is left without the zeros in front -/

theorem significant_cases (raw : List Char) :
    (raw.dropWhile (· == '0') = [] ∧ significant raw = ['0']) ∨
      (raw.dropWhile (· == '0') ≠ [] ∧ significant raw = raw.dropWhile (· == '0')) := by
  unfold significant
  cases raw.dropWhile (· == '0') with
  | nil => exact Or.inl ⟨rfl, rfl⟩
  | cons digit rest => exact Or.inr ⟨List.cons_ne_nil _ _, rfl⟩

/-- A numeral of zeros only would be left empty, and no conversion takes the empty text: this is what the one zero
    is for. -/
theorem isNumeral_significant {raw : List Char} (numeral : IsNumeral raw) : IsNumeral (significant raw) := by
  rcases significant_cases raw with ⟨-, zero⟩ | ⟨nonempty, same⟩
  · rw [zero]
    exact ⟨List.cons_ne_nil _ _, List.forall_mem_singleton.mpr rfl⟩
  · rw [same]
    have among : raw.dropWhile (· == '0') ⊆ raw := (List.dropWhile_suffix _).subset
    exact ⟨nonempty, fun c member => numeral.digits c (among member)⟩

/-- Zeros in front do not count, nor does the one zero that stands for a numeral of zeros. -/
theorem placeValue_significant (raw : List Char) : placeValue (significant raw) = placeValue raw := by
  rw [← digitsValue_eq_placeValue, ← digitsValue_eq_placeValue raw, ← digitsValue_dropZeros raw]
  rcases significant_cases raw with ⟨nothing, zero⟩ | ⟨-, same⟩
  · rw [zero, nothing]
    rfl
  · rw [same]

/-- What is longer than the largest literal without its zeros exceeds it, whatever its digits are. -/
theorem exceeds_of_long {raw : List Char} (numeral : IsNumeral raw)
    (long : maxDigits < (significant raw).length) : maxValue < placeValue raw := by
  by_contra fits
  rw [Nat.not_lt, ← digitsValue_eq_placeValue] at fits
  have short := length_significant_le (List.all_eq_true.mpr numeral.digits) fits
  rcases significant_cases raw with ⟨-, zero⟩ | ⟨-, same⟩
  · rw [zero] at long
    exact absurd long (by decide)
  · rw [same] at long
    exact Nat.not_lt_of_le short long

/-! ### Both ways agree -/

theorem fitting?_eq_some_iff {number value : Nat} :
    fitting? number = some value ↔ number = value ∧ value ≤ maxValue := by
  rw [fitting?, Option.ite_none_right_eq_some, Option.some.injEq]
  constructor
  · rintro ⟨fits, rfl⟩
    exact ⟨rfl, fits⟩
  · rintro ⟨rfl, fits⟩
    exact ⟨fits, rfl⟩

/-- A literal is a numeral whose value fits. -/
theorem value?_eq (raw : List Char) :
    value? raw = if IsNumeral raw then fitting? (placeValue raw) else none := by
  ext value
  rw [value?_eq_some_iff, List.all_eq_true, digitsValue_eq_placeValue, Option.ite_none_right_eq_some,
    fitting?_eq_some_iff]
  constructor
  · rintro ⟨nonempty, digits, fits, rfl⟩
    exact ⟨⟨nonempty, digits⟩, rfl, fits⟩
  · rintro ⟨⟨nonempty, digits⟩, rfl, fits⟩
    exact ⟨nonempty, digits, fits, rfl⟩

/-- No conversion that takes ten digits refuses what the short way hands to it. -/
theorem readSignificant_eq {limit : Nat} (enough : maxDigits ≤ limit) (raw : List Char) :
    readSignificant (convertUpTo limit) raw = .ok (value? raw) := by
  rw [readSignificant, value?_eq]
  by_cases numeral : IsNumeral raw
  · rw [if_pos numeral, if_pos numeral]
    by_cases long : maxDigits < (significant raw).length
    · -- refused unconverted, as its value would have been
      rw [if_pos long, fitting?, if_neg (Nat.not_le_of_lt (exceeds_of_long numeral long))]
    · have short : (significant raw).length ≤ limit := Nat.le_trans (Nat.le_of_not_lt long) enough
      rw [if_neg long, convertUpTo_of_short (isNumeral_significant numeral) short, placeValue_significant]
      rfl
  · rw [if_neg numeral, if_neg numeral]

/-- The plain way says the same of every text, but for numerals that the conversion refuses. -/
theorem readPlainly_eq (limit : Nat) (raw : List Char) :
    readPlainly (convertUpTo limit) raw =
      if IsNumeral raw ∧ limit < raw.length then .error raw else .ok (value? raw) := by
  rw [readPlainly, value?_eq]
  by_cases numeral : IsNumeral raw
  · rw [if_pos numeral, if_pos numeral]
    by_cases long : limit < raw.length
    · rw [if_pos ⟨numeral, long⟩, convertUpTo_of_long long]
      rfl
    · rw [if_neg fun both => long both.2, convertUpTo_of_short numeral (Nat.le_of_not_lt long)]
      rfl
  · rw [if_neg numeral, if_neg numeral, if_neg fun both => numeral both.1]

end Literal

/-- **Literals.** A text is read as a literal just if it is a numeral and the value of all its digits, those of
    leading zeros included, is at most `2^31 - 1`; it is read as that value, and any other text as none. To drop the
    zeros in front and to refuse on the length of the rest gives just this for texts of any length, by any conversion
    that takes ten digits. To convert the whole text and compare gives the same by a conversion that takes it, and
    fails by one that does not. -/
theorem literals_are_fitting_numerals (raw : List Char) :
    (∀ value, Literal.value? raw = some value ↔
      Literal.IsNumeral raw ∧ Literal.placeValue raw = value ∧ value ≤ 2 ^ 31 - 1) ∧
    (Literal.value? raw = none ↔ ¬(Literal.IsNumeral raw ∧ Literal.placeValue raw ≤ 2 ^ 31 - 1)) ∧
    (∀ limit, 10 ≤ limit →
      Literal.readSignificant (Literal.convertUpTo limit) raw = .ok (Literal.value? raw)) ∧
    ∀ limit, Literal.readPlainly (Literal.convertUpTo limit) raw =
      if Literal.IsNumeral raw ∧ limit < raw.length then .error raw else .ok (Literal.value? raw) := by
  have largest : Literal.maxValue = 2 ^ 31 - 1 := rfl
  have values : ∀ value, Literal.value? raw = some value ↔
      Literal.IsNumeral raw ∧ Literal.placeValue raw = value ∧ value ≤ 2 ^ 31 - 1 := by
    intro value
    rw [Literal.value?_eq, Option.ite_none_right_eq_some, Literal.fitting?_eq_some_iff, largest]
  refine ⟨values, ?_, ?_, fun limit => Literal.readPlainly_eq limit raw⟩
  · rw [Option.eq_none_iff_forall_ne_some]
    constructor
    · rintro refused ⟨numeral, fits⟩
      exact refused _ ((values _).mpr ⟨numeral, rfl, fits⟩)
    · intro notBoth value read
      obtain ⟨numeral, rfl, fits⟩ := (values value).mp read
      exact notBoth ⟨numeral, fits⟩
  · intro limit enough
    exact Literal.readSignificant_eq enough raw

/-- The largest literal behind zeros, with the least bound there is: the short way needs no more than its ten digits,
    the plain way fails on all fourteen. Zeros only are zero, and eleven digits without zeros in front are none. -/
theorem literals_are_fitting_numerals_behind_zeros :
    let largest := ['0', '0', '0', '0', '2', '1', '4', '7', '4', '8', '3', '6', '4', '7']
    let zeros := List.replicate 12 '0'
    let long := '1' :: List.replicate 10 '0'
    10 ≤ 10 ∧ Literal.value? largest = some 2147483647 ∧
      Literal.readSignificant (Literal.convertUpTo 10) largest = .ok (some 2147483647) ∧
      Literal.readPlainly (Literal.convertUpTo 10) largest = .error largest ∧
      Literal.readSignificant (Literal.convertUpTo 10) zeros = .ok (some 0) ∧
      Literal.readSignificant (Literal.convertUpTo 10) long = .ok none := by
  intro largest zeros long
  have enough : 10 ≤ 10 := Nat.le_refl 10
  obtain ⟨values, -, short, plain⟩ := literals_are_fitting_numerals largest
  obtain ⟨zeroValues, -, zeroShort, -⟩ := literals_are_fitting_numerals zeros
  obtain ⟨-, refused, longShort, -⟩ := literals_are_fitting_numerals long
  have read : Literal.value? largest = some 2147483647 := (values _).mpr (by decide)
  have readZero : Literal.value? zeros = some 0 := (zeroValues _).mpr (by decide)
  have readNone : Literal.value? long = none := refused.mpr (by decide)
  refine ⟨enough, read, ?_, ?_, ?_, ?_⟩
  · rw [short 10 enough, read]
  · rw [plain, if_pos (by decide)]
  · rw [zeroShort 10 enough, readZero]
  · rw [longShort 10 enough, readNone]

end Calculator
