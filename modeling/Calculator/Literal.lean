/-
Module: Calculator.Literal
Purpose: Decimal literals. A literal is a non-empty run of the digits 0 to 9 whose value is at most
  `2^31 - 1`. Leading zeros are free, so the value is only computed once at most ten digits are left;
  a longer significant part is out of range whatever its digits are.
Main exports: Literal.maxValue, Literal.digitsValue, Literal.value?
-/

namespace Calculator.Literal

/-- The largest literal, `2^31 - 1`. No literal has a larger value. -/
def maxValue : Nat := 2147483647

/-- How many digits `maxValue` has. -/
def maxDigits : Nat := 10

/-- The value of one digit. -/
def digitValue (c : Char) : Nat := c.toNat - '0'.toNat

/-- The positional value of a sequence of digits, most significant first. -/
def digitsValue (digits : List Char) : Nat :=
  digits.foldl (fun value c => 10 * value + digitValue c) 0

/-- The value of a literal, if `raw` is one. -/
def value? (raw : List Char) : Option Nat :=
  if raw.isEmpty || !raw.all Char.isDigit then none
  else
    let significant := raw.dropWhile (· == '0')
    if maxDigits < significant.length then none
    else if digitsValue significant ≤ maxValue then some (digitsValue significant)
    else none

/-- No literal exceeds the largest one. -/
theorem value?_le {raw : List Char} {value : Nat} (h : value? raw = some value) : value ≤ maxValue := by
  unfold value? at h
  split at h
  · cases h
  · dsimp only at h
    split at h
    · cases h
    · split at h
      · rename_i bound
        cases h
        exact bound
      · cases h

end Calculator.Literal
