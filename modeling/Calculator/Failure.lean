/-
Module: Calculator.Failure
Purpose: What breaks a run off. A mistake in an expression or in a setting is reported, and is no failure;
  these are the few things that leave nothing to go on with.
Main exports: Failure
-/

namespace Calculator

/-- Why a run breaks off: bytes that are no UTF-8, a path or variable that the system cannot take, an
    expression that is no text, or an integer with too many digits to be written out. -/
inductive Failure where
  | undecodable
  | unusable
  | notText
  | tooManyDigits
deriving DecidableEq, Repr, Inhabited

end Calculator
