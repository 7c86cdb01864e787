/-
Module: Calculator.Proofs.Nesting
Purpose: The limit on nested evaluations. A limit that is not hit leaves no trace: within it an evaluation
  has the outcome that it has without any limit.
Main exports: Outcome.andThen_congr, Expr.evalWithin_eq_eval
-/
import Calculator.Eval

namespace Calculator

namespace Outcome

variable {outcome other : Outcome} {next last : Int → Store → Outcome} {error : EvalError}

theorem andThen_of_ok {value : Int} (h : outcome.result = .ok value) :
    outcome.andThen next = next value outcome.store := by
  unfold andThen
  rw [h]

theorem andThen_of_error (h : outcome.result = .error error) : outcome.andThen next = outcome := by
  unfold andThen
  rw [h]

theorem andThen_value (outcome : Outcome) : outcome.andThen value = outcome := by
  obtain ⟨result, store⟩ := outcome
  cases result with
  | ok value => rfl
  | error error => rfl

/-- What goes on from a value goes on alike when the rest agrees on that value. -/
theorem andThen_congr (same : outcome = other)
    (sameNext : ∀ value, outcome.result = .ok value →
      next value outcome.store = last value outcome.store) :
    outcome.andThen next = other.andThen last := by
  subst same
  cases h : outcome.result with
  | ok value => rw [andThen_of_ok h, andThen_of_ok h, sameNext value h]
  | error error => rw [andThen_of_error h, andThen_of_error h]

/-- An error that the whole does not end in is not that of its first half. -/
theorem ne_error_of_andThen (h : (outcome.andThen next).result ≠ .error error) :
    outcome.result ≠ .error error := by
  intro failed
  apply h
  rw [andThen_of_error failed, failed]

/-- An error that the whole does not end in is not that of what follows a value. -/
theorem ne_error_of_ok {value : Int} (h : (outcome.andThen next).result ≠ .error error)
    (first : outcome.result = .ok value) : (next value outcome.store).result ≠ .error error := by
  rw [andThen_of_ok first] at h
  exact h

end Outcome

namespace Expr

open Outcome

/-- An evaluation that does not hit the limit is the evaluation without one. -/
theorem evalWithin_eq_eval {limit : Nat} {tree : Expr} {store : Store}
    (inLimit : (evalWithin limit tree store).result ≠ .error .nestedTooDeeply) :
    evalWithin limit tree store = tree.eval store := by
  induction limit generalizing tree store with
  | zero => exact absurd rfl inLimit
  | succ limit ih =>
      cases tree with
      | const value => rfl
      | var name => rfl
      | unsupported => rfl
      | group inner => exact ih inLimit
      | sign op operand =>
          apply andThen_congr (ih (ne_error_of_andThen inLimit))
          intro value _
          rfl
      | unknownSign symbol operand =>
          apply andThen_congr (ih (ne_error_of_andThen inLimit))
          intro value _
          rfl
      | binary op left right =>
          cases op with
          | assign =>
              apply andThen_congr (ih (ne_error_of_andThen inLimit))
              intro value _
              rfl
          | arith op =>
              apply andThen_congr (ih (ne_error_of_andThen inLimit))
              intro a first
              have rightInLimit := ne_error_of_andThen (ne_error_of_ok inLimit first)
              apply andThen_congr (ih rightInLimit)
              intro b _
              rfl
      | unknownBinary symbol left right =>
          apply andThen_congr (ih (ne_error_of_andThen inLimit))
          intro a first
          have rightInLimit := ne_error_of_andThen (ne_error_of_ok inLimit first)
          apply andThen_congr (ih rightInLimit)
          intro b _
          rfl

end Expr

end Calculator
