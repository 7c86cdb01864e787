/-
Module: Calculator.Eval.Exact
Purpose: Evaluation on all integers. The same recursion as evaluation on words, except that nothing is ever
  wrapped and a quotient is only truncated. The two can differ in more than a wrap where a division meets an
  operand that is no word; `Expr.DivisionsFit` excludes that.
Main exports: Sign.applyExact, ArithOp.applyExact, Expr.evalExact, Expr.DivisionsFit
-/
import Calculator.Eval

namespace Calculator

/-- What a sign makes of an integer. -/
def Sign.applyExact : Sign → Int → Int
  | plus, value => value
  | minus, value => -value

/-- What an arithmetic operator makes of two integers. -/
def ArithOp.applyExact : ArithOp → Int → Int → Except EvalError Int
  | add, left, right => .ok (left + right)
  | sub, left, right => .ok (left - right)
  | mul, left, right => .ok (left * right)
  | div, left, right => if right = 0 then .error .divisionByZero else .ok (left.tdiv right)

namespace Expr

/-- The outcome of an expression on a store, on all integers. -/
def evalExact : Expr → Store → Outcome
  | const value, store => .value value store
  | var name, store => readVar name store
  | group inner, store => inner.evalExact store
  | sign op operand, store =>
    (operand.evalExact store).andThen fun value store => .value (op.applyExact value) store
  | binary (.arith op) left right, store =>
    (left.evalExact store).andThen fun a store =>
      (right.evalExact store).andThen fun b store => ⟨op.applyExact a b, store⟩
  | binary .assign target right, store =>
    (right.evalExact store).andThen fun value store => target.assignTo value store
  | unknownSign symbol operand, store =>
    (operand.evalExact store).andThen fun _ store => .fail (.unknownSign symbol) store
  | unknownBinary symbol left right, store =>
    (left.evalExact store).andThen fun _ store =>
      (right.evalExact store).andThen fun _ store => .fail (.unknownBinary symbol) store
  | unsupported, store => .fail .unsupported store

/-- Every division that evaluation on all integers carries out has two words as operands. Nodes that are
    not reached, because something before them fails, do not count, and neither does a division by zero:
    it has no quotient. -/
def DivisionsFit : Expr → Store → Prop
  | const _, _ | var _, _ | unsupported, _ => True
  | group inner, store => inner.DivisionsFit store
  | sign _ operand, store | unknownSign _ operand, store => operand.DivisionsFit store
  | binary .assign _ right, store => right.DivisionsFit store
  | unknownBinary _ left right, store =>
    left.DivisionsFit store ∧
      ((left.evalExact store).result.isOk → right.DivisionsFit (left.evalExact store).store)
  | binary (.arith op) left right, store =>
    left.DivisionsFit store ∧
      ((left.evalExact store).result.isOk → right.DivisionsFit (left.evalExact store).store) ∧
      ∀ a b, (left.evalExact store).result = .ok a →
        (right.evalExact (left.evalExact store).store).result = .ok b → op = .div → b ≠ 0 →
          Word.InRange a ∧ Word.InRange b

end Expr

end Calculator
