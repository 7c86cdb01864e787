/-
Module: Calculator.Parser.Error
Purpose: Why a sequence of tokens is no expression. Errors found at a token name it; errors found at the
  end of the text name no place.
Main exports: SyntaxError, SyntaxError.detail, SyntaxError.pos?
-/
import Calculator.Token

namespace Calculator

/-- The causes for which a text is no expression. -/
inductive SyntaxError where
  | unexpected (token : Token)
  | expectedOperand (got : Token)
  | expectedOperator (got : Token)
  | unmatchedClose (pos : Nat)
  | unmatchedOpen
  | missingOperand
  | missingOperator
  | emptyExpression
deriving DecidableEq, Repr, Inhabited

namespace SyntaxError

/-- The wording of a cause. -/
def detail : SyntaxError → String
  | unexpected token => s!"unexpected {token.describe}"
  | expectedOperand got => s!"expected an operand, got {got.describe}"
  | expectedOperator got => s!"expected an operator, got {got.describe}"
  | unmatchedClose pos => s!"unmatched ')' at pos {pos}"
  | unmatchedOpen => "unmatched '('"
  | missingOperand => "missing operand"
  | missingOperator => "missing operator"
  | emptyExpression => "empty expression"

/-- The offset that the wording names, if any. -/
def pos? : SyntaxError → Option Nat
  | unexpected token | expectedOperand token | expectedOperator token => some token.pos
  | unmatchedClose pos => some pos
  | unmatchedOpen | missingOperand | missingOperator | emptyExpression => none

end SyntaxError

end Calculator
