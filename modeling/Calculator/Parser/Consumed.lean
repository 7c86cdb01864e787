/-
Module: Calculator.Parser.Consumed
Purpose: What the two stacks of a parser stand for. Read together from the bottom, each operator between two
  operands takes one operand before it, and a sign or an open parenthesis takes none; what comes out is the
  sequence of symbols that the parser has accepted so far.
Main exports: Parser.before, Parser.consumed, Parser.Stacked, Parser.consumed_start
-/
import Calculator.Expr.Grammar
import Calculator.Parser

namespace Calculator.Parser

/-- The symbols up to the top of the operator stack, if the operands below it are as many as its operators
    take. -/
def before : List Pending → List Expr → Option (List Symbol)
  | [], [] => some []
  | [], _ :: _ => none
  | .openParen :: pending, operands => (before pending operands).map (· ++ [.openParen])
  | .op (.sign op) :: pending, operands => (before pending operands).map (· ++ [op.symbol])
  | .op (.between op) :: pending, left :: operands =>
    (before pending operands).map (· ++ left.symbols ++ [op.symbol])
  | .op (.between _) :: _, [] => none

/-- The symbols that the stacks stand for. One more operand is on top exactly after an operand. -/
def consumed (parser : Parser) : Option (List Symbol) :=
  if parser.expectOperand then before parser.pending parser.operands
  else
    match parser.operands with
    | [] => none
    | last :: operands => (before parser.pending operands).map (· ++ last.symbols)

/-- Of two operators that lie directly on one another, the upper one binds tighter. -/
def Stacked : List Pending → Prop
  | .op upper :: .op lower :: pending =>
    lower.rightPower < upper.leftPower ∧ Stacked (.op lower :: pending)
  | _ :: pending => Stacked pending
  | [] => True

/-- Nothing is consumed at the start. -/
@[simp] theorem consumed_start : start.consumed = some [] := rfl

end Calculator.Parser
