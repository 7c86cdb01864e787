/-
Module: Calculator.Expr
Purpose: Expressions. Besides the forms that text can produce, a tree built by hand may hold operators that
  the language does not know and nodes that are no expression at all; evaluation refuses them, so they are
  forms of their own here. Parentheses stay in the tree: they matter for assignment.
Main exports: Expr, Expr.unaryOf, Expr.binaryOf, Expr.render
-/
import Calculator.Operator
import Calculator.Text.Quoted

namespace Calculator

/-- An expression. -/
inductive Expr where
  | const (value : Int)
  | var (name : String)
  | sign (op : Sign) (operand : Expr)
  | binary (op : InfixOp) (left right : Expr)
  | group (inner : Expr)
  | unknownSign (symbol : String) (operand : Expr)
  | unknownBinary (symbol : String) (left right : Expr)
  | unsupported
deriving DecidableEq, Repr, Inhabited

namespace Expr

/-- The tree for a sign written as `symbol`. -/
def unaryOf (symbol : String) (operand : Expr) : Expr :=
  match symbol with
  | "+" => sign .plus operand
  | "-" => sign .minus operand
  | _ => unknownSign symbol operand

/-- The tree for an operator between two operands written as `symbol`. -/
def binaryOf (symbol : String) (left right : Expr) : Expr :=
  match symbol with
  | "+" => binary (.arith .add) left right
  | "-" => binary (.arith .sub) left right
  | "*" => binary (.arith .mul) left right
  | "/" => binary (.arith .div) left right
  | "=" => binary .assign left right
  | _ => unknownBinary symbol left right

/-- The written form of a node with a sign. -/
def renderUnary (symbol operand : String) : String :=
  s!"UnaryOp(op={Text.quote symbol}, operand={operand})"

/-- The written form of a node with two operands. -/
def renderBinary (symbol left right : String) : String :=
  s!"BinaryOp(op={Text.quote symbol}, left={left}, right={right})"

/-- The full written form of a tree, every node with its kind and its parts by name. -/
def render : Expr → String
  | const value => s!"Constant(value={value})"
  | var name => s!"Variable(name={Text.quote name})"
  | sign op operand => renderUnary op.text operand.render
  | binary op left right => renderBinary op.text left.render right.render
  | group inner => s!"Group(operand={inner.render})"
  | unknownSign symbol operand => renderUnary symbol operand.render
  | unknownBinary symbol left right => renderBinary symbol left.render right.render
  | unsupported => "ASTNode()"

end Expr

end Calculator
