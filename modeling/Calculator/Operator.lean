/-
Module: Calculator.Operator
Purpose: The operators of the language and how tightly they hold their operands. The same character can be
  a sign before an operand or an arithmetic operator between two, so these are different operators.
  Grouping is decided by two numbers: an operator that waits for its right operand keeps it from the next
  operator if its right power is at least the left power of that one.
Main exports: Sign, ArithOp, InfixOp, Operator, Operator.level, Operator.leftPower, Operator.rightPower
-/

namespace Calculator

/-- A sign before an operand. -/
inductive Sign where
  | plus
  | minus
deriving DecidableEq, Repr, Inhabited

/-- An arithmetic operator between two operands. -/
inductive ArithOp where
  | add
  | sub
  | mul
  | div
deriving DecidableEq, Repr, Inhabited

/-- An operator between two operands: arithmetic, or the assignment of the right one to the left one. -/
inductive InfixOp where
  | arith (op : ArithOp)
  | assign
deriving DecidableEq, Repr, Inhabited

/-- Any operator. -/
inductive Operator where
  | sign (op : Sign)
  | between (op : InfixOp)
deriving DecidableEq, Repr, Inhabited

namespace Sign

/-- The character of a sign. -/
def text : Sign → String
  | plus => "+"
  | minus => "-"

end Sign

namespace InfixOp

/-- The character of an operator between two operands. -/
def text : InfixOp → String
  | arith .add => "+"
  | arith .sub => "-"
  | arith .mul => "*"
  | arith .div => "/"
  | assign => "="

end InfixOp

namespace Operator

/-- The precedence level: products bind tighter than sums and signs, and these tighter than assignment. -/
def level : Operator → Nat
  | between (.arith .mul) | between (.arith .div) => 60
  | between (.arith .add) | between (.arith .sub) | sign _ => 50
  | between .assign => 10

/-- Whether equal operators group from the right. -/
def groupsRight : Operator → Bool
  | between .assign => true
  | _ => false

/-- More than every level. An operator that enters with it takes nothing from the operators before it. -/
def entering : Nat := 100

/-- The power against an operator on the left. A sign has no operand there, and an assignment takes only
    the operand directly before it, so both enter without folding: `a = 1 + b = 2` is `a = (1 + (b = 2))`. -/
def leftPower : Operator → Nat
  | sign _ | between .assign => entering
  | op => op.level

/-- The power against an operator on the right. -/
def rightPower (op : Operator) : Nat :=
  op.level

/-- The name of an operator: its character, with `u` in front of a sign. -/
def name : Operator → String
  | sign op => "u" ++ op.text
  | between op => op.text

/-- All operators. -/
def all : List Operator :=
  [between (.arith .mul), between (.arith .div), between (.arith .add), between (.arith .sub),
    sign .plus, sign .minus, between .assign]

/-- The operator with a given name. -/
def ofName? (name : String) : Option Operator :=
  all.find? fun op => op.name == name

theorem mem_all (op : Operator) : op ∈ all := by
  rcases op with (_ | _) | ((_ | _ | _ | _) | _) <;> decide

/-- Every level lies below the power of entering. -/
theorem rightPower_lt_entering (op : Operator) : op.rightPower < entering := by
  rcases op with (_ | _) | ((_ | _ | _ | _) | _) <;> decide

end Operator

end Calculator
