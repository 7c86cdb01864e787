/-
Module: Calculator.Expr.Grammar
Purpose: What it means that a tree is the right reading of some symbols. `Expr.symbols` reads a tree from
  left to right. `Expr.Grouped` says that every operator in it holds exactly the operands that its powers
  give it: what an operator holds on its left ends in operators that hold at least as tight, what it holds
  on its right starts with operators that bind tighter. `Sentence` is the grammar without any grouping.
Main exports: Expr.symbols, Expr.rightEdge, Expr.leftEdge, Expr.Grouped, Expr.Writable, Sentence
-/
import Calculator.Expr
import Calculator.Token

namespace Calculator

/-- The symbol of a sign. -/
def Sign.symbol : Sign → Symbol
  | plus => .plus
  | minus => .minus

/-- The symbol of an operator between two operands. -/
def InfixOp.symbol : InfixOp → Symbol
  | arith .add => .plus
  | arith .sub => .minus
  | arith .mul => .times
  | arith .div => .divide
  | assign => .assign

namespace Expr

/-- A tree read from left to right. A constant that text can hold is not negative, and an operator that is
    not known stands for itself. -/
def symbols : Expr → List Symbol
  | const value => [.const value.toNat]
  | var name => [.var name]
  | sign op operand => op.symbol :: operand.symbols
  | binary op left right => left.symbols ++ op.symbol :: right.symbols
  | group inner => .openParen :: (inner.symbols ++ [.closeParen])
  | unknownSign symbol operand => .unexpected symbol :: operand.symbols
  | unknownBinary symbol left right => left.symbols ++ .unexpected symbol :: right.symbols
  | unsupported => []

/-- The operators whose right operand ends where the tree ends, outermost first. -/
def rightEdge : Expr → List Operator
  | sign op operand => .sign op :: operand.rightEdge
  | binary op _ right => .between op :: right.rightEdge
  | _ => []

/-- The operators whose left operand starts where the tree starts, outermost first. -/
def leftEdge : Expr → List Operator
  | binary op left _ => .between op :: left.leftEdge
  | _ => []

/-- Every operator holds the operands that its powers give it. -/
def Grouped : Expr → Prop
  | const _ | var _ => True
  | group inner => inner.Grouped
  | sign op operand =>
    operand.Grouped ∧ ∀ inner ∈ operand.leftEdge, (Operator.sign op).rightPower < inner.leftPower
  | binary op left right =>
    left.Grouped ∧ right.Grouped ∧
      (∀ inner ∈ left.rightEdge, (Operator.between op).leftPower ≤ inner.rightPower) ∧
      ∀ inner ∈ right.leftEdge, (Operator.between op).rightPower < inner.leftPower
  | unknownSign .. | unknownBinary .. | unsupported => False

/-- Whether every operator holds the operands that its powers give it can be tested. -/
instance decideGrouped : (tree : Expr) → Decidable tree.Grouped
  | const _ | var _ => inferInstanceAs (Decidable True)
  | group inner => decideGrouped inner
  | sign _ operand =>
    have := decideGrouped operand
    inferInstanceAs (Decidable (_ ∧ _))
  | binary _ left right =>
    have := decideGrouped left
    have := decideGrouped right
    inferInstanceAs (Decidable (_ ∧ _ ∧ _ ∧ _))
  | unknownSign .. | unknownBinary .. | unsupported => inferInstanceAs (Decidable False)

/-- A name that text can hold: an ASCII letter, then ASCII letters and digits. -/
def IsName (name : String) : Prop :=
  name.toList.head?.any Char.isAlpha ∧ ∀ c ∈ name.toList, isWordChar c = true

instance (name : String) : Decidable (IsName name) :=
  have := List.decidableBAll (fun c => isWordChar c = true) name.toList
  inferInstanceAs (Decidable (_ ∧ _))

/-- The leaves of a tree that text can hold: constants that are literals and proper names. -/
def Writable : Expr → Prop
  | const value => 0 ≤ value ∧ value ≤ Literal.maxValue
  | var name => IsName name
  | sign _ operand => operand.Writable
  | binary _ left right => left.Writable ∧ right.Writable
  | group inner => inner.Writable
  | unknownSign .. | unknownBinary .. | unsupported => False

/-- Whether the leaves of a tree are literals and proper names can be tested. -/
instance decideWritable : (tree : Expr) → Decidable tree.Writable
  | const _ => inferInstanceAs (Decidable (_ ∧ _))
  | var name => inferInstanceAs (Decidable (IsName name))
  | group inner => decideWritable inner
  | sign _ operand => decideWritable operand
  | binary _ left right =>
    have := decideWritable left
    have := decideWritable right
    inferInstanceAs (Decidable (_ ∧ _))
  | unknownSign .. | unknownBinary .. | unsupported => inferInstanceAs (Decidable False)

end Expr

/-- The symbols that are an expression under some grouping. -/
inductive Sentence : List Symbol → Prop where
  | const (value : Nat) : Sentence [.const value]
  | var (name : String) : Sentence [.var name]
  | sign (op : Sign) {operand : List Symbol} (inner : Sentence operand) :
      Sentence (op.symbol :: operand)
  | binary (op : InfixOp) {left right : List Symbol} (first : Sentence left) (second : Sentence right) :
      Sentence (left ++ op.symbol :: right)
  | group {operand : List Symbol} (inner : Sentence operand) :
      Sentence (.openParen :: (operand ++ [.closeParen]))

/-- A grouped tree reads as a sentence. -/
theorem Expr.Grouped.sentence {tree : Expr} (h : tree.Grouped) : Sentence tree.symbols := by
  induction tree with
  | const value => exact .const _
  | var name => exact .var name
  | sign op operand ih => exact .sign op (ih h.1)
  | binary op left right ihl ihr => exact .binary op (ihl h.1) (ihr h.2.1)
  | group inner ih => exact .group (ih h)
  | unknownSign => exact h.elim
  | unknownBinary => exact h.elim
  | unsupported => exact h.elim

end Calculator
