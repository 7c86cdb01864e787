/-
Module: Calculator.Parser
Purpose: One pass over the tokens that builds the expression. The parser keeps the operands it has not used
  and the operators that wait for their right operand; an operator is folded, that is replaced together
  with its operands by the tree they make, as soon as the next operator does not bind tighter.
Main exports: Parser, Parser.step, Parser.finish, Parser.trace, parseTokens, parse, Reader.parse
-/
import Calculator.Expr
import Calculator.Parser.Error
import Calculator.Token.Lexeme
import Calculator.Token.Reader

namespace Calculator

/-- What waits on the operator stack: an operator for its right operand, a parenthesis for its partner. -/
inductive Pending where
  | openParen
  | op (operator : Operator)
deriving DecidableEq, Repr, Inhabited

/-- The state of a parse. Both stacks are written top first. `expectOperand` says which position the next
    token is in: it has to start an operand, or to continue one. -/
structure Parser where
  operands : List Expr
  pending : List Pending
  expectOperand : Bool
deriving DecidableEq, Repr, Inhabited

namespace Parser

/-- Nothing read yet. -/
def start : Parser :=
  ⟨[], [], true⟩

/-- Replace the operands of an operator by the tree that it makes of them. -/
def fold : Operator → List Expr → Except SyntaxError (List Expr)
  | .sign op, operand :: rest => .ok (.sign op operand :: rest)
  | .between op, right :: left :: rest => .ok (.binary op left right :: rest)
  | _, _ => .error .missingOperand

/-- Fold the operators on top of the stack whose right power is at least `power`. An open parenthesis
    stops the folding. -/
def foldWhile (power : Nat) : List Pending → List Expr → Except SyntaxError (List Pending × List Expr)
  | .op operator :: below, operands =>
    if power ≤ operator.rightPower then
      match fold operator operands with
      | .ok operands => foldWhile power below operands
      | .error cause => .error cause
    else .ok (.op operator :: below, operands)
  | pending, operands => .ok (pending, operands)

/-- A value comes in. -/
def pushOperand (parser : Parser) (operand : Expr) : Parser :=
  { parser with operands := operand :: parser.operands, expectOperand := false }

/-- A parenthesis opens. -/
def openGroup (parser : Parser) : Parser :=
  { parser with pending := .openParen :: parser.pending }

/-- An operator comes in: those before it that hold their right operand tighter are folded first. -/
def pushOperator (parser : Parser) (operator : Operator) : Except SyntaxError Parser :=
  match foldWhile operator.leftPower parser.pending parser.operands with
  | .ok (pending, operands) => .ok ⟨operands, .op operator :: pending, true⟩
  | .error cause => .error cause

/-- A parenthesis closes at offset `pos`: everything since its partner is folded and becomes one group. -/
def closeGroup (parser : Parser) (pos : Nat) : Except SyntaxError Parser :=
  match foldWhile 0 parser.pending parser.operands with
  | .ok (.openParen :: pending, inner :: operands) => .ok ⟨.group inner :: operands, pending, false⟩
  | .ok (.openParen :: _, []) => .error .missingOperand
  | .ok (_, _) => .error (.unmatchedClose pos)
  | .error cause => .error cause

/-- The operator that a symbol means after an operand. -/
def infixOf? : Symbol → Option InfixOp
  | .plus => some (.arith .add)
  | .minus => some (.arith .sub)
  | .times => some (.arith .mul)
  | .divide => some (.arith .div)
  | .assign => some .assign
  | _ => none

/-- A token where an operand has to start. -/
def stepOperand (parser : Parser) (token : Token) : Except SyntaxError Parser :=
  match token.symbol with
  | .const value => .ok (parser.pushOperand (.const value))
  | .var name => .ok (parser.pushOperand (.var name))
  | .plus => parser.pushOperator (.sign .plus)
  | .minus => parser.pushOperator (.sign .minus)
  | .openParen => .ok parser.openGroup
  | .unexpected _ => .error (.unexpected token)
  | _ => .error (.expectedOperand token)

/-- A token where an operand has just ended. -/
def stepOperator (parser : Parser) (token : Token) : Except SyntaxError Parser :=
  match token.symbol with
  | .closeParen => parser.closeGroup token.pos
  | .unexpected _ => .error (.unexpected token)
  | symbol =>
    match infixOf? symbol with
    | some op => parser.pushOperator (.between op)
    | none => .error (.expectedOperator token)

/-- The state after one more token. -/
def step (parser : Parser) (token : Token) : Except SyntaxError Parser :=
  if parser.expectOperand then parser.stepOperand token else parser.stepOperator token

/-- The tree, once all tokens are read: every operator is folded, and exactly one operand has to remain. -/
def finish (parser : Parser) : Except SyntaxError Expr :=
  match foldWhile 0 parser.pending parser.operands with
  | .error cause => .error cause
  | .ok (_ :: _, _) => .error .unmatchedOpen
  | .ok ([], []) => .error .emptyExpression
  | .ok ([], [tree]) => .ok tree
  | .ok ([], _ :: _ :: _) => .error .missingOperator

/-- The state after all tokens of a list. -/
def run (parser : Parser) : List Token → Except SyntaxError Parser
  | [] => .ok parser
  | token :: rest =>
    match parser.step token with
    | .ok parser => parser.run rest
    | .error cause => .error cause

/-- Reading two lists of tokens one after the other is reading both. -/
theorem run_append (parser : Parser) (first second : List Token) :
    parser.run (first ++ second) =
      match parser.run first with
      | .ok parser => parser.run second
      | .error cause => .error cause := by
  induction first generalizing parser with
  | nil => rfl
  | cons token rest ih =>
    rw [List.cons_append, run, run]
    cases parser.step token with
    | error cause => rfl
    | ok parser => exact ih parser

/-- The states after each token, up to the first token that is refused. -/
def trace (parser : Parser) : List Token → List Parser
  | [] => []
  | token :: rest =>
    match parser.step token with
    | .ok parser => parser :: parser.trace rest
    | .error _ => []

end Parser

/-- The expression that a list of tokens is. -/
def parseTokens (tokens : List Token) : Except SyntaxError Expr :=
  match Parser.start.run tokens with
  | .ok parser => parser.finish
  | .error cause => .error cause

/-- The expression that a text is. -/
def parse (text : String) : Except SyntaxError Expr :=
  parseTokens (tokenize text)

/-- Parse while reading: a token is asked for only when the one before it has been accepted. The reader
    that comes back tells how much of the source was taken. -/
def Reader.feed (reader : Reader) (parser : Parser) : Except SyntaxError Expr × Reader :=
  match h : reader.next with
  | (none, reader) => (parser.finish, reader)
  | (some token, after) =>
    match parser.step token with
    | .ok parser =>
      have : after.rest.length < reader.rest.length := Reader.rest_next_length_lt h
      after.feed parser
    | .error cause => (.error cause, after)
termination_by reader.rest.length

/-- Parse a text that is read on demand. -/
def Reader.parse (reader : Reader) : Except SyntaxError Expr × Reader :=
  reader.feed Parser.start

end Calculator
