/-
Module: Calculator.Eval
Purpose: Evaluation of expressions on a store. An assignment writes as soon as its right side has a value,
  so an outcome is a result together with the store that is left behind, and writes made before a failure
  stay. `Expr.eval` is evaluation without a limit; `Expr.evalWithin` counts how deep evaluations nest and
  is what a session uses.
Main exports: EvalError, Outcome, Expr.eval, Expr.evalWithin, evaluate, evaluateAll
-/
import Calculator.Parser
import Calculator.Store
import Calculator.Word

namespace Calculator

/-- Why an evaluation has no value. -/
inductive EvalError where
  | invalidSyntax (cause : SyntaxError)
  | uninitialized (name : String)
  | notAssignable
  | divisionByZero
  | unknownSign (symbol : String)
  | unknownBinary (symbol : String)
  | unsupported
  | nestedTooDeeply
deriving DecidableEq, Repr, Inhabited

namespace EvalError

/-- The wording of an error. -/
def message : EvalError → String
  | invalidSyntax cause => s!"Invalid syntax: {cause.detail}"
  | uninitialized name => s!"Uninitialized variable: {name}"
  | notAssignable => "Can only assign to a variable"
  | divisionByZero => "Division by zero"
  | unknownSign symbol => s!"Unknown unary operator: {symbol}"
  | unknownBinary symbol => s!"Unknown binary operator: {symbol}"
  | unsupported => "Unsupported AST node: ASTNode"
  | nestedTooDeeply => "expression is nested too deeply"

end EvalError

/-- What an evaluation leads to: a value or an error, and the store left behind in either case. -/
structure Outcome where
  result : Except EvalError Int
  store : Store

namespace Outcome

/-- A value, nothing written. -/
def value (value : Int) (store : Store) : Outcome :=
  ⟨.ok value, store⟩

/-- A failure, nothing written. -/
def fail (error : EvalError) (store : Store) : Outcome :=
  ⟨.error error, store⟩

/-- Go on with the value and the store; after a failure nothing else happens. -/
def andThen (outcome : Outcome) (next : Int → Store → Outcome) : Outcome :=
  match outcome.result with
  | .ok value => next value outcome.store
  | .error _ => outcome

@[simp] theorem value_andThen (v : Int) (store : Store) (next : Int → Store → Outcome) :
    (value v store).andThen next = next v store := rfl

@[simp] theorem fail_andThen (error : EvalError) (store : Store) (next : Int → Store → Outcome) :
    (fail error store).andThen next = fail error store := rfl

end Outcome

/-- What a sign makes of a value. A plus leaves it as it is. -/
def Sign.apply : Sign → Int → Int
  | plus, value => value
  | minus, value => Word.wrap (-value)

/-- What an arithmetic operator makes of two values. Only a division can fail. -/
def ArithOp.apply : ArithOp → Int → Int → Except EvalError Int
  | add, left, right => .ok (Word.wrap (left + right))
  | sub, left, right => .ok (Word.wrap (left - right))
  | mul, left, right => .ok (Word.wrap (left * right))
  | div, left, right =>
    match Word.divide? left right with
    | some quotient => .ok quotient
    | none => .error .divisionByZero

namespace Expr

/-- Read a variable. -/
def readVar (name : String) (store : Store) : Outcome :=
  match store.get? name with
  | some value => .value value store
  | none => .fail (.uninitialized name) store

/-- Write a value to the target of an assignment, which has to be a bare variable. -/
def assignTo (target : Expr) (value : Int) (store : Store) : Outcome :=
  match target with
  | var name => .value value (store.set name value)
  | _ => .fail .notAssignable store

/-- The outcome of an expression on a store. Arithmetic takes its left operand first; an assignment takes
    its right side first and looks at its target only then. -/
def eval : Expr → Store → Outcome
  | const value, store => .value value store
  | var name, store => readVar name store
  | group inner, store => inner.eval store
  | sign op operand, store =>
    (operand.eval store).andThen fun value store => .value (op.apply value) store
  | binary (.arith op) left right, store =>
    (left.eval store).andThen fun a store =>
      (right.eval store).andThen fun b store => ⟨op.apply a b, store⟩
  | binary .assign target right, store =>
    (right.eval store).andThen fun value store => target.assignTo value store
  | unknownSign symbol operand, store =>
    (operand.eval store).andThen fun _ store => .fail (.unknownSign symbol) store
  | unknownBinary symbol left right, store =>
    (left.eval store).andThen fun _ store =>
      (right.eval store).andThen fun _ store => .fail (.unknownBinary symbol) store
  | unsupported, store => .fail .unsupported store

/-- Evaluation with at most `limit` evaluations nested in one another; the one that would be one too many
    fails. -/
def evalWithin : Nat → Expr → Store → Outcome
  | 0, _, store => .fail .nestedTooDeeply store
  | _ + 1, const value, store => .value value store
  | _ + 1, var name, store => readVar name store
  | limit + 1, group inner, store => evalWithin limit inner store
  | limit + 1, sign op operand, store =>
    (evalWithin limit operand store).andThen fun value store => .value (op.apply value) store
  | limit + 1, binary (.arith op) left right, store =>
    (evalWithin limit left store).andThen fun a store =>
      (evalWithin limit right store).andThen fun b store => ⟨op.apply a b, store⟩
  | limit + 1, binary .assign target right, store =>
    (evalWithin limit right store).andThen fun value store => target.assignTo value store
  | limit + 1, unknownSign symbol operand, store =>
    (evalWithin limit operand store).andThen fun _ store => .fail (.unknownSign symbol) store
  | limit + 1, unknownBinary symbol left right, store =>
    (evalWithin limit left store).andThen fun _ store =>
      (evalWithin limit right store).andThen fun _ store => .fail (.unknownBinary symbol) store
  | _ + 1, unsupported, store => .fail .unsupported store

end Expr

/-- The outcome of a text on a store, with at most `limit` evaluations nested in one another. A text that is no
    expression leaves the store alone. -/
def evaluate (limit : Nat) (text : String) (store : Store) : Outcome :=
  match parse text with
  | .ok tree => tree.evalWithin limit store
  | .error cause => .fail (.invalidSyntax cause) store

/-- Evaluate texts one after the other on one store, whatever becomes of each. -/
def evaluateAll (limit : Nat) : List String → Store → List Outcome
  | [], _ => []
  | text :: rest, store =>
    let outcome := evaluate limit text store
    outcome :: evaluateAll limit rest outcome.store

end Calculator
