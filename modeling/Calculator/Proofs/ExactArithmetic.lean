/-
Module: Calculator.Proofs.ExactArithmetic
Purpose: Evaluation on words is evaluation on all integers, wrapped. Wrapping respects sums, differences,
  products and negation, so it does not matter that it happens at every node and that wrapped values are
  stored and read back. It does not respect quotients: there the operands have to be words already. The
  comparison is a simulation: two evaluations are kept in step, with the stores related throughout, also where
  both fail.
Main exports: Store.Wraps, Outcome.Refines, Outcome.Refines.andThen, Expr.refines_evalExact,
  Expr.divisionsFit_of_notMem_visits, eval_refines_evalExact
-/
import Calculator.Eval.Exact
import Calculator.Eval.Visit
import Calculator.Expr.Names
import Calculator.Proofs.Nesting

namespace Calculator

/-! ### Outcomes on words and on integers -/

/-- A store of words for a store of integers: the same names, each with its value wrapped. -/
def Store.Wraps (words integers : Store) : Prop :=
  ∀ name, words.get? name = (integers.get? name).map Word.wrap

/-- An outcome on words for one on integers: the same error or the wrapped value, and in either case the
    words of the store. -/
structure Outcome.Refines (words integers : Outcome) : Prop where
  result : words.result = integers.result.map Word.wrap
  store : words.store.Wraps integers.store

variable {words integers : Store}

/-- Writing a word for an integer keeps stores related. -/
theorem Store.Wraps.set (wraps : words.Wraps integers) (name : String) (value : Int) :
    (words.set name (Word.wrap value)).Wraps (integers.set name value) := by
  intro other
  rw [Store.get?_set, Store.get?_set]
  by_cases same : other = name
  · rw [if_pos same, if_pos same]
    rfl
  · rw [if_neg same, if_neg same]
    exact wraps other

namespace Outcome

theorem refines_value (wraps : words.Wraps integers) (v : Int) :
    (value (Word.wrap v) words).Refines (value v integers) :=
  ⟨rfl, wraps⟩

theorem refines_fail (wraps : words.Wraps integers) (error : EvalError) :
    (fail error words).Refines (fail error integers) :=
  ⟨rfl, wraps⟩

/-- Two evaluations go on in step if what follows a value does. -/
theorem Refines.andThen {first firstExact : Outcome} {next nextExact : Int → Store → Outcome}
    (start : first.Refines firstExact)
    (follow : ∀ value, firstExact.result = .ok value → first.store.Wraps firstExact.store →
      (next (Word.wrap value) first.store).Refines (nextExact value firstExact.store)) :
    (first.andThen next).Refines (firstExact.andThen nextExact) := by
  have same := start.result
  cases ended : firstExact.result with
  | ok value =>
      rw [ended] at same
      rw [andThen_of_ok same, andThen_of_ok ended]
      exact follow value ended start.store
  | error error =>
      rw [ended] at same
      rw [andThen_of_error same, andThen_of_error ended]
      exact start

end Outcome

/-! ### Single nodes -/

theorem Sign.apply_wrap (op : Sign) (value : Int) :
    op.apply (Word.wrap value) = Word.wrap (op.applyExact value) := by
  cases op with
  | plus => rfl
  | minus => exact Word.wrap_neg value

/-- An arithmetic operator on wrapped operands. Only a quotient asks for more: that wrapping changes neither
    operand. A divisor of zero is zero on words as well. -/
theorem ArithOp.apply_wrap (op : ArithOp) {left right : Int}
    (fit : op = .div → right ≠ 0 → Word.InRange left ∧ Word.InRange right) :
    op.apply (Word.wrap left) (Word.wrap right) = (op.applyExact left right).map Word.wrap := by
  cases op with
  | add => exact congrArg Except.ok (Word.wrap_add left right)
  | sub => exact congrArg Except.ok (Word.wrap_sub left right)
  | mul => exact congrArg Except.ok (Word.wrap_mul left right)
  | div =>
      by_cases zero : right = 0
      · subst zero
        rfl
      · obtain ⟨leftFits, rightFits⟩ := fit rfl zero
        rw [Word.wrap_of_inRange leftFits, Word.wrap_of_inRange rightFits, apply, applyExact, Word.divide?_eq,
          if_neg zero, if_neg zero]
        rfl

namespace Expr

theorem refines_readVar (wraps : words.Wraps integers) (name : String) :
    (readVar name words).Refines (readVar name integers) := by
  unfold readVar
  rw [wraps name]
  cases integers.get? name with
  | some value => exact Outcome.refines_value wraps value
  | none => exact Outcome.refines_fail wraps (.uninitialized name)

theorem refines_assignTo (wraps : words.Wraps integers) (target : Expr) (value : Int) :
    (target.assignTo (Word.wrap value) words).Refines (target.assignTo value integers) := by
  cases target with
  | var name => exact Outcome.refines_value (wraps.set name value) value
  | _ => exact Outcome.refines_fail wraps .notAssignable

/-! ### Whole trees -/

/-- The simulation: on related stores a tree leads to related outcomes, whatever its operators are. -/
theorem refines_evalExact {tree : Expr} (constants : ∀ value ∈ tree.constants, Word.InRange value)
    (wraps : words.Wraps integers) (divisions : tree.DivisionsFit integers) :
    (tree.eval words).Refines (tree.evalExact integers) := by
  induction tree generalizing words integers with
  | const value =>
      have fits : Word.InRange value := constants value List.mem_cons_self
      exact ⟨congrArg Except.ok (Word.wrap_of_inRange fits).symm, wraps⟩
  | var name => exact refines_readVar wraps name
  | group inner ih => exact ih constants wraps divisions
  | unsupported => exact Outcome.refines_fail wraps .unsupported
  | sign op operand ih =>
      apply (ih constants wraps divisions).andThen
      intro value _ after
      rw [op.apply_wrap]
      exact Outcome.refines_value after _
  | unknownSign symbol operand ih =>
      apply (ih constants wraps divisions).andThen
      intro value _ after
      exact Outcome.refines_fail after (.unknownSign symbol)
  | unknownBinary symbol left right leftIh rightIh =>
      obtain ⟨leftConstants, rightConstants⟩ := List.forall_mem_append.mp constants
      obtain ⟨leftFits, rightFits⟩ := divisions
      apply (leftIh leftConstants wraps leftFits).andThen
      intro a first between
      have reached : (left.evalExact integers).result.isOk = true := by
        rw [first]
        rfl
      apply (rightIh rightConstants between (rightFits reached)).andThen
      intro b _ after
      exact Outcome.refines_fail after (.unknownBinary symbol)
  | binary op left right leftIh rightIh =>
      obtain ⟨leftConstants, rightConstants⟩ := List.forall_mem_append.mp constants
      cases op with
      | assign =>
          apply (rightIh rightConstants wraps divisions).andThen
          intro value _ after
          exact refines_assignTo after left value
      | arith op =>
          obtain ⟨leftFits, rightFits, fit⟩ := divisions
          apply (leftIh leftConstants wraps leftFits).andThen
          intro a first between
          have reached : (left.evalExact integers).result.isOk = true := by
            rw [first]
            rfl
          apply (rightIh rightConstants between (rightFits reached)).andThen
          intro b second after
          exact ⟨op.apply_wrap (fit a b first second), after⟩

/-- Where no division is carried out there is nothing to ask for. -/
theorem divisionsFit_of_notMem_visits {tree : Expr} (absent : Visit.arith .div ∉ tree.visits)
    (store : Store) : tree.DivisionsFit store := by
  induction tree generalizing store with
  | const | var | unsupported => trivial
  | group inner ih | sign op inner ih | unknownSign symbol inner ih =>
      exact ih (fun among => absent (List.mem_append_left _ among)) store
  | unknownBinary symbol left right leftIh rightIh =>
      have noneLeft := fun among => absent (List.mem_append_left _ (List.mem_append_left _ among))
      have noneRight := fun among => absent (List.mem_append_left _ (List.mem_append_right _ among))
      exact ⟨leftIh noneLeft store, fun _ => rightIh noneRight _⟩
  | binary op left right leftIh rightIh =>
      cases op with
      | assign => exact rightIh (fun among => absent (List.mem_append_left _ among)) store
      | arith op =>
          have noneLeft := fun among => absent (List.mem_append_left _ (List.mem_append_left _ among))
          have noneRight := fun among => absent (List.mem_append_left _ (List.mem_append_right _ among))
          refine ⟨leftIh noneLeft store, fun _ => rightIh noneRight _, ?_⟩
          rintro a b _ _ rfl
          exact absurd (List.mem_append_right _ List.mem_cons_self) absent

end Expr

/-- **Refinement of exact arithmetic.** Let the constants of a tree be words, and let one store hold the words
    of another. If every division that is carried out on integers has two words as operands, evaluation on
    words fails exactly when evaluation on integers does and with the same error, and has its wrapped value
    otherwise; either way the stores are related as before. The nesting limit changes nothing about this
    unless it is hit, and without divisions there is no condition. -/
theorem eval_refines_evalExact {tree : Expr} (constants : ∀ value ∈ tree.constants, Word.InRange value)
    (wraps : words.Wraps integers) :
    (tree.DivisionsFit integers →
      (tree.eval words).Refines (tree.evalExact integers) ∧
      ∀ limit, (tree.evalWithin limit words).result ≠ .error .nestedTooDeeply →
        (tree.evalWithin limit words).Refines (tree.evalExact integers)) ∧
    (Visit.arith .div ∉ tree.visits → tree.DivisionsFit integers) := by
  constructor
  · intro divisions
    have refines := Expr.refines_evalExact constants wraps divisions
    refine ⟨refines, ?_⟩
    intro limit inLimit
    rw [Expr.evalWithin_eq_eval inLimit]
    exact refines
  · intro absent
    exact Expr.divisionsFit_of_notMem_visits absent integers

/-- A product that leaves the words is stored and read back, and the smallest word is divided by -1. -/
theorem eval_refines_evalExact_overflow :
    let square := Expr.binary .assign (.var "y") (.binary (.arith .mul) (.var "x") (.var "x"))
    let quotient := Expr.binary (.arith .div) (.var "m") (.sign .minus (.const 1))
    let tree := Expr.binary (.arith .add) (.group square) (.binary (.arith .sub) quotient (.var "y"))
    let words := Store.ofList [("x", 65537), ("m", -2147483648)]
    let integers := Store.ofList [("x", 4295032833), ("m", -2147483648)]
    (∀ value ∈ tree.constants, Word.InRange value) ∧ words.Wraps integers ∧ tree.DivisionsFit integers ∧
      (tree.eval words).Refines (tree.evalExact integers) ∧
      (tree.eval words).result = .ok (-2147483648) ∧ (tree.evalExact integers).result = .ok 2147483648 := by
  intro square quotient tree words integers
  have constants : ∀ value ∈ tree.constants, Word.InRange value := by decide
  have wraps : words.Wraps integers := by
    intro name
    simp only [words, integers, Store.ofList, List.foldl, Store.get?_set, Store.get?_empty]
    split
    · rfl
    · split <;> rfl
  have quotientFits : quotient.DivisionsFit (square.evalExact integers).store := by
    refine ⟨trivial, fun _ => trivial, ?_⟩
    intro a b first second _ _
    obtain rfl : -2147483648 = a := Except.ok.inj first
    obtain rfl : -1 = b := Except.ok.inj second
    decide
  have squareFits : square.DivisionsFit integers := (eval_refines_evalExact (by decide) wraps).2 (by decide)
  have divisions : tree.DivisionsFit integers :=
    ⟨squareFits, fun _ => ⟨quotientFits, fun _ => trivial, nofun⟩, nofun⟩
  exact ⟨constants, wraps, divisions, ((eval_refines_evalExact constants wraps).1 divisions).1, rfl, rfl⟩

end Calculator
