/-
Module: Calculator.Eval.Visit
Purpose: Evaluation as a sequence. `Expr.visits` lists the nodes of a tree in the order in which they are
  carried out; carrying them out one by one on a stack of values either reaches the end or stops at the
  first node that fails, and the writes made on the way are listed in order.
Main exports: Visit, Expr.visits, Visit.perform, Store.overwrite, lastWrite?, Store.get?_overwrite, Progress,
  performAll
-/
import Calculator.Eval

namespace Calculator

/-- What a node does once the values of its operands are there. -/
inductive Visit where
  | const (value : Int)
  | read (name : String)
  | sign (op : Sign)
  | arith (op : ArithOp)
  | assign (target : Expr)
  | group
  | unknownSign (symbol : String)
  | unknownBinary (symbol : String)
  | unsupported
deriving DecidableEq, Repr, Inhabited

/-- The nodes of a tree in the order of evaluation. The target of an assignment is not visited. -/
def Expr.visits : Expr → List Visit
  | const value => [.const value]
  | var name => [.read name]
  | sign op operand => operand.visits ++ [.sign op]
  | binary (.arith op) left right => left.visits ++ right.visits ++ [.arith op]
  | binary .assign target right => right.visits ++ [.assign target]
  | group inner => inner.visits ++ [.group]
  | unknownSign symbol operand => operand.visits ++ [.unknownSign symbol]
  | unknownBinary symbol left right => left.visits ++ right.visits ++ [.unknownBinary symbol]
  | unsupported => [.unsupported]

/-- The effect of one node: the values afterwards, last one first, and the write it makes, if any. A node
    that finds too few values does nothing. -/
def Visit.perform (store : Store) : Visit → List Int → Except EvalError (List Int × Option (String × Int))
  | const value, values => .ok (value :: values, none)
  | read name, values =>
    match store.get? name with
    | some value => .ok (value :: values, none)
    | none => .error (.uninitialized name)
  | sign op, value :: values => .ok (op.apply value :: values, none)
  | arith op, right :: left :: values =>
    match op.apply left right with
    | .ok value => .ok (value :: values, none)
    | .error error => .error error
  | assign (.var name), value :: values => .ok (value :: values, some (name, value))
  | assign _, _ :: _ => .error .notAssignable
  | group, values => .ok (values, none)
  | unknownSign symbol, _ => .error (.unknownSign symbol)
  | unknownBinary symbol, _ => .error (.unknownBinary symbol)
  | unsupported, _ => .error .unsupported
  | _, values => .ok (values, none)

/-- A store after some writes, in order. -/
def Store.overwrite (store : Store) (writes : List (String × Int)) : Store :=
  writes.foldl (fun store write => store.set write.1 write.2) store

/-- The value of the last of some writes to a name. -/
def lastWrite? (writes : List (String × Int)) (name : String) : Option Int :=
  writes.reverse.lookup name

/-- The last write to a name decides its value; a name that is not written keeps it. -/
theorem Store.get?_overwrite (store : Store) (writes : List (String × Int)) (name : String) :
    (store.overwrite writes).get? name = (lastWrite? writes name).or (store.get? name) := by
  unfold lastWrite?
  induction writes generalizing store with
  | nil => rfl
  | cons write rest ih =>
      obtain ⟨written, value⟩ := write
      change ((store.set written value).overwrite rest).get? name = _
      rw [ih, List.reverse_cons, List.lookup_append, Option.or_assoc, Store.get?_set]
      by_cases same : name = written
      · simp [same]
      · have differs : (name == written) = false := beq_false_of_ne same
        simp [List.lookup_cons, differs, same]

/-- How far a sequence of nodes came: the values at its end or the error that stopped it, and the writes
    made on the way. -/
structure Progress where
  result : Except EvalError (List Int)
  writes : List (String × Int)

/-- Carry out nodes in order, up to the first that fails. -/
def performAll : List Visit → List Int → Store → Progress
  | [], values, _ => ⟨.ok values, []⟩
  | visit :: rest, values, store =>
    match visit.perform store values with
    | .error error => ⟨.error error, []⟩
    | .ok (values, write) =>
      let progress := performAll rest values (store.overwrite write.toList)
      ⟨progress.result, write.toList ++ progress.writes⟩

@[simp] theorem Store.overwrite_nil (store : Store) : store.overwrite [] = store := rfl

/-- Writes one after the other are the writes together. -/
theorem Store.overwrite_append (store : Store) (first second : List (String × Int)) :
    store.overwrite (first ++ second) = (store.overwrite first).overwrite second :=
  List.foldl_append

/-- Carrying out two sequences: the second goes on from where the first ended, unless that failed. -/
theorem performAll_append (first second : List Visit) (values : List Int) (store : Store) :
    performAll (first ++ second) values store =
      match performAll first values store with
      | ⟨.ok between, writes⟩ =>
        let progress := performAll second between (store.overwrite writes)
        ⟨progress.result, writes ++ progress.writes⟩
      | ⟨.error error, writes⟩ => ⟨.error error, writes⟩ := by
  induction first generalizing values store with
  | nil => rfl
  | cons visit rest ih =>
    simp only [List.cons_append, performAll]
    cases visit.perform store values with
    | error error => rfl
    | ok step =>
      obtain ⟨next, write⟩ := step
      dsimp only
      rw [ih]
      cases performAll rest next (store.overwrite write.toList) with
      | mk result writes =>
        cases result with
        | error error => rfl
        | ok between =>
          simp only [Store.overwrite_append, List.append_assoc]

end Calculator
