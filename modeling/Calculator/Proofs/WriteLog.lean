/-
Module: Calculator.Proofs.WriteLog
Purpose: What an evaluation writes. The nodes of a tree are carried out in the order of `Expr.visits` up to
  the first that fails; the writes of the nodes before it, one for each assignment among them, are all that
  the evaluation changes. A sequence of evaluations changes the store by the writes of each, one after the
  other.
Main exports: Visit.Fails, Expr.Reaches, ComesTo, comesTo_visits, Expr.writeLog, Course, Evaluation,
  writeLogs, evaluations_write_their_logs
-/
import Calculator.Eval.Visit
import Calculator.Proofs.Nesting

namespace Calculator

/-! ### The nodes of a tree in order -/

/-- The operands that are evaluated, in order. The target of an assignment is not one of them. -/
def Expr.operands : Expr → List Expr
  | const _ | var _ | unsupported => []
  | sign _ operand | unknownSign _ operand => [operand]
  | group inner => [inner]
  | binary (.arith _) left right | unknownBinary _ left right => [left, right]
  | binary .assign _ right => [right]

/-- What the node at the top of a tree does once its operands have values. -/
def Expr.own : Expr → Visit
  | const value => .const value
  | var name => .read name
  | sign op _ => .sign op
  | binary (.arith op) _ _ => .arith op
  | binary .assign target _ => .assign target
  | group _ => .group
  | unknownSign symbol _ => .unknownSign symbol
  | unknownBinary symbol _ _ => .unknownBinary symbol
  | unsupported => .unsupported

/-- A node comes after its operands. -/
theorem Expr.visits_eq (tree : Expr) : tree.visits = tree.operands.flatMap visits ++ [tree.own] := by
  cases tree with
  | binary op left right =>
      cases op with
      | arith op => simp [visits, operands, own]
      | assign => simp [visits, operands, own]
  | _ => simp [visits, operands, own]

/-- A part of a tree that an evaluation comes to, with the visits before its own and those after them. -/
inductive Expr.Reaches : Expr → List Visit → Expr → List Visit → Prop
  | here {tree : Expr} : Reaches tree [] tree []
  | inside {tree operand part : Expr} {first second : List Expr} {before after : List Visit}
      (among : tree.operands = first ++ operand :: second) (reaches : operand.Reaches before part after) :
      Reaches tree (first.flatMap visits ++ before) part
        (after ++ second.flatMap visits ++ [tree.own])

theorem Expr.Reaches.visits_eq {tree part : Expr} {before after : List Visit}
    (h : tree.Reaches before part after) : tree.visits = before ++ part.visits ++ after := by
  induction h with
  | here => simp
  | inside among _ ih =>
      rw [Expr.visits_eq, among, List.flatMap_append, List.flatMap_cons, ih]
      simp only [List.append_assoc]

/-! ### Carrying out the visits of a tree -/

/-- Carrying out `visits` on a store, with some values given, comes to an outcome: the values given are
    used up, those below are left alone, and the store is changed by the writes on the way. -/
def ComesTo (visits : List Visit) (given : List Int) (store : Store) (outcome : Outcome) : Prop :=
  ∃ writes, outcome.store = store.overwrite writes ∧
    ∀ values, performAll visits (given ++ values) store = ⟨outcome.result.map (· :: values), writes⟩

/-- One visit after its operands: its value lies in their place, and its write is the only one. -/
theorem performAll_visit {visit : Visit} {given : List Int} {store : Store} {result : Except EvalError Int}
    (write : Option (String × Int))
    (performed : ∀ values, visit.perform store (given ++ values) =
      result.map fun value => (value :: values, write))
    (silent : ∀ error, result = .error error → write = none) (values : List Int) :
    performAll [visit] (given ++ values) store = ⟨result.map (· :: values), write.toList⟩ := by
  simp only [performAll, performed]
  cases ended : result with
  | ok value => simp [Except.map]
  | error error => simp [Except.map, silent error ended]

theorem comesTo_visit {visit : Visit} {given : List Int} {store : Store} {outcome : Outcome}
    (write : Option (String × Int)) (stored : outcome.store = store.overwrite write.toList)
    (performed : ∀ values, visit.perform store (given ++ values) =
      outcome.result.map fun value => (value :: values, write))
    (silent : ∀ error, outcome.result = .error error → write = none) :
    ComesTo [visit] given store outcome :=
  ⟨write.toList, stored, performAll_visit write performed silent⟩

/-- Visits that come to a value go on with what follows; visits that fail do not. -/
theorem comesTo_append {first second : List Visit} {given : List Int} {store : Store} {outcome : Outcome}
    {next : Int → Store → Outcome} (start : ComesTo first [] store outcome)
    (follow : ∀ value, ComesTo second (value :: given) outcome.store (next value outcome.store)) :
    ComesTo (first ++ second) given store (outcome.andThen next) := by
  obtain ⟨writes, stored, started⟩ := start
  simp only [List.nil_append] at started
  cases result : outcome.result with
  | error error =>
      rw [Outcome.andThen_of_error result]
      refine ⟨writes, stored, ?_⟩
      intro values
      rw [performAll_append, started, result]
      rfl
  | ok value =>
      rw [Outcome.andThen_of_ok result]
      obtain ⟨more, storedMore, followed⟩ := follow value
      refine ⟨writes ++ more, ?_, ?_⟩
      · rw [storedMore, stored, Store.overwrite_append]
      · intro values
        rw [performAll_append, started, result]
        dsimp only [Except.map]
        rw [← stored, ← List.cons_append, followed]
        rfl

/-- The visits of a tree, in their order, come to its outcome. -/
theorem comesTo_visits (tree : Expr) (store : Store) : ComesTo tree.visits [] store (tree.eval store) := by
  induction tree generalizing store with
  | const value =>
      apply comesTo_visit none rfl
      · intro values
        rfl
      · intro _ _
        rfl
  | var name =>
      unfold Expr.eval Expr.readVar
      apply comesTo_visit none
      · cases store.get? name with
        | some value => rfl
        | none => rfl
      · intro values
        simp only [Visit.perform]
        cases store.get? name with
        | some value => rfl
        | none => rfl
      · intro _ _
        rfl
  | sign _ operand ih | unknownSign _ operand ih =>
      apply comesTo_append (ih store)
      intro value
      exact comesTo_visit none rfl (fun _ => rfl) (fun _ _ => rfl)
  | group inner ih =>
      rw [Expr.eval, ← Outcome.andThen_value (inner.eval store)]
      apply comesTo_append (ih store)
      intro value
      exact comesTo_visit none rfl (fun _ => rfl) (fun _ _ => rfl)
  | unsupported => exact comesTo_visit none rfl (fun _ => rfl) (fun _ _ => rfl)
  | unknownBinary symbol left right leftIh rightIh =>
      rw [Expr.visits, List.append_assoc]
      apply comesTo_append (leftIh store)
      intro a
      apply comesTo_append (rightIh _)
      intro b
      exact comesTo_visit none rfl (fun _ => rfl) (fun _ _ => rfl)
  | binary op left right leftIh rightIh =>
      cases op with
      | assign =>
          apply comesTo_append (rightIh store)
          intro value
          cases left with
          | var name =>
              apply comesTo_visit (some (name, value)) rfl
              · intro values
                rfl
              · intro error failed
                cases failed
          | _ => exact comesTo_visit none rfl (fun _ => rfl) (fun _ _ => rfl)
      | arith op =>
          rw [Expr.visits, List.append_assoc]
          apply comesTo_append (leftIh store)
          intro a
          apply comesTo_append (rightIh _)
          intro b
          apply comesTo_visit none rfl
          · intro values
            simp only [Visit.perform, List.cons_append, List.nil_append]
            cases op.apply a b with
            | ok value => rfl
            | error error => rfl
          · intro _ _
            rfl

/-- The writes made by the visits of a tree up to the first that fails. -/
def Expr.writeLog (tree : Expr) (store : Store) : List (String × Int) :=
  (performAll tree.visits [] store).writes

theorem store_eval (tree : Expr) (store : Store) :
    (tree.eval store).store = store.overwrite (tree.writeLog store) := by
  obtain ⟨writes, stored, ran⟩ := comesTo_visits tree store
  have log : tree.writeLog store = writes := congrArg Progress.writes (ran [])
  rw [log]
  exact stored

/-- The visits of a tree put its value on top of whatever values there are. -/
theorem performAll_visits (tree : Expr) (values : List Int) (store : Store) :
    performAll tree.visits values store =
      ⟨(tree.eval store).result.map (· :: values), tree.writeLog store⟩ := by
  obtain ⟨writes, _, ran⟩ := comesTo_visits tree store
  have log : tree.writeLog store = writes := congrArg Progress.writes (ran [])
  rw [log]
  exact ran values

/-! ### Where carrying out stops -/

/-- When a node fails, and with which error: a variable without a value, a division by zero, an assignment
    to anything but a bare variable, an operator or node that is not known. -/
inductive Visit.Fails (store : Store) : Visit → List Int → EvalError → Prop
  | absent {name : String} {values : List Int} (missing : store.get? name = none) :
      Fails store (read name) values (.uninitialized name)
  | zeroDivisor {left : Int} {values : List Int} :
      Fails store (arith .div) (0 :: left :: values) .divisionByZero
  | target {target : Expr} {value : Int} {values : List Int} (notVar : ∀ name, target ≠ .var name) :
      Fails store (assign target) (value :: values) .notAssignable
  | unknownSign {symbol : String} {values : List Int} :
      Fails store (unknownSign symbol) values (.unknownSign symbol)
  | unknownBinary {symbol : String} {values : List Int} :
      Fails store (unknownBinary symbol) values (.unknownBinary symbol)
  | unsupported {values : List Int} : Fails store unsupported values .unsupported

theorem ArithOp.apply_eq_error_iff {op : ArithOp} {left right : Int} {error : EvalError} :
    op.apply left right = .error error ↔ op = .div ∧ right = 0 ∧ error = .divisionByZero := by
  cases op with
  | div =>
      simp only [ArithOp.apply, Word.divide?_eq]
      by_cases zero : right = 0
      · simp [zero, eq_comm]
      · simp [zero]
  | _ => simp [ArithOp.apply]

theorem Visit.perform_eq_error_iff {visit : Visit} {store : Store} {values : List Int} {error : EvalError} :
    visit.perform store values = .error error ↔ visit.Fails store values error := by
  constructor
  · intro failed
    cases visit with
    | const value => cases failed
    | read name =>
        simp only [perform] at failed
        cases found : store.get? name with
        | some value => simp [found] at failed
        | none =>
            simp only [found, Except.error.injEq] at failed
            rw [← failed]
            exact .absent found
    | sign op =>
        cases values with
        | nil => cases failed
        | cons value values => cases failed
    | arith op =>
        match values, failed with
        | right :: left :: values, failed =>
            simp only [perform] at failed
            cases result : op.apply left right with
            | ok value => simp [result] at failed
            | error cause =>
                obtain ⟨rfl, rfl, rfl⟩ := ArithOp.apply_eq_error_iff.mp result
                simp only [result, Except.error.injEq] at failed
                rw [← failed]
                exact .zeroDivisor
    | assign target =>
        cases values with
        | nil => cases target <;> cases failed
        | cons value values =>
            cases target with
            | var name => cases failed
            | _ =>
                cases failed
                exact .target (by simp)
    | group => cases failed
    | unknownSign symbol =>
        cases failed
        exact .unknownSign
    | unknownBinary symbol =>
        cases failed
        exact .unknownBinary
    | unsupported =>
        cases failed
        exact .unsupported
  · intro fails
    cases fails with
    | absent missing => simp [perform, missing]
    | zeroDivisor => rfl
    | @target target value values notVar =>
        cases target with
        | var name => exact absurd rfl (notVar name)
        | _ => rfl
    | unknownSign => rfl
    | unknownBinary => rfl
    | unsupported => rfl

/-- Nodes are carried out up to the first that fails, or to the last. -/
theorem performAll_stops (visits : List Visit) (values : List Int) (store : Store) :
    ∃ done rest held, visits = done ++ rest ∧
      performAll done values store = ⟨.ok held, (performAll visits values store).writes⟩ ∧
      match rest with
      | [] => (performAll visits values store).result = .ok held
      | failing :: _ => ∃ error,
        failing.Fails (store.overwrite (performAll visits values store).writes) held error ∧
        (performAll visits values store).result = .error error := by
  induction visits generalizing values store with
  | nil => exact ⟨[], [], values, rfl, rfl, rfl⟩
  | cons visit rest ih =>
      cases performed : visit.perform store values with
      | error error =>
          refine ⟨[], visit :: rest, values, rfl, ?_, error, ?_, ?_⟩
          · simp [performAll, performed]
          · simpa [performAll, performed] using Visit.perform_eq_error_iff.mp performed
          · simp [performAll, performed]
      | ok step =>
          obtain ⟨between, write⟩ := step
          obtain ⟨done, left, held, split, carried, stops⟩ := ih between (store.overwrite write.toList)
          refine ⟨visit :: done, left, held, ?_, ?_, ?_⟩
          · rw [split, List.cons_append]
          · simp [performAll, performed, carried]
          · simpa [performAll, performed, Store.overwrite_append] using stops

/-- What was carried out before something else was carried out as well. -/
theorem performAll_of_append {first second : List Visit} {values held : List Int} {store : Store}
    {writes : List (String × Int)}
    (carried : performAll (first ++ second) values store = ⟨.ok held, writes⟩) :
    ∃ between early late, performAll first values store = ⟨.ok between, early⟩ ∧
      performAll second between (store.overwrite early) = ⟨.ok held, late⟩ ∧ writes = early ++ late := by
  rw [performAll_append] at carried
  cases start : performAll first values store with
  | mk result early =>
      cases result with
      | error error => simp [start] at carried
      | ok between =>
          simp only [start, Progress.mk.injEq] at carried
          obtain ⟨ended, rfl⟩ := carried
          refine ⟨between, early, _, rfl, ?_, rfl⟩
          rw [← ended]

/-! ### One write for each assignment -/

/-- The target that a node writes to: only an assignment has one. -/
def Visit.target? : Visit → Option Expr
  | assign target => some target
  | _ => none

/-- How many values a node takes from those held. -/
def Visit.takes : Visit → Nat
  | const _ | read _ | unsupported => 0
  | sign _ | assign _ | group | unknownSign _ => 1
  | arith _ | unknownBinary _ => 2

/-- With so many values held at first, every node finds the values it takes. -/
def Supplied : Nat → List Visit → Prop
  | _, [] => True
  | held, visit :: rest => visit.takes ≤ held ∧ Supplied (held - visit.takes + 1) rest

theorem Supplied.of_append {held : Nat} {first second : List Visit} (h : Supplied held (first ++ second)) :
    Supplied held first := by
  induction first generalizing held with
  | nil => trivial
  | cons visit rest ih => exact ⟨h.1, ih h.2⟩

/-- The visits of a tree leave one value more, so that what follows is supplied with it. -/
theorem supplied_visits_append (tree : Expr) {held : Nat} {rest : List Visit}
    (h : Supplied (held + 1) rest) : Supplied held (tree.visits ++ rest) := by
  induction tree generalizing held rest with
  | const _ | var _ | unsupported => exact ⟨Nat.zero_le _, h⟩
  | sign _ _ ih | group _ ih | unknownSign _ _ ih =>
      rw [Expr.visits, List.append_assoc]
      apply ih
      exact ⟨Nat.le_add_left 1 held, h⟩
  | unknownBinary symbol left right leftIh rightIh =>
      rw [Expr.visits, List.append_assoc, List.append_assoc]
      apply leftIh
      apply rightIh
      exact ⟨Nat.le_add_left 2 held, h⟩
  | binary op left right leftIh rightIh =>
      cases op with
      | assign =>
          rw [Expr.visits, List.append_assoc]
          apply rightIh
          exact ⟨Nat.le_add_left 1 held, h⟩
      | arith op =>
          rw [Expr.visits, List.append_assoc, List.append_assoc]
          apply leftIh
          apply rightIh
          exact ⟨Nat.le_add_left 2 held, h⟩

theorem supplied_visits (tree : Expr) : Supplied 0 tree.visits := by
  rw [← List.append_nil tree.visits]
  apply supplied_visits_append
  trivial

/-- A node that finds its values leaves one in their place, and writes just when it is an assignment. -/
theorem Visit.perform_of_takes {visit : Visit} {store : Store} {values next : List Int}
    {write : Option (String × Int)} (enough : visit.takes ≤ values.length)
    (performed : visit.perform store values = .ok (next, write)) :
    next.length = values.length - visit.takes + 1 ∧
      (write.map fun write => Expr.var write.1) = visit.target? := by
  cases visit with
  | const value =>
      cases performed
      exact ⟨rfl, rfl⟩
  | read name =>
      simp only [perform] at performed
      cases found : store.get? name with
      | some value =>
          rw [found] at performed
          cases performed
          exact ⟨rfl, rfl⟩
      | none => simp [found] at performed
  | sign op =>
      match values, enough, performed with
      | value :: values, _, rfl => exact ⟨rfl, rfl⟩
  | arith op =>
      match values, enough, performed with
      | right :: left :: values, _, performed =>
          simp only [perform] at performed
          cases result : op.apply left right with
          | error error => simp [result] at performed
          | ok value =>
              rw [result] at performed
              cases performed
              exact ⟨rfl, rfl⟩
  | assign target =>
      match values, enough with
      | value :: values, _ =>
          cases target with
          | var name =>
              cases performed
              exact ⟨rfl, rfl⟩
          | _ => cases performed
  | group =>
      match values, enough, performed with
      | value :: values, _, rfl => exact ⟨rfl, rfl⟩
  | unknownSign symbol => cases performed
  | unknownBinary symbol => cases performed
  | unsupported => cases performed

/-- The targets of the writes are the targets of the assignments carried out, in order. -/
theorem targets_of_performAll {done : List Visit} {values held : List Int} {store : Store}
    {writes : List (String × Int)} (supplied : Supplied values.length done)
    (carried : performAll done values store = ⟨.ok held, writes⟩) :
    (writes.map fun write => Expr.var write.1) = done.filterMap Visit.target? := by
  induction done generalizing values store writes with
  | nil =>
      cases carried
      rfl
  | cons visit rest ih =>
      unfold performAll at carried
      cases performed : visit.perform store values with
      | error error => simp [performed] at carried
      | ok step =>
          obtain ⟨next, write⟩ := step
          obtain ⟨grown, target⟩ := Visit.perform_of_takes supplied.1 performed
          simp only [performed, Progress.mk.injEq] at carried
          obtain ⟨ended, rfl⟩ := carried
          have suppliedNext : Supplied next.length rest := by
            rw [grown]
            exact supplied.2
          have later := ih suppliedNext (congrArg (Progress.mk · _) ended)
          rw [List.map_append, later, List.filterMap_cons, ← target]
          cases write with
          | none => rfl
          | some write => rfl

/-! ### The course of one evaluation -/

/-- How far the visits of a tree are carried out: those done, those left, and the values then held. -/
structure Course (tree : Expr) (store : Store) where
  done : List Visit
  rest : List Visit
  held : List Int
  visits_eq : tree.visits = done ++ rest
  carried : performAll done [] store = ⟨.ok held, tree.writeLog store⟩

/-- With nothing left, the result is the one value held; otherwise it is the error of the first node that
    is left, which fails on the store as written so far. -/
def Course.EndsIn {tree : Expr} {store : Store} (course : Course tree store) (result : Except EvalError Int) :
    Prop :=
  match course.rest, result with
  | [], .ok value => course.held = [value]
  | failing :: _, .error error => failing.Fails (store.overwrite (tree.writeLog store)) course.held error
  | _, _ => False

/-- The writes of a tree are those before an assignment, those of its right side, and then its own: of the
    value of the right side, to its target. -/
def Expr.WritesAt (tree : Expr) (store : Store) (before : List Visit) (target right : Expr) : Prop :=
  ∃ held first name value later,
    performAll before [] store = ⟨.ok held, first⟩ ∧ target = .var name ∧
      (right.eval (store.overwrite first)).result = .ok value ∧
      tree.writeLog store = first ++ right.writeLog (store.overwrite first) ++ (name, value) :: later

/-- The writes of a tree end with those of the right side of an assignment. -/
def Expr.EndsBefore (tree : Expr) (store : Store) (before : List Visit) (right : Expr) : Prop :=
  ∃ held first, performAll before [] store = ⟨.ok held, first⟩ ∧
    tree.writeLog store = first ++ right.writeLog (store.overwrite first)

theorem exists_course (tree : Expr) (store : Store) :
    ∃ course : Course tree store, course.EndsIn (tree.eval store).result := by
  obtain ⟨done, rest, held, split, carried, stops⟩ := performAll_stops tree.visits [] store
  refine ⟨⟨done, rest, held, split, carried⟩, ?_⟩
  rw [performAll_visits] at stops
  cases rest with
  | nil =>
      cases result : (tree.eval store).result with
      | ok value =>
          rw [result] at stops
          cases stops
          rfl
      | error error =>
          rw [result] at stops
          cases stops
  | cons failing rest =>
      obtain ⟨error, fails, ended⟩ := stops
      cases result : (tree.eval store).result with
      | ok value =>
          rw [result] at ended
          cases ended
      | error cause =>
          rw [result] at ended
          cases ended
          exact fails

namespace Course

variable {tree target right : Expr} {store : Store} {before after : List Visit}

/-- An assignment among the nodes carried out has written. -/
theorem writesAt (course : Course tree store)
    (passed : before ++ right.visits ++ [.assign target] <+: course.done) :
    tree.WritesAt store before target right := by
  obtain ⟨others, split⟩ := passed
  have carried := course.carried
  rw [← split, List.append_assoc, List.append_assoc] at carried
  obtain ⟨held, first, later, reached, carriedRight, log⟩ := performAll_of_append carried
  obtain ⟨between, inner, own, evaluated, carriedOwn, rfl⟩ := performAll_of_append carriedRight
  rw [performAll_visits, Progress.mk.injEq] at evaluated
  obtain ⟨onTop, rfl⟩ := evaluated
  cases result : (right.eval (store.overwrite first)).result with
  | error error =>
      rw [result] at onTop
      cases onTop
  | ok value =>
      rw [result] at onTop
      cases onTop
      cases target with
      | var name =>
          simp only [List.singleton_append, performAll, Visit.perform, Progress.mk.injEq] at carriedOwn
          obtain ⟨_, rfl⟩ := carriedOwn
          exact ⟨held, first, name, value, _, reached, rfl, result, log.trans (List.append_assoc ..).symm⟩
      | _ => cases carriedOwn

/-- What is carried out of the visits next in turn writes what the whole tree writes: the first of them, if
    any, fails. -/
theorem writes_of_prefix (course : Course tree store) {result : Except EvalError Int}
    (ends : course.EndsIn result) {next others : List Visit} (left : course.rest = next ++ others) :
    (performAll (course.done ++ next) [] store).writes = tree.writeLog store := by
  rw [performAll_append, course.carried]
  cases next with
  | nil => exact List.append_nil _
  | cons failing rest =>
      cases result with
      | ok value => simp [EndsIn, left] at ends
      | error error =>
          have fails : failing.Fails (store.overwrite (tree.writeLog store)) course.held error := by
            simpa [EndsIn, left] using ends
          simp [performAll, Visit.perform_eq_error_iff.mpr fails]

/-- An assignment around the failing node, or failing itself, has not written. -/
theorem endsBefore (course : Course tree store) {result : Except EvalError Int}
    (ends : course.EndsIn result) (reaches : tree.Reaches before (.binary .assign target right) after)
    (entered : before <+: course.done) (notPassed : course.done <+: before ++ right.visits) :
    tree.EndsBefore store before right := by
  obtain ⟨others, split⟩ := entered
  have carried := course.carried
  rw [← split] at carried
  obtain ⟨held, first, _, reached, _, _⟩ := performAll_of_append carried
  refine ⟨held, first, reached, ?_⟩
  obtain ⟨next, upTo⟩ := notPassed
  have left : course.rest = next ++ ([.assign target] ++ after) := by
    apply List.append_cancel_left
    rw [← course.visits_eq, reaches.visits_eq, ← List.append_assoc, upTo, Expr.visits]
    simp only [List.append_assoc]
  rw [← course.writes_of_prefix ends left, upTo, performAll_append, reached]
  dsimp only
  rw [performAll_visits]

end Course

/-! ### Evaluations one after the other -/

/-- One evaluation within some limit, of a tree or of a text. -/
inductive Evaluation where
  | ofTree (limit : Nat) (tree : Expr)
  | ofText (limit : Nat) (text : String)

namespace Evaluation

def run : Evaluation → Store → Outcome
  | ofTree limit tree, store => tree.evalWithin limit store
  | ofText limit text, store => evaluate limit text store

/-- The writes of a text are those of its tree; a text without a tree writes nothing. -/
def writeLog : Evaluation → Store → List (String × Int)
  | ofTree _ tree, store => tree.writeLog store
  | ofText _ text, store =>
    match parse text with
    | .ok tree => tree.writeLog store
    | .error _ => []

theorem store_run {evaluation : Evaluation} {store : Store}
    (inLimit : (evaluation.run store).result ≠ .error .nestedTooDeeply) :
    (evaluation.run store).store = store.overwrite (evaluation.writeLog store) := by
  cases evaluation with
  | ofTree limit tree =>
      rw [run, Expr.evalWithin_eq_eval inLimit]
      exact store_eval tree store
  | ofText limit text =>
      cases parsed : parse text with
      | error cause => simp [run, evaluate, writeLog, parsed, Outcome.fail]
      | ok tree =>
          simp only [run, evaluate, writeLog, parsed] at inLimit ⊢
          rw [Expr.evalWithin_eq_eval inLimit]
          exact store_eval tree store

end Evaluation

/-- The outcomes of evaluations one after the other on one store, whatever becomes of each. -/
def runAll : List Evaluation → Store → List Outcome
  | [], _ => []
  | evaluation :: rest, store =>
    let outcome := evaluation.run store
    outcome :: runAll rest outcome.store

/-- What each of them writes. -/
def writeLogs : List Evaluation → Store → List (List (String × Int))
  | [], _ => []
  | evaluation :: rest, store =>
    evaluation.writeLog store :: writeLogs rest (evaluation.run store).store

/-- The store that the last outcome leaves behind. -/
def Store.after (store : Store) (outcomes : List Outcome) : Store :=
  outcomes.foldl (fun _ outcome => outcome.store) store

theorem runAll_ofText (limit : Nat) (texts : List String) (store : Store) :
    runAll (texts.map (.ofText limit)) store = evaluateAll limit texts store := by
  induction texts generalizing store with
  | nil => rfl
  | cons text rest ih =>
      simp only [List.map_cons, runAll, evaluateAll, ih]
      rfl

theorem after_runAll (evaluations : List Evaluation) (store : Store)
    (inLimit : ∀ outcome ∈ runAll evaluations store, outcome.result ≠ .error .nestedTooDeeply) :
    store.after (runAll evaluations store) = store.overwrite (writeLogs evaluations store).flatten := by
  induction evaluations generalizing store with
  | nil => rfl
  | cons evaluation rest ih =>
      have inLimitFirst := inLimit (evaluation.run store) (List.mem_cons_self ..)
      have laterStores := ih (evaluation.run store).store fun outcome later =>
        inLimit outcome (List.mem_cons_of_mem _ later)
      rw [writeLogs, List.flatten_cons, Store.overwrite_append, ← Evaluation.store_run inLimitFirst,
        ← laterStores]
      rfl

/-- Within the limit, an evaluation carries out the nodes of its tree in order up to the first that fails,
    whose error is its error; what it changes are the writes of the assignments carried out, one for each,
    and an assignment around the failing node is not among them. Evaluations one after the other change
    the store by all their writes in order, so that the last write to a name decides its value. -/
theorem evaluations_write_their_logs :
    (∀ (limit : Nat) (tree : Expr) (store : Store),
      (tree.evalWithin limit store).result ≠ .error .nestedTooDeeply →
      (tree.evalWithin limit store).store = store.overwrite (tree.writeLog store) ∧
      (∀ name, (tree.evalWithin limit store).store.get? name =
        (lastWrite? (tree.writeLog store) name).or (store.get? name)) ∧
      ∃ course : Course tree store,
        course.EndsIn (tree.evalWithin limit store).result ∧
        ((tree.writeLog store).map fun write => Expr.var write.1) = course.done.filterMap Visit.target? ∧
        ∀ before target right after, tree.Reaches before (.binary .assign target right) after →
          (before ++ right.visits ++ [.assign target] <+: course.done →
            tree.WritesAt store before target right) ∧
          (before <+: course.done → course.done <+: before ++ right.visits →
            tree.EndsBefore store before right)) ∧
    ∀ (evaluations : List Evaluation) (store : Store),
      (∀ outcome ∈ runAll evaluations store, outcome.result ≠ .error .nestedTooDeeply) →
      store.after (runAll evaluations store) = store.overwrite (writeLogs evaluations store).flatten ∧
      ∀ name, (store.after (runAll evaluations store)).get? name =
        (lastWrite? (writeLogs evaluations store).flatten name).or (store.get? name) := by
  constructor
  · intro limit tree store inLimit
    rw [Expr.evalWithin_eq_eval inLimit]
    refine ⟨store_eval tree store, ?_, ?_⟩
    · intro name
      rw [store_eval, Store.get?_overwrite]
    obtain ⟨course, ends⟩ := exists_course tree store
    refine ⟨course, ends, ?_, ?_⟩
    · have supplied : Supplied ([] : List Int).length course.done := by
        apply Supplied.of_append
        rw [← course.visits_eq]
        exact supplied_visits tree
      exact targets_of_performAll supplied course.carried
    · intro before target right after reaches
      constructor
      · exact course.writesAt
      · exact course.endsBefore ends reaches
  · intro evaluations store inLimit
    have stored := after_runAll evaluations store inLimit
    exact ⟨stored, fun name => by rw [stored, Store.get?_overwrite]⟩

/-- A division by zero inside an assignment: what was written before it stays, the assignment around it does
    not write, and later texts go on from there. -/
theorem evaluations_write_their_logs_zero_divisor :
    (∃ tree, parse "(a = 1) + (b = (c = 2) / 0)" = .ok tree ∧
      ∃ course : Course tree Store.empty, course.EndsIn (.error .divisionByZero) ∧
        course.done.filterMap Visit.target? = [.var "a", .var "c"]) ∧
    Store.empty.after (evaluateAll 20 ["(a = 1) + (b = (c = 2) / 0)", "a = c", "1 +"] Store.empty) =
      Store.empty.overwrite [("a", 1), ("c", 2), ("a", 2)] := by
  constructor
  · let tree : Expr := .binary (.arith .add) (.group (.binary .assign (.var "a") (.const 1)))
      (.group (.binary .assign (.var "b")
        (.binary (.arith .div) (.group (.binary .assign (.var "c") (.const 2))) (.const 0))))
    have failed : (tree.evalWithin 20 Store.empty).result = .error .divisionByZero := by rfl
    refine ⟨tree, rfl, ?_⟩
    obtain ⟨_, _, course, ends, targets, _⟩ :=
      evaluations_write_their_logs.1 20 tree Store.empty (by simp [failed])
    rw [failed] at ends
    exact ⟨course, ends, targets.symm⟩
  · have results : (evaluateAll 20 ["(a = 1) + (b = (c = 2) / 0)", "a = c", "1 +"] Store.empty).map
        Outcome.result = [.error .divisionByZero, .ok 2, .error (.invalidSyntax .missingOperand)] := by rfl
    rw [← runAll_ofText, (evaluations_write_their_logs.2 _ _ ?_).1]
    · rfl
    · intro outcome among hit
      rw [runAll_ofText] at among
      have hitAmong : outcome.result ∈ (evaluateAll 20 _ _).map Outcome.result :=
        List.mem_map.mpr ⟨_, among, rfl⟩
      rw [results, hit] at hitAmong
      simp at hitAmong

end Calculator
