/-
Module: Calculator.Proofs.NestingLimit
Purpose: What the limit on nested evaluations can change. It is hit just if evaluation follows a path of nodes that
  exceeds it, and an evaluation that does not hit the limit is the evaluation without one. An evaluation that hits it
  has carried out the first of the nodes, each of them as without a limit, and nothing else. To say what it wrote on
  the way, `Expr.logWithin` is the same evaluation with a list of its writes.
Main exports: Expr.HasPath, Expr.HasPath.le_nesting, Expr.nestedTooDeeply_iff, Logged, Expr.logWithin,
  outcome_logWithin, Logged.Follows, follows_logWithin, limit_leaves_first_writes
-/
import Calculator.Expr.Names
import Calculator.Proofs.WriteLog

namespace Calculator

/-! ### Paths -/

/-- On a store, evaluation follows a path of so many nodes from the top of a tree. The second of two operands is
    reached if the first one has a value, on the store that it leaves. -/
inductive Expr.HasPath : Expr → Store → Nat → Prop where
  | here (tree : Expr) (store : Store) : HasPath tree store 1
  | first {tree operand : Expr} {rest : List Expr} {store : Store} {length : Nat}
      (among : tree.operands = operand :: rest) (path : HasPath operand store length) :
      HasPath tree store (length + 1)
  | second {tree left right : Expr} {store : Store} {value : Int} {length : Nat}
      (among : tree.operands = [left, right]) (passed : (left.eval store).result = .ok value)
      (path : HasPath right (left.eval store).store length) : HasPath tree store (length + 1)

namespace Expr

variable {tree : Expr} {store : Store} {limit : Nat}

theorem nesting_lt_of_mem_operands {tree operand : Expr} (among : operand ∈ tree.operands) :
    operand.nesting < tree.nesting := by
  cases tree with
  | const | var | unsupported => cases among
  | sign _ inner | group inner | unknownSign _ inner =>
      obtain rfl := List.mem_singleton.mp among
      exact Nat.lt_succ_self _
  | unknownBinary symbol left right =>
      simp only [operands, List.mem_cons, List.not_mem_nil, or_false] at among
      rcases among with rfl | rfl
      · exact Nat.lt_succ_of_le (Nat.le_max_left _ _)
      · exact Nat.lt_succ_of_le (Nat.le_max_right _ _)
  | binary op left right =>
      cases op with
      | assign =>
          obtain rfl := List.mem_singleton.mp among
          exact Nat.lt_succ_self _
      | arith op =>
          simp only [operands, List.mem_cons, List.not_mem_nil, or_false] at among
          rcases among with rfl | rfl
          · exact Nat.lt_succ_of_le (Nat.le_max_left _ _)
          · exact Nat.lt_succ_of_le (Nat.le_max_right _ _)

/-- No path is longer than a tree nests. -/
theorem HasPath.le_nesting {length : Nat} (path : tree.HasPath store length) : length ≤ tree.nesting := by
  induction path with
  | here tree => cases tree with
    | binary op left right => cases op <;> exact Nat.le_add_left 1 _
    | _ => exact Nat.le_add_left 1 _
  | first among _ ih => exact Nat.lt_of_le_of_lt ih (nesting_lt_of_mem_operands (by simp [among]))
  | second among _ _ ih => exact Nat.lt_of_le_of_lt ih (nesting_lt_of_mem_operands (by simp [among]))

/-- Evaluation follows a path of more nodes than a limit allows. -/
def Exceeds (tree : Expr) (store : Store) (limit : Nat) : Prop :=
  ∃ length, tree.HasPath store length ∧ limit < length

theorem exceeds_zero (tree : Expr) (store : Store) : tree.Exceeds store 0 :=
  ⟨1, .here tree store, Nat.one_pos⟩

theorem exceeds_succ_iff :
    tree.Exceeds store (limit + 1) ↔
      (∃ operand rest, tree.operands = operand :: rest ∧ operand.Exceeds store limit) ∨
      ∃ left right value, tree.operands = [left, right] ∧ (left.eval store).result = .ok value ∧
        right.Exceeds (left.eval store).store limit := by
  constructor
  · rintro ⟨length, path, longer⟩
    cases path with
    | here => omega
    | first among path => exact Or.inl ⟨_, _, among, _, path, Nat.lt_of_succ_lt_succ longer⟩
    | second among passed path => exact Or.inr ⟨_, _, _, among, passed, _, path, Nat.lt_of_succ_lt_succ longer⟩
  · rintro (⟨operand, rest, among, length, path, longer⟩ |
      ⟨left, right, value, among, passed, length, path, longer⟩)
    · exact ⟨length + 1, .first among path, Nat.succ_lt_succ longer⟩
    · exact ⟨length + 1, .second among passed path, Nat.succ_lt_succ longer⟩

end Expr

/-! ### Where the limit is hit -/

theorem Outcome.andThen_eq_error_iff {outcome : Outcome} {next : Int → Store → Outcome} {error : EvalError} :
    (outcome.andThen next).result = .error error ↔ outcome.result = .error error ∨
      ∃ value, outcome.result = .ok value ∧ (next value outcome.store).result = .error error := by
  cases ended : outcome.result with
  | ok value => simp [andThen_of_ok ended]
  | error other => simp [andThen_of_error ended, ended]

theorem ArithOp.apply_ne_nestedTooDeeply (op : ArithOp) (left right : Int) :
    op.apply left right ≠ .error .nestedTooDeeply := by
  intro failed
  obtain ⟨-, -, other⟩ := ArithOp.apply_eq_error_iff.mp failed
  cases other

namespace Expr

theorem readVar_ne_nestedTooDeeply (name : String) (store : Store) :
    (readVar name store).result ≠ .error .nestedTooDeeply := by
  unfold readVar
  cases store.get? name <;> nofun

theorem assignTo_ne_nestedTooDeeply (target : Expr) (value : Int) (store : Store) :
    (target.assignTo value store).result ≠ .error .nestedTooDeeply := by
  cases target <;> nofun

/-- What a node does with its operands within a limit. Only they can hit it. -/
inductive Combines (tree : Expr) : Prop where
  | none (operands : tree.operands = [])
      (inLimit : ∀ limit store, (tree.evalWithin (limit + 1) store).result ≠ .error .nestedTooDeeply)
  | one {operand : Expr} {next : Int → Store → Outcome} (operands : tree.operands = [operand])
      (inLimit : ∀ value store, (next value store).result ≠ .error .nestedTooDeeply)
      (evaluated : ∀ limit store,
        tree.evalWithin (limit + 1) store = (operand.evalWithin limit store).andThen next)
  | two {left right : Expr} {next : Int → Int → Store → Outcome} (operands : tree.operands = [left, right])
      (inLimit : ∀ a b store, (next a b store).result ≠ .error .nestedTooDeeply)
      (evaluated : ∀ limit store, tree.evalWithin (limit + 1) store =
        (left.evalWithin limit store).andThen fun a store => (right.evalWithin limit store).andThen (next a))

theorem combines (tree : Expr) : tree.Combines := by
  cases tree with
  | const value => exact .none rfl nofun
  | var name => exact .none rfl fun _ => readVar_ne_nestedTooDeeply name
  | unsupported => exact .none rfl nofun
  | group inner =>
      have evaluated : ∀ limit store,
          (group inner).evalWithin (limit + 1) store = (inner.evalWithin limit store).andThen .value := by
        intro limit store
        rw [Outcome.andThen_value, evalWithin]
      exact .one rfl (by simp [Outcome.value]) evaluated
  | sign op operand => exact .one rfl (by simp [Outcome.value]) fun _ _ => rfl
  | unknownSign symbol operand => exact .one rfl (by simp [Outcome.fail]) fun _ _ => rfl
  | unknownBinary symbol left right => exact .two rfl (by simp [Outcome.fail]) fun _ _ => rfl
  | binary op left right =>
      cases op with
      | assign => exact .one rfl (assignTo_ne_nestedTooDeeply left) fun _ _ => rfl
      | arith op => exact .two rfl (fun a b _ => op.apply_ne_nestedTooDeeply a b) fun _ _ => rfl

/-- The limit is hit just if evaluation follows a path that exceeds it. -/
theorem nestedTooDeeply_iff (limit : Nat) (tree : Expr) (store : Store) :
    (tree.evalWithin limit store).result = .error .nestedTooDeeply ↔ tree.Exceeds store limit := by
  induction limit generalizing tree store with
  | zero => exact iff_of_true rfl (exceeds_zero tree store)
  | succ limit ih =>
      rw [exceeds_succ_iff]
      cases tree.combines with
      | none operands inLimit => simp [operands, inLimit]
      | one operands inLimit evaluated => simp [operands, evaluated, Outcome.andThen_eq_error_iff, inLimit, ih]
      | @two left right next operands inLimit evaluated =>
          by_cases early : left.Exceeds store limit
          · simp [operands, evaluated, Outcome.andThen_eq_error_iff, ih, early]
          · have passes : (left.evalWithin limit store).result ≠ .error .nestedTooDeeply :=
              mt (ih left store).mp early
            have same : left.evalWithin limit store = left.eval store := evalWithin_eq_eval passes
            rw [same] at passes
            simp [operands, evaluated, Outcome.andThen_eq_error_iff, inLimit, ih, same, early, passes, and_assoc]

end Expr

/-! ### Evaluation with a list of its writes -/

/-- An outcome and the writes made on the way to it, in order. -/
structure Logged where
  outcome : Outcome
  writes : List (String × Int)

namespace Logged

/-- An outcome without a write. -/
def silent (outcome : Outcome) : Logged :=
  ⟨outcome, []⟩

/-- Go on with the value and the store; after a failure nothing else happens. -/
def andThen (logged : Logged) (next : Int → Store → Logged) : Logged :=
  match logged.outcome.result with
  | .ok value =>
    let later := next value logged.outcome.store
    ⟨later.outcome, logged.writes ++ later.writes⟩
  | .error _ => logged

theorem outcome_andThen (logged : Logged) (next : Int → Store → Logged) :
    (logged.andThen next).outcome = logged.outcome.andThen fun value store => (next value store).outcome := by
  unfold andThen Outcome.andThen
  cases logged.outcome.result <;> rfl

theorem andThen_value (logged : Logged) :
    (logged.andThen fun value store => silent (.value value store)) = logged := by
  obtain ⟨⟨result, store⟩, writes⟩ := logged
  cases result with
  | ok value => simp [andThen, silent, Outcome.value]
  | error error => rfl

end Logged

namespace Expr

open Logged (silent)

/-- Write a value to the target of an assignment, and list the write. -/
def assignLogged (target : Expr) (value : Int) (store : Store) : Logged :=
  match target with
  | var name => ⟨.value value (store.set name value), [(name, value)]⟩
  | _ => silent (.fail .notAssignable store)

/-- Evaluation with at most `limit` evaluations nested in one another, with the writes that it makes. -/
def logWithin : Nat → Expr → Store → Logged
  | 0, _, store => silent (.fail .nestedTooDeeply store)
  | _ + 1, const value, store => silent (.value value store)
  | _ + 1, var name, store => silent (readVar name store)
  | limit + 1, group inner, store => logWithin limit inner store
  | limit + 1, sign op operand, store =>
    (logWithin limit operand store).andThen fun value store => silent (.value (op.apply value) store)
  | limit + 1, binary (.arith op) left right, store =>
    (logWithin limit left store).andThen fun a store =>
      (logWithin limit right store).andThen fun b store => silent ⟨op.apply a b, store⟩
  | limit + 1, binary .assign target right, store =>
    (logWithin limit right store).andThen fun value store => target.assignLogged value store
  | limit + 1, unknownSign symbol operand, store =>
    (logWithin limit operand store).andThen fun _ store => silent (.fail (.unknownSign symbol) store)
  | limit + 1, unknownBinary symbol left right, store =>
    (logWithin limit left store).andThen fun _ store =>
      (logWithin limit right store).andThen fun _ store => silent (.fail (.unknownBinary symbol) store)
  | _ + 1, unsupported, store => silent (.fail .unsupported store)

theorem outcome_assignLogged (target : Expr) (value : Int) (store : Store) :
    (target.assignLogged value store).outcome = target.assignTo value store := by
  cases target <;> rfl

/-- Listing the writes changes nothing else. -/
theorem outcome_logWithin (limit : Nat) (tree : Expr) (store : Store) :
    (tree.logWithin limit store).outcome = tree.evalWithin limit store := by
  induction limit generalizing tree store with
  | zero => rfl
  | succ limit ih =>
      cases tree with
      | const | var | unsupported => rfl
      | group inner => exact ih inner store
      | sign | unknownSign | unknownBinary =>
          simp only [logWithin, evalWithin, Logged.outcome_andThen, ih]
          rfl
      | binary op left right =>
          cases op with
          | assign => simp only [logWithin, evalWithin, Logged.outcome_andThen, ih, outcome_assignLogged]
          | arith op =>
              simp only [logWithin, evalWithin, Logged.outcome_andThen, ih]
              rfl

end Expr

/-! ### The nodes carried out before the limit -/

/-- A logged evaluation follows some visits, with some values given: without the limit it ends as they do and makes
    their writes; at the limit it has carried out the first of them and made the writes of these. -/
structure Logged.Follows (visits : List Visit) (given : List Int) (store : Store) (logged : Logged) : Prop where
  stored : logged.outcome.store = store.overwrite logged.writes
  ended : logged.outcome.result ≠ .error .nestedTooDeeply → ∀ values,
    performAll visits (given ++ values) store = ⟨logged.outcome.result.map (· :: values), logged.writes⟩
  halted : logged.outcome.result = .error .nestedTooDeeply → ∃ done held, done <+: visits ∧
    ∀ values, performAll done (given ++ values) store = ⟨.ok (held ++ values), logged.writes⟩

theorem follows_visit {visit : Visit} {given : List Int} {store : Store} {outcome : Outcome}
    (write : Option (String × Int)) (stored : outcome.store = store.overwrite write.toList)
    (performed : ∀ values, visit.perform store (given ++ values) =
      outcome.result.map fun value => (value :: values, write))
    (silent : ∀ error, outcome.result = .error error → write = none)
    (inLimit : outcome.result ≠ .error .nestedTooDeeply) :
    Logged.Follows [visit] given store ⟨outcome, write.toList⟩ :=
  ⟨stored, fun _ => performAll_visit write performed silent, fun halted => absurd halted inLimit⟩

theorem follows_silent {visit : Visit} {given : List Int} {store : Store} {outcome : Outcome}
    (stored : outcome.store = store)
    (performed : ∀ values, visit.perform store (given ++ values) =
      outcome.result.map fun value => (value :: values, none))
    (inLimit : outcome.result ≠ .error .nestedTooDeeply) :
    (Logged.silent outcome).Follows [visit] given store :=
  follows_visit none stored performed (fun _ _ => rfl) inLimit

theorem follows_value {visit : Visit} {given : List Int} {store : Store} {value : Int}
    (performed : ∀ values, visit.perform store (given ++ values) = .ok (value :: values, none)) :
    (Logged.silent (.value value store)).Follows [visit] given store :=
  follows_silent rfl performed nofun

theorem follows_fail {visit : Visit} {given : List Int} {store : Store} {error : EvalError}
    (performed : ∀ values, visit.perform store (given ++ values) = .error error)
    (inLimit : error ≠ .nestedTooDeeply) : (Logged.silent (.fail error store)).Follows [visit] given store :=
  follows_silent rfl performed fun halted => inLimit (Except.error.inj halted)

/-- One half after the other: the limit may be hit in either. -/
theorem Logged.Follows.andThen {first second : List Visit} {given : List Int} {store : Store} {logged : Logged}
    {next : Int → Store → Logged} (start : logged.Follows first [] store)
    (follow : ∀ value, (next value logged.outcome.store).Follows second (value :: given) logged.outcome.store) :
    (logged.andThen next).Follows (first ++ second) given store := by
  obtain ⟨stored, ended, halted⟩ := start
  simp only [List.nil_append] at ended halted
  unfold Logged.andThen
  cases result : logged.outcome.result with
  | error error =>
      refine ⟨stored, ?_, ?_⟩
      · intro inLimit values
        rw [performAll_append, ended inLimit, result]
        rfl
      · intro tooDeep
        obtain ⟨done, held, among, carried⟩ := halted tooDeep
        refine ⟨done, held ++ given, among.trans (List.prefix_append first second), ?_⟩
        intro values
        rw [carried, List.append_assoc]
  | ok value =>
      have inLimit : logged.outcome.result ≠ .error .nestedTooDeeply := by simp [result]
      obtain ⟨storedNext, endedNext, haltedNext⟩ := follow value
      have passed : ∀ values, performAll first (given ++ values) store =
          ⟨.ok (value :: given ++ values), logged.writes⟩ := by
        intro values
        rw [ended inLimit, result]
        rfl
      refine ⟨?_, ?_, ?_⟩
      · rw [storedNext, stored, Store.overwrite_append]
      · intro inLimitNext values
        rw [performAll_append, passed]
        dsimp only
        rw [← stored, endedNext inLimitNext]
      · intro tooDeep
        obtain ⟨done, held, among, carried⟩ := haltedNext tooDeep
        refine ⟨first ++ done, held, (List.prefix_append_right_inj first).mpr among, ?_⟩
        intro values
        rw [performAll_append, passed]
        dsimp only
        rw [← stored, carried]

namespace Expr

theorem follows_readVar (name : String) (store : Store) :
    (Logged.silent (readVar name store)).Follows [.read name] [] store := by
  have inLimit := readVar_ne_nestedTooDeeply name store
  unfold readVar at inLimit ⊢
  apply follows_silent
  · cases store.get? name <;> rfl
  · intro values
    rw [Visit.perform]
    cases store.get? name <;> rfl
  · exact inLimit

theorem follows_assignLogged (target : Expr) (value : Int) (store : Store) :
    (target.assignLogged value store).Follows [.assign target] [value] store := by
  cases target with
  | var name => exact follows_visit (some (name, value)) rfl (fun _ => rfl) nofun nofun
  | _ => exact follows_fail (fun _ => rfl) (by simp)

theorem follows_arith (op : ArithOp) (a b : Int) (store : Store) :
    (Logged.silent ⟨op.apply a b, store⟩).Follows [.arith op] [b, a] store := by
  refine follows_silent rfl ?_ (op.apply_ne_nestedTooDeeply a b)
  intro values
  simp only [Visit.perform, List.cons_append, List.nil_append]
  cases op.apply a b <;> rfl

/-- An evaluation within a limit follows the visits of its tree. -/
theorem follows_logWithin (limit : Nat) (tree : Expr) (store : Store) :
    (tree.logWithin limit store).Follows tree.visits [] store := by
  induction limit generalizing tree store with
  | zero =>
      refine ⟨rfl, fun inLimit => absurd rfl inLimit, fun _ => ?_⟩
      exact ⟨[], [], List.nil_prefix, fun _ => rfl⟩
  | succ limit ih =>
      cases tree with
      | const value => exact follows_value fun _ => rfl
      | var name => exact follows_readVar name store
      | unsupported => exact follows_fail (fun _ => rfl) (by simp)
      | group inner =>
          rw [logWithin, ← Logged.andThen_value (inner.logWithin limit store)]
          apply (ih inner store).andThen
          intro value
          exact follows_value fun _ => rfl
      | sign op operand =>
          apply (ih operand store).andThen
          intro value
          exact follows_value fun _ => rfl
      | unknownSign symbol operand =>
          apply (ih operand store).andThen
          intro value
          exact follows_fail (fun _ => rfl) (by simp)
      | unknownBinary symbol left right =>
          rw [visits, List.append_assoc]
          apply (ih left store).andThen
          intro a
          apply (ih right _).andThen
          intro b
          exact follows_fail (fun _ => rfl) (by simp)
      | binary op left right =>
          cases op with
          | assign =>
              apply (ih right store).andThen
              intro value
              exact follows_assignLogged left value _
          | arith op =>
              rw [visits, List.append_assoc]
              apply (ih left store).andThen
              intro a
              apply (ih right _).andThen
              intro b
              exact follows_arith op a b _

end Expr

/-- **Nesting limit.** The limit is hit just if evaluation follows a path of more nodes; if it is not hit, the outcome
    is the one without a limit. If it is hit, the nodes up to there have been carried out as they are without a limit:
    the writes made are the first of the writes made without one, and the store is what these leave, the last write to
    a name deciding its value. The writes are those that the evaluation lists as it makes them. -/
theorem limit_leaves_first_writes (limit : Nat) (tree : Expr) (store : Store) :
    let outcome := tree.evalWithin limit store
    let logged := tree.logWithin limit store
    (outcome.result = .error .nestedTooDeeply ↔ ∃ length, tree.HasPath store length ∧ limit < length) ∧
      (outcome.result ≠ .error .nestedTooDeeply → outcome = tree.eval store) ∧
      logged.outcome = outcome ∧ outcome.store = store.overwrite logged.writes ∧
      (∀ name, outcome.store.get? name = (lastWrite? logged.writes name).or (store.get? name)) ∧
      (outcome.result = .error .nestedTooDeeply → logged.writes <+: tree.writeLog store ∧
        ∃ done held, done <+: tree.visits ∧ performAll done [] store = ⟨.ok held, logged.writes⟩) := by
  intro outcome logged
  have same : logged.outcome = outcome := Expr.outcome_logWithin limit tree store
  obtain ⟨stored, -, halted⟩ := Expr.follows_logWithin limit tree store
  rw [Expr.outcome_logWithin] at stored halted
  refine ⟨Expr.nestedTooDeeply_iff limit tree store, Expr.evalWithin_eq_eval, same, stored, ?_, ?_⟩
  · intro name
    rw [stored, Store.get?_overwrite]
  intro tooDeep
  obtain ⟨done, held, ⟨rest, split⟩, carried⟩ := halted tooDeep
  have carried : performAll done [] store = ⟨.ok (held ++ []), logged.writes⟩ := carried []
  refine ⟨?_, done, held ++ [], ⟨rest, split⟩, carried⟩
  have log : tree.writeLog store =
      logged.writes ++ (performAll rest (held ++ []) (store.overwrite logged.writes)).writes := by
    rw [Expr.writeLog, ← split, performAll_append, carried]
  rw [log]
  exact List.prefix_append _ _

/-- On the left the limit is reached and not exceeded, so that `y` is written; the signs on the right exceed it
    before anything else is. Without a limit `x` is written as well. Behind a division by zero the signs are not
    reached, and no limit of three is hit. -/
theorem limit_leaves_first_writes_signs :
    let signs := Expr.sign .minus (.sign .minus (.group (.binary .assign (.var "x") (.const 1))))
    let tree := Expr.binary (.arith .add) (.group (.binary .assign (.var "y") (.const 5))) signs
    let failing := Expr.binary (.arith .add) (.binary (.arith .div) (.const 1) (.const 0)) signs
    (tree.evalWithin 4 Store.empty).result = .error .nestedTooDeeply ∧
      (tree.evalWithin 4 Store.empty).store = Store.empty.overwrite [("y", 5)] ∧
      [("y", 5)] <+: tree.writeLog Store.empty ∧ tree.writeLog Store.empty = [("y", 5), ("x", 1)] ∧
      tree.evalWithin 6 Store.empty = tree.eval Store.empty ∧
      ¬∃ length, failing.HasPath Store.empty length ∧ 3 < length := by
  intro signs tree failing
  have tooDeep : (tree.evalWithin 4 Store.empty).result = .error .nestedTooDeeply := by rfl
  obtain ⟨-, -, -, stored, -, halted⟩ := limit_leaves_first_writes 4 tree Store.empty
  obtain ⟨early, -⟩ := halted tooDeep
  obtain ⟨hit, agrees, -⟩ := limit_leaves_first_writes 6 tree Store.empty
  have short : ¬∃ length, tree.HasPath Store.empty length ∧ 6 < length := by
    rintro ⟨length, path, longer⟩
    exact absurd path.le_nesting (Nat.not_le.mpr longer)
  obtain ⟨reached, -⟩ := limit_leaves_first_writes 3 failing Store.empty
  have divided : (failing.evalWithin 3 Store.empty).result = .error .divisionByZero := by rfl
  refine ⟨tooDeep, stored, early, rfl, agrees (mt hit.mp short), mt reached.mpr ?_⟩
  rw [divided]
  nofun

end Calculator
