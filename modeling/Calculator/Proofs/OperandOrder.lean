/-
Module: Calculator.Proofs.OperandOrder
Purpose: When the order of two operands makes no difference. An expression takes no notice of writes to names that it
  does not mention: it comes to the same result and makes the same writes. So of two expressions neither of which
  assigns to a name in the other, each does beside the other what it does alone, and two lists of writes to different
  names leave the same variables in either order.
Main exports: Store.get?_overwrite_comm, Expr.onlyReads_names, Expr.inStep_overwrite, Expr.AssignsOutside,
  Expr.inStep_behind, Expr.get?_behind, Expr.evalWithin_arith_eq_ok_iff, sums_and_products_in_either_order
-/
import Calculator.Expr.Names
import Calculator.Proofs.Noninterference

namespace Calculator

/-! ### Writes to different names -/

theorem lastWrite?_of_unwritten {writes : List (String × Int)} {name : String}
    (unwritten : ∀ write ∈ writes, write.1 ≠ name) : lastWrite? writes name = none := by
  unfold lastWrite?
  rw [List.lookup_eq_none_iff]
  intro write among
  simpa using (unwritten write (List.mem_reverse.mp among)).symm

/-- Writes to different names leave the same variables in either order. -/
theorem Store.get?_overwrite_comm (store : Store) {first second : List (String × Int)}
    (apart : ∀ one ∈ first, ∀ other ∈ second, one.1 ≠ other.1) (name : String) :
    ((store.overwrite first).overwrite second).get? name = ((store.overwrite second).overwrite first).get? name := by
  simp only [get?_overwrite]
  by_cases written : ∃ one ∈ first, one.1 = name
  · obtain ⟨one, among, rfl⟩ := written
    have unwritten : lastWrite? second one.1 = none :=
      lastWrite?_of_unwritten fun other late => (apart one among other late).symm
    simp [unwritten]
  · have unwritten : lastWrite? first name = none :=
      lastWrite?_of_unwritten fun one among same => written ⟨one, among, same⟩
    simp [unwritten]

theorem Store.agreeOn_overwrite {names : String → Prop} (store : Store) {writes : List (String × Int)}
    (outside : ∀ write ∈ writes, ¬names write.1) : store.AgreeOn names (store.overwrite writes) := by
  intro name among
  have unwritten : lastWrite? writes name = none :=
    lastWrite?_of_unwritten fun write written same => outside write written (same ▸ among)
  rw [get?_overwrite, unwritten, Option.none_or]

/-! ### Writes beside an expression -/

namespace Expr

theorem mem_names_of_read {tree : Expr} {name : String} (visited : .read name ∈ tree.visits) :
    name ∈ tree.names := by
  induction tree with
  | const | unsupported => simp [visits] at visited
  | var other => simpa [visits, names] using visited
  | sign _ operand ih | unknownSign _ operand ih | group operand ih =>
      have inside : .read name ∈ operand.visits := by simpa [visits] using visited
      exact ih inside
  | unknownBinary _ left right leftIh rightIh =>
      have inside : .read name ∈ left.visits ∨ .read name ∈ right.visits := by simpa [visits] using visited
      exact List.mem_append.mpr (inside.imp leftIh rightIh)
  | binary op left right leftIh rightIh =>
      have inside : .read name ∈ left.visits ∨ .read name ∈ right.visits := by
        cases op with
        | assign => exact Or.inr (by simpa [visits] using visited)
        | arith op => simpa [visits] using visited
      exact List.mem_append.mpr (inside.imp leftIh rightIh)

/-- What a tree reads it mentions. -/
theorem onlyReads_names (tree : Expr) : tree.OnlyReads (· ∈ tree.names) :=
  fun _ => mem_names_of_read

/-- A tree takes no notice of writes to names that it does not mention. -/
theorem inStep_overwrite (limit : Nat) (tree : Expr) (store : Store) {writes : List (String × Int)}
    (unmentioned : ∀ write ∈ writes, write.1 ∉ tree.names) :
    InStep (· ∈ tree.targets) store (store.overwrite writes) (tree.evalWithin limit store)
      (tree.evalWithin limit (store.overwrite writes)) :=
  inStep_evalWithin limit tree.onlyReads_names (fun _ => id) (store.agreeOn_overwrite unmentioned)

/-! ### Two operands -/

/-- A tree assigns only to names that another one does not mention. -/
def AssignsOutside (tree other : Expr) : Prop :=
  ∀ name ∈ tree.targets, name ∉ other.names

instance (tree other : Expr) : Decidable (tree.AssignsOutside other) :=
  List.decidableBAll (fun name => name ∉ other.names) tree.targets

variable {left right : Expr}

/-- Behind a tree that assigns outside of it, a tree does what it does alone. -/
theorem inStep_behind (limit : Nat) (store : Store) (outside : left.AssignsOutside right) :
    InStep (· ∈ right.targets) store (left.evalWithin limit store).store (right.evalWithin limit store)
      (right.evalWithin limit (left.evalWithin limit store).store) := by
  have unwritten : ∀ write ∈ ([] : List (String × Int)), write.1 ∉ left.names := nofun
  obtain ⟨-, writes, stored, -, targets⟩ := left.inStep_overwrite limit store unwritten
  rw [stored]
  exact right.inStep_overwrite limit store fun write among => outside write.1 (targets write among)

/-- One behind the other, two trees that assign outside of each other leave the same variables in either order. -/
theorem get?_behind (limit : Nat) (store : Store) (leftOutside : left.AssignsOutside right)
    (rightOutside : right.AssignsOutside left) (name : String) :
    (right.evalWithin limit (left.evalWithin limit store).store).store.get? name =
      (left.evalWithin limit (right.evalWithin limit store).store).store.get? name := by
  obtain ⟨-, late, rightAlone, rightBehind, rightTargets⟩ := inStep_behind limit store leftOutside
  obtain ⟨-, early, leftAlone, leftBehind, leftTargets⟩ := inStep_behind limit store rightOutside
  rw [rightBehind, leftBehind, leftAlone, rightAlone]
  apply Store.get?_overwrite_comm
  intro one among other amongOther same
  have mentioned : other.1 ∈ right.names := right.targets_subset_names other.1 (rightTargets other amongOther)
  exact leftOutside one.1 (leftTargets one among) (same ▸ mentioned)

end Expr

/-! ### Sums and products -/

theorem Outcome.andThen_eq_ok_iff {outcome : Outcome} {next : Int → Store → Outcome} {value : Int} :
    (outcome.andThen next).result = .ok value ↔
      ∃ first, outcome.result = .ok first ∧ (next first outcome.store).result = .ok value := by
  cases ended : outcome.result with
  | ok first => simp [andThen_of_ok ended]
  | error error => simp [andThen_of_error ended, ended]

theorem ArithOp.apply_comm {op : ArithOp} (commutes : op = .add ∨ op = .mul) (a b : Int) :
    op.apply a b = op.apply b a := by
  rcases commutes with rfl | rfl
  · rw [apply, apply, Int.add_comm]
  · rw [apply, apply, Int.mul_comm]

namespace Expr

variable {limit : Nat} {op : ArithOp} {left right : Expr} {store : Store} {value : Int}

/-- With a left operand that assigns outside of the right one, both operands have the values that they have alone. -/
theorem evalWithin_arith_eq_ok_iff (outside : left.AssignsOutside right) :
    ((binary (.arith op) left right).evalWithin (limit + 1) store).result = .ok value ↔
      ∃ a b, (left.evalWithin limit store).result = .ok a ∧ (right.evalWithin limit store).result = .ok b ∧
        op.apply a b = .ok value := by
  have alone := (inStep_behind limit store outside).result
  simp only [evalWithin, Outcome.andThen_eq_ok_iff, ← alone, exists_and_left]

/-- A sum or product with a value leaves the store that its right operand leaves behind the left one. -/
theorem store_evalWithin_arith
    (ended : ((binary (.arith op) left right).evalWithin (limit + 1) store).result = .ok value) :
    ((binary (.arith op) left right).evalWithin (limit + 1) store).store =
      (right.evalWithin limit (left.evalWithin limit store).store).store := by
  rw [evalWithin] at ended ⊢
  obtain ⟨a, first, ended⟩ := Outcome.andThen_eq_ok_iff.mp ended
  obtain ⟨b, second, -⟩ := Outcome.andThen_eq_ok_iff.mp ended
  rw [Outcome.andThen_of_ok first, Outcome.andThen_of_ok second]

end Expr

/-- **Order of operands.** A sum or product of two expressions, neither of which assigns to a variable in the other,
    has a value just if it has one with its operands in the other order; then the values are the same, and so are the
    variables in the stores left behind. -/
theorem sums_and_products_in_either_order (limit : Nat) {op : ArithOp} (commutes : op = .add ∨ op = .mul)
    {left right : Expr} (leftOutside : left.AssignsOutside right) (rightOutside : right.AssignsOutside left)
    (store : Store) :
    let outcome := (Expr.binary (.arith op) left right).evalWithin limit store
    let swapped := (Expr.binary (.arith op) right left).evalWithin limit store
    ∀ value, (outcome.result = .ok value ↔ swapped.result = .ok value) ∧
      (outcome.result = .ok value → ∀ name, outcome.store.get? name = swapped.store.get? name) := by
  intro outcome swapped value
  cases limit with
  | zero => exact ⟨Iff.rfl, nofun⟩
  | succ limit =>
      have alike : outcome.result = .ok value ↔ swapped.result = .ok value := by
        rw [Expr.evalWithin_arith_eq_ok_iff leftOutside, Expr.evalWithin_arith_eq_ok_iff rightOutside]
        constructor
        · rintro ⟨a, b, first, second, applied⟩
          exact ⟨b, a, second, first, ArithOp.apply_comm commutes b a ▸ applied⟩
        · rintro ⟨b, a, second, first, applied⟩
          exact ⟨a, b, first, second, ArithOp.apply_comm commutes a b ▸ applied⟩
      refine ⟨alike, ?_⟩
      intro ended name
      rw [Expr.store_evalWithin_arith ended, Expr.store_evalWithin_arith (alike.mp ended)]
      exact Expr.get?_behind limit store leftOutside rightOutside name

/-- Each operand writes a variable that the other one does not mention, and both read a third one. -/
theorem sums_and_products_in_either_order_writes :
    let left := Expr.binary (.arith .sub) (.group (.binary .assign (.var "a") (.const 2))) (.var "x")
    let right := Expr.group (.binary .assign (.var "b") (.sign .minus (.var "x")))
    let store := Store.ofList [("x", 7), ("b", 1)]
    let swapped := (Expr.binary (.arith .mul) right left).evalWithin 20 store
    left.AssignsOutside right ∧ right.AssignsOutside left ∧
      ((Expr.binary (.arith .mul) left right).evalWithin 20 store).result = .ok 35 ∧
      swapped.result = .ok 35 ∧ swapped.store.get? "a" = some 2 ∧ swapped.store.get? "b" = some (-7) := by
  intro left right store swapped
  have leftOutside : left.AssignsOutside right := by decide
  have rightOutside : right.AssignsOutside left := by decide
  have ended : ((Expr.binary (.arith .mul) left right).evalWithin 20 store).result = .ok 35 := by rfl
  obtain ⟨alike, same⟩ :=
    sums_and_products_in_either_order 20 (Or.inr rfl) leftOutside rightOutside store 35
  exact ⟨leftOutside, rightOutside, ended, alike.mp ended, (same ended "a").symm, (same ended "b").symm⟩

end Calculator
