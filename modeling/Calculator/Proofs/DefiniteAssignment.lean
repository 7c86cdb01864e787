/-
Module: Calculator.Proofs.DefiniteAssignment
Purpose: Which variables have a value when they are read. After some nodes of a tree have been carried out, the names
  in the store are those that were there before and the targets of the assignments among these nodes. So a read that
  fails names a variable that nothing before it has assigned to, and it is still absent when the evaluation has ended.
  If each variable read is in the store or the target of an earlier assignment, no read fails.
Main exports: Store.contains_overwrite_iff, contains_of_carried, Expr.ReadsAssigned, readsAssigned_of_ok,
  unassigned_of_failed, reads_follow_assignments
-/
import Calculator.Proofs.ErrorKinds

namespace Calculator

/-! ### The names in a store -/

theorem Store.contains_set_iff {store : Store} {written name : String} {value : Int} :
    (store.set written value).contains name ↔ name = written ∨ store.contains name := by
  rw [contains, get?_set]
  by_cases same : name = written
  · simp [same]
  · simp [same, contains]

/-- Writes add the names written to, and no write takes a name away. -/
theorem Store.contains_overwrite_iff {store : Store} {writes : List (String × Int)} {name : String} :
    (store.overwrite writes).contains name ↔ store.contains name ∨ name ∈ writes.map Prod.fst := by
  induction writes generalizing store with
  | nil => simp
  | cons write rest ih =>
      change ((store.set write.1 write.2).overwrite rest).contains name ↔ _
      rw [ih, contains_set_iff, List.map_cons, List.mem_cons, or_assoc, or_left_comm]

theorem Visit.target?_eq_some_iff {visit : Visit} {target : Expr} :
    visit.target? = some target ↔ visit = .assign target := by
  cases visit <;> simp [target?]

/-- Once some nodes are carried out, the names in the store are those from before and the targets of the assignments
    among these nodes. -/
theorem contains_of_carried {done : List Visit} {held : List Int} {store : Store} {writes : List (String × Int)}
    (supplied : Supplied ([] : List Int).length done)
    (carried : performAll done [] store = ⟨.ok held, writes⟩) {name : String} :
    (store.overwrite writes).contains name ↔ store.contains name ∨ .assign (.var name) ∈ done := by
  have targets : (writes.map fun write => Expr.var write.1) = done.filterMap Visit.target? :=
    targets_of_performAll supplied carried
  have written : name ∈ writes.map Prod.fst ↔ Visit.assign (.var name) ∈ done :=
    calc name ∈ writes.map Prod.fst
      _ ↔ Expr.var name ∈ writes.map fun write => Expr.var write.1 := by simp
      _ ↔ Expr.var name ∈ done.filterMap Visit.target? := by rw [targets]
      _ ↔ Visit.assign (.var name) ∈ done := by simp [Visit.target?_eq_some_iff]
  rw [Store.contains_overwrite_iff, written]

/-! ### Reads and the assignments before them -/

variable {limit : Nat} {tree : Expr} {store : Store} {name : String}

/-- Each variable that is read, in the order of evaluation, is in the store or the target of an earlier assignment. -/
def Expr.ReadsAssigned (tree : Expr) (store : Store) : Prop :=
  ∀ before name after, tree.visits = before ++ .read name :: after →
    store.contains name ∨ .assign (.var name) ∈ before

theorem Course.supplied (course : Course tree store) : Supplied ([] : List Int).length course.done := by
  apply Supplied.of_append
  rw [← course.visits_eq]
  exact supplied_visits tree

/-- Only a read fails for an absent variable. -/
theorem Visit.Fails.eq_read {visit : Visit} {held : List Int} (fails : visit.Fails store held (.uninitialized name)) :
    visit = .read name ∧ store.get? name = none := by
  cases fails with
  | absent missing => exact ⟨rfl, missing⟩

/-- An evaluation that has a value has found every variable that it reads. -/
theorem readsAssigned_of_ok {value : Int} (ended : (tree.evalWithin limit store).result = .ok value) :
    tree.ReadsAssigned store := by
  intro before name after split
  have inLimit : (tree.evalWithin limit store).result ≠ .error .nestedTooDeeply := by simp [ended]
  obtain ⟨course, ends⟩ := exists_course_of_evalWithin inLimit
  rw [ended] at ends
  cases left : course.rest with
  | cons failing others => simp [Course.EndsIn, left] at ends
  | nil =>
      have all : course.done = before ++ .read name :: after := by simpa [left, split] using course.visits_eq.symm
      have carried := course.carried
      have supplied := course.supplied
      rw [all] at carried supplied
      obtain ⟨between, early, late, carriedBefore, carriedRead, -⟩ := performAll_of_append carried
      rw [← contains_of_carried supplied.of_append carriedBefore]
      rw [performAll, Visit.perform] at carriedRead
      cases found : (store.overwrite early).get? name with
      | some value => simp [Store.contains, found]
      | none => simp [found] at carriedRead

/-- A read that fails ends an evaluation before which nothing has assigned to its variable. -/
theorem unassigned_of_failed (failed : (tree.evalWithin limit store).result = .error (.uninitialized name)) :
    ∃ before after, tree.visits = before ++ .read name :: after ∧ .assign (.var name) ∉ before ∧
      ¬store.contains name ∧ ¬(tree.evalWithin limit store).store.contains name := by
  have inLimit : (tree.evalWithin limit store).result ≠ .error .nestedTooDeeply := by simp [failed]
  obtain ⟨course, ends⟩ := exists_course_of_evalWithin inLimit
  rw [failed] at ends
  cases left : course.rest with
  | nil => simp [Course.EndsIn, left] at ends
  | cons failing others =>
      have fails : failing.Fails (store.overwrite (tree.writeLog store)) course.held (.uninitialized name) := by
        simpa [Course.EndsIn, left] using ends
      obtain ⟨rfl, missing⟩ := fails.eq_read
      have absent : ¬(store.overwrite (tree.writeLog store)).contains name := by simp [Store.contains, missing]
      obtain ⟨notBefore, unassigned⟩ : ¬store.contains name ∧ .assign (.var name) ∉ course.done := by
        rwa [contains_of_carried course.supplied course.carried, not_or] at absent
      refine ⟨course.done, others, by rw [course.visits_eq, left], unassigned, notBefore, ?_⟩
      rw [Expr.evalWithin_eq_eval inLimit, store_eval]
      exact absent

/-- **Definite assignment.** A variable that turns out to be absent when it is read was not in the store, is not in
    the store left behind, and is the target of no earlier assignment. So if each variable read is in the store or
    the target of an earlier assignment, evaluation does not fail for an absent variable, whatever else it fails
    for; and wherever evaluation has a value, each variable is. -/
theorem reads_follow_assignments (limit : Nat) (tree : Expr) (store : Store) :
    let outcome := tree.evalWithin limit store
    (∀ name, outcome.result = .error (.uninitialized name) →
      ¬store.contains name ∧ ¬outcome.store.contains name ∧
        ∃ before after, tree.visits = before ++ .read name :: after ∧ .assign (.var name) ∉ before) ∧
    (tree.ReadsAssigned store → ∀ name, outcome.result ≠ .error (.uninitialized name)) ∧
    ∀ value, outcome.result = .ok value → tree.ReadsAssigned store := by
  intro outcome
  refine ⟨?_, ?_, fun _ => readsAssigned_of_ok⟩
  · intro name failed
    obtain ⟨before, after, split, unassigned, notBefore, notAfter⟩ := unassigned_of_failed failed
    exact ⟨notBefore, notAfter, before, after, split, unassigned⟩
  · intro assigned name failed
    obtain ⟨before, after, split, unassigned, notBefore, -⟩ := unassigned_of_failed failed
    rcases assigned before name after split with present | earlier
    · exact notBefore present
    · exact unassigned earlier

/-- The quotient reads `a` behind its assignment. With `b` in the store no read fails, and the division does; without
    `b` the read of it fails behind the write of `a`. -/
theorem reads_follow_assignments_quotient :
    let tree := Expr.binary (.arith .add) (.group (.binary .assign (.var "a") (.const 1)))
      (.binary (.arith .div) (.var "a") (.var "b"))
    let store := Store.ofList [("b", 0)]
    tree.ReadsAssigned store ∧ (tree.evalWithin 4 store).result = .error .divisionByZero ∧
      (∀ name, (tree.evalWithin 4 store).result ≠ .error (.uninitialized name)) ∧
      (tree.evalWithin 4 Store.empty).result = .error (.uninitialized "b") ∧
      ¬(tree.evalWithin 4 Store.empty).store.contains "b" ∧
      (tree.evalWithin 4 Store.empty).store.contains "a" := by
  intro tree store
  have visits : tree.visits =
      [.const 1, .assign (.var "a"), .group, .read "a", .read "b", .arith .div, .arith .add] := by rfl
  have assigned : tree.ReadsAssigned store := by
    intro before name after split
    simp only [visits, List.cons_eq_append_iff, List.cons.injEq, reduceCtorEq, false_and, and_false,
      Visit.read.injEq, List.nil_eq, List.append_eq_nil_iff, exists_const, or_self, or_false, false_or] at split
    obtain ⟨_, rfl, _, rfl, _, rfl, ⟨rfl, rfl, -⟩ | ⟨_, rfl, rfl, rfl, -⟩⟩ := split
    · exact Or.inr (by decide)
    · exact Or.inl rfl
  have failed : (tree.evalWithin 4 Store.empty).result = .error (.uninitialized "b") := by rfl
  obtain ⟨-, neverAbsent, -⟩ := reads_follow_assignments 4 tree store
  obtain ⟨absent, -⟩ := reads_follow_assignments 4 tree Store.empty
  exact ⟨assigned, rfl, neverAbsent assigned, failed, (absent "b" failed).2.1, rfl⟩

end Calculator
