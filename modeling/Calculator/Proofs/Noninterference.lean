/-
Module: Calculator.Proofs.Noninterference
Purpose: What an evaluation depends on. Two evaluations of one tree on stores that agree on the variables it reads
  go through it in step: whatever one writes the other writes, so their stores still agree when the next variable
  is read, and they end in the same value or error with the same writes made, also at the nesting limit. In a
  text, the names read are those with a token that no `=` follows.
Main exports: Store.AgreeOn, InStep, Expr.OnlyReads,
  Expr.inStep_evalWithin, ReadIn, readIn_of_mem_visits, performAll_congr, evaluate_depends_on_reads
-/
import Calculator.Proofs.SessionStore
import Calculator.Proofs.WriteLog

namespace Calculator

/-! ### Stores that agree -/

/-- Two stores have the same names among some, with the same values. -/
def Store.AgreeOn (names : String → Prop) (first second : Store) : Prop :=
  ∀ name, names name → first.get? name = second.get? name

/-- Writing the same to both keeps the agreement. -/
theorem Store.AgreeOn.overwrite {names : String → Prop} {first second : Store} (agree : AgreeOn names first second)
    (writes : List (String × Int)) : AgreeOn names (first.overwrite writes) (second.overwrite writes) := by
  intro name among
  rw [get?_overwrite, get?_overwrite, agree name among]

/-! ### Two evaluations in step -/

/-- Two outcomes, reached from two stores, with the same result and after the same writes, all of them to names
    that may be written to. -/
structure InStep (mayWrite : String → Prop) (first second : Store) (one other : Outcome) : Prop where
  result : one.result = other.result
  writes : ∃ writes, one.store = first.overwrite writes ∧ other.store = second.overwrite writes ∧
    ∀ write ∈ writes, mayWrite write.1

variable {mayRead mayWrite : String → Prop} {first second : Store}

/-- Nothing is written. -/
theorem inStep_silent (mayWrite : String → Prop) (result : Except EvalError Int) (first second : Store) :
    InStep mayWrite first second ⟨result, first⟩ ⟨result, second⟩ :=
  ⟨rfl, [], rfl, rfl, nofun⟩

theorem InStep.andThen {one other : Outcome} {next : Int → Store → Outcome}
    (start : InStep mayWrite first second one other) (agree : first.AgreeOn mayRead second)
    (follow : ∀ value, one.store.AgreeOn mayRead other.store →
      InStep mayWrite one.store other.store (next value one.store) (next value other.store)) :
    InStep mayWrite first second (one.andThen next) (other.andThen next) := by
  obtain ⟨same, early, oneStore, otherStore, mayEarly⟩ := start
  cases ended : one.result with
  | error error =>
      rw [Outcome.andThen_of_error ended, Outcome.andThen_of_error (same ▸ ended)]
      exact ⟨same, early, oneStore, otherStore, mayEarly⟩
  | ok value =>
      rw [Outcome.andThen_of_ok ended, Outcome.andThen_of_ok (same ▸ ended)]
      -- both stores got the same writes, so what follows starts from stores that agree
      have stillAgree : one.store.AgreeOn mayRead other.store := by
        rw [oneStore, otherStore]
        exact agree.overwrite early
      obtain ⟨sameNext, late, oneNext, otherNext, mayLate⟩ := follow value stillAgree
      refine ⟨sameNext, early ++ late, ?_, ?_, List.forall_mem_append.mpr ⟨mayEarly, mayLate⟩⟩
      · rw [oneNext, oneStore, Store.overwrite_append]
      · rw [otherNext, otherStore, Store.overwrite_append]

namespace Expr

theorem inStep_readVar {name : String} (same : first.get? name = second.get? name) :
    InStep mayWrite first second (readVar name first) (readVar name second) := by
  unfold readVar
  rw [← same]
  cases first.get? name with
  | some value => exact inStep_silent ..
  | none => exact inStep_silent ..

theorem inStep_assignTo {target right : Expr}
    (targets : ∀ name ∈ (binary .assign target right).targets, mayWrite name) (value : Int)
    (first second : Store) :
    InStep mayWrite first second (target.assignTo value first) (target.assignTo value second) := by
  cases target with
  | var name =>
      have may : mayWrite name := targets name List.mem_cons_self
      exact ⟨rfl, [(name, value)], rfl, rfl, List.forall_mem_singleton.mpr may⟩
  | _ => exact inStep_silent ..

/-- The variables that a tree reads are among some names. -/
def OnlyReads (mayRead : String → Prop) (tree : Expr) : Prop :=
  ∀ name, .read name ∈ tree.visits → mayRead name

/-- An operand reads nothing that the tree does not. -/
theorem OnlyReads.operand {tree operand : Expr} (reads : tree.OnlyReads mayRead)
    (among : operand ∈ tree.operands) : operand.OnlyReads mayRead := by
  intro name visited
  apply reads name
  rw [visits_eq]
  exact List.mem_append_left _ (List.mem_flatMap.mpr ⟨operand, among, visited⟩)

/-- Evaluations of one tree on stores that agree on what it reads stay in step to the end, whatever that is. -/
theorem inStep_evalWithin (limit : Nat) {tree : Expr} (reads : tree.OnlyReads mayRead)
    (targets : ∀ name ∈ tree.targets, mayWrite name) (agree : first.AgreeOn mayRead second) :
    InStep mayWrite first second (tree.evalWithin limit first) (tree.evalWithin limit second) := by
  induction limit generalizing tree first second with
  | zero => exact inStep_silent ..
  | succ limit ih =>
      cases tree with
      | const | unsupported => exact inStep_silent ..
      | var name => exact inStep_readVar (agree name (reads name List.mem_cons_self))
      | group inner =>
          have innerReads : inner.OnlyReads mayRead := reads.operand List.mem_cons_self
          exact ih innerReads targets agree
      | sign _ operand | unknownSign _ operand =>
          have operandReads : operand.OnlyReads mayRead := reads.operand List.mem_cons_self
          apply (ih operandReads targets agree).andThen agree
          intro value _
          exact inStep_silent ..
      | unknownBinary symbol left right =>
          obtain ⟨leftTargets, rightTargets⟩ := List.forall_mem_append.mp targets
          have leftReads : left.OnlyReads mayRead := reads.operand List.mem_cons_self
          have rightReads : right.OnlyReads mayRead :=
            reads.operand (List.mem_cons_of_mem _ List.mem_cons_self)
          apply (ih leftReads leftTargets agree).andThen agree
          intro _ between
          apply (ih rightReads rightTargets between).andThen between
          intro _ _
          exact inStep_silent ..
      | binary op left right =>
          cases op with
          | assign =>
              have rightTargets := (List.forall_mem_append.mp targets).2
              have rightReads : right.OnlyReads mayRead := reads.operand List.mem_cons_self
              apply (ih rightReads rightTargets agree).andThen agree
              intro value _
              exact inStep_assignTo targets value _ _
          | arith op =>
              obtain ⟨leftTargets, rightTargets⟩ := List.forall_mem_append.mp targets
              have leftReads : left.OnlyReads mayRead := reads.operand List.mem_cons_self
              have rightReads : right.OnlyReads mayRead :=
                reads.operand (List.mem_cons_of_mem _ List.mem_cons_self)
              apply (ih leftReads leftTargets agree).andThen agree
              intro a between
              apply (ih rightReads rightTargets between).andThen between
              intro b _
              exact inStep_silent ..

end Expr

/-! ### From reads to tokens -/

/-- A name stands among some symbols where it is read: the next symbol is not `=`. -/
def ReadAmong (name : String) (symbols : List Symbol) : Prop :=
  ∃ before after, symbols = before ++ .var name :: after ∧ after.head? ≠ some .assign

/-- A name is read in a text: one of its tokens is the name, and the next one is not `=`. -/
def ReadIn (text : String) (name : String) : Prop :=
  ReadAmong name ((tokenize text).map Token.symbol)

@[simp] theorem not_readAmong_nil (name : String) : ¬ReadAmong name [] := by
  simp [ReadAmong]

@[simp] theorem readAmong_cons_iff {name : String} {symbol : Symbol} {rest : List Symbol} :
    ReadAmong name (symbol :: rest) ↔
      (symbol = .var name ∧ rest.head? ≠ some .assign) ∨ ReadAmong name rest := by
  simp only [ReadAmong, List.cons_eq_append_iff]
  constructor
  · rintro ⟨before, after, ⟨-, first⟩ | ⟨before, -, rfl⟩, ends⟩
    · cases first
      exact Or.inl ⟨rfl, ends⟩
    · exact Or.inr ⟨before, after, rfl, ends⟩
  · rintro (⟨rfl, ends⟩ | ⟨before, after, rfl, ends⟩)
    · exact ⟨[], rest, Or.inl ⟨rfl, rfl⟩, ends⟩
    · exact ⟨symbol :: before, after, Or.inr ⟨before, rfl, rfl⟩, ends⟩

namespace ReadAmong

variable {name : String} {symbols : List Symbol}

theorem behind (front : List Symbol) (among : ReadAmong name symbols) : ReadAmong name (front ++ symbols) := by
  obtain ⟨before, after, rfl, ends⟩ := among
  exact ⟨front ++ before, after, (List.append_assoc ..).symm, ends⟩

theorem before (among : ReadAmong name symbols) (next : Symbol) (notAssign : next ≠ .assign)
    (others : List Symbol) : ReadAmong name (symbols ++ next :: others) := by
  obtain ⟨before, after, rfl, ends⟩ := among
  refine ⟨before, after ++ next :: others, List.append_assoc .., ?_⟩
  cases after with
  | nil => simpa using notAssign
  | cons first rest => simpa using ends

end ReadAmong

/-- A variable that is visited stands in no target: no `=` follows it. -/
theorem readAmong_of_mem_visits {tree : Expr} {name : String} (visited : Visit.read name ∈ tree.visits) :
    ReadAmong name tree.symbols := by
  induction tree with
  | const | unsupported => simp [Expr.visits] at visited
  | var other =>
      obtain rfl : name = other := by simpa [Expr.visits] using visited
      exact ⟨[], [], rfl, by simp⟩
  | sign op operand ih =>
      have inside : Visit.read name ∈ operand.visits := by simpa [Expr.visits] using visited
      exact (ih inside).behind [op.symbol]
  | unknownSign symbol operand ih =>
      have inside : Visit.read name ∈ operand.visits := by simpa [Expr.visits] using visited
      exact (ih inside).behind [.unexpected symbol]
  | group inner ih =>
      have inside : Visit.read name ∈ inner.visits := by simpa [Expr.visits] using visited
      exact ((ih inside).before .closeParen (by simp) []).behind [.openParen]
  | unknownBinary symbol left right leftIh rightIh =>
      have inside : Visit.read name ∈ left.visits ∨ Visit.read name ∈ right.visits := by
        simpa [Expr.visits] using visited
      rcases inside with inside | inside
      · exact (leftIh inside).before (.unexpected symbol) (by simp) right.symbols
      · exact ((rightIh inside).behind [.unexpected symbol]).behind left.symbols
  | binary op left right leftIh rightIh =>
      cases op with
      | assign =>
          have inside : Visit.read name ∈ right.visits := by simpa [Expr.visits] using visited
          exact ((rightIh inside).behind [.assign]).behind left.symbols
      | arith op =>
          have inside : Visit.read name ∈ left.visits ∨ Visit.read name ∈ right.visits := by
            simpa [Expr.visits] using visited
          rcases inside with inside | inside
          · have notAssign : (InfixOp.arith op).symbol ≠ .assign := by cases op <;> simp [InfixOp.symbol]
            exact (leftIh inside).before _ notAssign right.symbols
          · exact ((rightIh inside).behind [_]).behind left.symbols

theorem readIn_of_mem_visits {text : String} {tree : Expr} (parsed : parse text = .ok tree) {name : String}
    (visited : .read name ∈ tree.visits) : ReadIn text name := by
  rw [ReadIn, ← (parseTokens_grouped parsed).2.2]
  exact readAmong_of_mem_visits visited

/-! ### Writes in order -/

/-- A node looks at the store only to read a variable. -/
theorem Visit.perform_congr {visit : Visit} (same : ∀ name, visit = .read name → first.get? name = second.get? name)
    (values : List Int) : visit.perform first values = visit.perform second values := by
  cases visit with
  | read name => simp only [perform, same name rfl]
  | sign op =>
      cases values with
      | nil => rfl
      | cons value values => rfl
  | arith op =>
      rcases values with _ | ⟨right, _ | ⟨left, values⟩⟩
      · rfl
      · rfl
      · rfl
  | assign target =>
      cases values with
      | nil => cases target <;> rfl
      | cons value values => cases target <;> rfl
  | _ => rfl

/-- Carrying out nodes on stores that agree on what the nodes read comes equally far, with the same writes. -/
theorem performAll_congr {visits : List Visit} (reads : ∀ name, .read name ∈ visits → mayRead name)
    (agree : first.AgreeOn mayRead second) (values : List Int) :
    performAll visits values first = performAll visits values second := by
  induction visits generalizing values first second with
  | nil => rfl
  | cons visit rest ih =>
      have own : visit.perform first values = visit.perform second values := by
        apply Visit.perform_congr
        rintro name rfl
        exact agree name (reads name List.mem_cons_self)
      have later : ∀ name, .read name ∈ rest → mayRead name :=
        fun name among => reads name (List.mem_cons_of_mem _ among)
      unfold performAll
      rw [own]
      cases visit.perform second values with
      | error error => rfl
      | ok step =>
          obtain ⟨next, write⟩ := step
          simp only [ih later (agree.overwrite write.toList)]

/-! ### Whole texts -/

variable {text : String}

theorem inStep_evaluate (limit : Nat) (agree : first.AgreeOn (ReadIn text) second) :
    InStep (AssignedIn text) first second (evaluate limit text first) (evaluate limit text second) := by
  unfold evaluate
  cases parsed : parse text with
  | error cause => exact inStep_silent ..
  | ok tree =>
      exact Expr.inStep_evalWithin limit (fun _ => readIn_of_mem_visits parsed)
        (fun _ => assignedIn_of_mem_targets parsed) agree

theorem writeLog_congr (limit : Nat) (agree : first.AgreeOn (ReadIn text) second) :
    (Evaluation.ofText limit text).writeLog first = (Evaluation.ofText limit text).writeLog second := by
  cases parsed : parse text with
  | error cause => simp only [Evaluation.writeLog, parsed]
  | ok tree =>
      have alike := performAll_congr (fun _ => readIn_of_mem_visits parsed) agree []
      simp only [Evaluation.writeLog, Expr.writeLog, parsed, alike]

/-- **Noninterference.** A text does not tell apart two stores that agree on the variables it reads: it ends in
    the same value or error on both, after the same writes, so that each name is left as it was in both or was
    last written with the same value in both. A name that the text does not assign to is left as it was. -/
theorem evaluate_depends_on_reads (limit : Nat) (text : String) {first second : Store}
    (agree : first.AgreeOn (ReadIn text) second) :
    (evaluate limit text first).result = (evaluate limit text second).result ∧
    (Evaluation.ofText limit text).writeLog first = (Evaluation.ofText limit text).writeLog second ∧
    (∃ writes,
      (evaluate limit text first).store = first.overwrite writes ∧
      (evaluate limit text second).store = second.overwrite writes ∧
      (∀ write ∈ writes, AssignedIn text write.1) ∧
      ∀ name,
        (lastWrite? writes name = none ∧ (evaluate limit text first).store.get? name = first.get? name ∧
          (evaluate limit text second).store.get? name = second.get? name) ∨
        ∃ value, lastWrite? writes name = some value ∧ (evaluate limit text first).store.get? name = some value ∧
          (evaluate limit text second).store.get? name = some value) ∧
    ∀ name, ¬AssignedIn text name →
      (evaluate limit text first).store.get? name = first.get? name ∧
      (evaluate limit text second).store.get? name = second.get? name := by
  obtain ⟨result, writes, firstStore, secondStore, assigned⟩ := inStep_evaluate limit agree
  refine ⟨result, writeLog_congr limit agree, ⟨writes, firstStore, secondStore, assigned, ?_⟩, ?_⟩
  · intro name
    rw [firstStore, secondStore, Store.get?_overwrite, Store.get?_overwrite]
    cases lastWrite? writes name with
    | none => exact Or.inl ⟨rfl, rfl, rfl⟩
    | some value => exact Or.inr ⟨value, rfl, rfl, rfl⟩
  · intro name notAssigned
    exact ⟨(extends_evaluate limit text first).untouched name notAssigned,
      (extends_evaluate limit text second).untouched name notAssigned⟩

/-- Two stores that differ in names that are written only, or not mentioned, and a text that fails behind its
    writes. -/
theorem evaluate_depends_on_reads_zero_divisor :
    let first := Store.ofList [("a", 2)]
    let second := Store.ofList [("y", 5), ("b", 1), ("a", 2)]
    let text := "(y = a) / (z = 0)"
    first.AgreeOn (ReadIn text) second ∧
      (evaluate 20 text first).result = .error .divisionByZero ∧
      (evaluate 20 text second).result = .error .divisionByZero ∧
      (evaluate 20 text second).store.get? "y" = some 2 ∧
      (evaluate 20 text second).store.get? "b" = some 1 := by
  intro first second text
  have symbols : (tokenize "(y = a) / (z = 0)").map Token.symbol =
      [.openParen, .var "y", .assign, .var "a", .closeParen, .divide, .openParen, .var "z", .assign, .const 0,
        .closeParen] := by rfl
  have agree : first.AgreeOn (ReadIn text) second := by
    intro name read
    obtain rfl : "a" = name := by simpa [ReadIn, text, symbols] using read
    rfl
  have notAssigned : ¬AssignedIn text "b" := by
    intro assigned
    have mentioned : Symbol.var "b" ∈ (tokenize text).map Token.symbol := assigned.subset List.mem_cons_self
    simp [text, symbols] at mentioned
  have failed : (evaluate 20 "(y = a) / (z = 0)" first).result = .error .divisionByZero := by rfl
  have written : (evaluate 20 "(y = a) / (z = 0)" first).store.get? "y" = some 2 := by rfl
  obtain ⟨same, -, ⟨writes, -, -, -, names⟩, untouched⟩ := evaluate_depends_on_reads 20 text agree
  refine ⟨agree, failed, same ▸ failed, ?_, ?_⟩
  · rcases names "y" with ⟨-, kept, -⟩ | ⟨value, -, inFirst, inSecond⟩
    · rw [written] at kept
      cases kept
    · rw [inSecond, ← inFirst, written]
  · rw [(untouched "b" notAssigned).2]
    rfl

end Calculator
