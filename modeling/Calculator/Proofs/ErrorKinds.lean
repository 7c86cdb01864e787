/-
Module: Calculator.Proofs.ErrorKinds
Purpose: How the evaluation of a text can fail. An error of an evaluation is that of one of its nodes, and the
  nodes of a tree that comes out of a text are of forms that the language knows, so an operator or node that is
  not known is never met. An error of syntax is an error of parsing: then nothing has been evaluated, and the
  store is as it was.
Main exports: exists_course_of_evalWithin, exists_fails_of_evalWithin, Visit.Known, EvalError.OfText,
  known_of_mem_visits, parse_of_evaluate, evaluate_eq_invalidSyntax_iff, evaluate_errors_of_text
-/
import Calculator.Proofs.ParserSoundness
import Calculator.Proofs.Reading
import Calculator.Proofs.WriteLog

namespace Calculator

/-! ### The node that fails -/

theorem exists_course_of_evalWithin {limit : Nat} {tree : Expr} {store : Store}
    (inLimit : (tree.evalWithin limit store).result ≠ .error .nestedTooDeeply) :
    ∃ course : Course tree store, course.EndsIn (tree.evalWithin limit store).result := by
  rw [Expr.evalWithin_eq_eval inLimit]
  exact exists_course tree store

/-- An error within the limit is that of one of the nodes visited. -/
theorem exists_fails_of_evalWithin {limit : Nat} {tree : Expr} {store : Store} {error : EvalError}
    (failed : (tree.evalWithin limit store).result = .error error) (inLimit : error ≠ .nestedTooDeeply) :
    ∃ visit ∈ tree.visits, ∃ between held, visit.Fails between held error := by
  have notTooDeep : (tree.evalWithin limit store).result ≠ .error .nestedTooDeeply := by simpa [failed] using inLimit
  obtain ⟨course, ends⟩ := exists_course_of_evalWithin notTooDeep
  rw [failed] at ends
  cases left : course.rest with
  | nil => simp [Course.EndsIn, left] at ends
  | cons failing others =>
      have fails : failing.Fails (store.overwrite (tree.writeLog store)) course.held error := by
        simpa [Course.EndsIn, left] using ends
      refine ⟨failing, ?_, _, _, fails⟩
      simp [course.visits_eq, left]

/-- A node of a form that the language knows. -/
def Visit.Known : Visit → Prop
  | unknownSign _ | unknownBinary _ | unsupported => False
  | _ => True

/-- The errors that the evaluation of a text can end in. -/
inductive EvalError.OfText : EvalError → Prop where
  | invalidSyntax (cause : SyntaxError) : OfText (.invalidSyntax cause)
  | uninitialized (name : String) : OfText (.uninitialized name)
  | notAssignable : OfText .notAssignable
  | divisionByZero : OfText .divisionByZero
  | nestedTooDeeply : OfText .nestedTooDeeply

theorem ofText_of_fails {visit : Visit} {store : Store} {held : List Int} {error : EvalError}
    (fails : visit.Fails store held error) (known : visit.Known) :
    error.OfText ∧ ∀ cause, error ≠ .invalidSyntax cause := by
  cases fails with
  | absent => exact ⟨.uninitialized _, nofun⟩
  | zeroDivisor => exact ⟨.divisionByZero, nofun⟩
  | target => exact ⟨.notAssignable, nofun⟩
  | unknownSign | unknownBinary | unsupported => exact known.elim

/-- A grouped tree holds no node of another form. -/
theorem known_of_mem_visits {tree : Expr} (grouped : tree.Grouped) : ∀ visit ∈ tree.visits, visit.Known := by
  have own : ∀ {visit : Visit}, visit.Known → ∀ other ∈ [visit], other.Known :=
    fun known => List.forall_mem_singleton.mpr known
  induction tree with
  | const | var => exact own trivial
  | sign op operand ih => exact List.forall_mem_append.mpr ⟨ih grouped.1, own trivial⟩
  | group inner ih => exact List.forall_mem_append.mpr ⟨ih grouped, own trivial⟩
  | binary op left right leftIh rightIh =>
      obtain ⟨leftGrouped, rightGrouped, -⟩ := grouped
      cases op with
      | assign => exact List.forall_mem_append.mpr ⟨rightIh rightGrouped, own trivial⟩
      | arith op =>
          have operands := List.forall_mem_append.mpr ⟨leftIh leftGrouped, rightIh rightGrouped⟩
          exact List.forall_mem_append.mpr ⟨operands, own trivial⟩
  | unknownSign | unknownBinary | unsupported => exact grouped.elim

/-! ### Whole texts -/

/-- What a text comes to is what its tree comes to within the limit, or its error of syntax. -/
theorem parse_of_evaluate {limit : Nat} {text : String} {store : Store} {result : Except EvalError Int}
    (ended : (evaluate limit text store).result = result) :
    (∃ tree, parse text = .ok tree ∧ (tree.evalWithin limit store).result = result) ∨
      ∃ cause, parse text = .error cause ∧ result = .error (.invalidSyntax cause) := by
  rw [evaluate] at ended
  cases parsed : parse text with
  | ok tree =>
      rw [parsed] at ended
      exact Or.inl ⟨tree, rfl, ended⟩
  | error cause =>
      rw [parsed] at ended
      exact Or.inr ⟨cause, rfl, ended.symm⟩

/-- Whatever the limit, a tree that comes out of a text fails in one of the ways known, and none of them is an
    error of syntax. -/
theorem ofText_of_parse {text : String} {limit : Nat} {tree : Expr} {store : Store} {error : EvalError}
    (parsed : parse text = .ok tree) (failed : (tree.evalWithin limit store).result = .error error) :
    error.OfText ∧ ∀ cause, error ≠ .invalidSyntax cause := by
  by_cases tooDeep : error = .nestedTooDeeply
  · rw [tooDeep]
    exact ⟨.nestedTooDeeply, nofun⟩
  · obtain ⟨visit, among, _, _, fails⟩ := exists_fails_of_evalWithin failed tooDeep
    exact ofText_of_fails fails (known_of_mem_visits (parseTokens_grouped parsed).1 visit among)

/-- A text is an error of syntax on every store or on none. -/
theorem evaluate_eq_invalidSyntax_iff {limit : Nat} {text : String} {store : Store} {cause : SyntaxError} :
    (evaluate limit text store).result = .error (.invalidSyntax cause) ↔ parse text = .error cause := by
  constructor
  · intro failed
    obtain ⟨tree, parsed, failed⟩ | ⟨other, refused, same⟩ := parse_of_evaluate failed
    · exact absurd rfl ((ofText_of_parse parsed failed).2 cause)
    · cases same
      exact refused
  · intro refused
    rw [evaluate, refused]
    rfl

/-- **Kinds of errors.** A text evaluates to a value or to an error of syntax, a variable without a value, a
    target that is no variable, a division by zero or the nesting limit. It is an error of syntax just if the
    text is no expression, whatever the store holds, and then the store is left as it is. It makes no
    difference that parsing reads the text on demand, nor where the nesting limit lies. -/
theorem evaluate_errors_of_text (text : String) :
    (∀ limit store error, (evaluate limit text store).result = .error error → error.OfText) ∧
    (∀ limit store cause, (evaluate limit text store).result = .error (.invalidSyntax cause) ↔
      parse text = .error cause) ∧
    (∀ limit store cause, parse text = .error cause → (evaluate limit text store).store = store) ∧
    (Reader.ofText text).parse.1 = parse text ∧
    ∀ limit tree store error, parse text = .ok tree → (tree.evalWithin limit store).result = .error error →
      error.OfText ∧ ∀ cause, error ≠ .invalidSyntax cause := by
  refine ⟨?_, ?_, ?_, Reader.parse_ofText text, fun _ _ _ _ => ofText_of_parse⟩
  · intro limit store error failed
    obtain ⟨tree, parsed, failed⟩ | ⟨cause, -, syntactic⟩ := parse_of_evaluate failed
    · exact (ofText_of_parse parsed failed).1
    · cases syntactic
      exact .invalidSyntax cause
  · intro limit store cause
    exact evaluate_eq_invalidSyntax_iff
  · intro limit store cause parsed
    rw [evaluate, parsed]
    rfl

/-- A text whose first assignment is complete before its error, and one that fails behind a write. -/
theorem evaluate_errors_of_text_partial :
    let store := Store.ofList [("a", 7)]
    parse "(a = 1) + )" = .error (.expectedOperand ⟨.closeParen, 10⟩) ∧
      (evaluate 20 "(a = 1) + )" store).result =
        .error (.invalidSyntax (.expectedOperand ⟨.closeParen, 10⟩)) ∧
      (evaluate 20 "(a = 1) + )" store).store = store ∧
      (evaluate 20 "(a = 1) + b" store).result = .error (.uninitialized "b") ∧
      (EvalError.uninitialized "b").OfText := by
  intro store
  have refused : parse "(a = 1) + )" = .error (.expectedOperand ⟨.closeParen, 10⟩) := by rfl
  have failed : (evaluate 20 "(a = 1) + b" store).result = .error (.uninitialized "b") := by rfl
  obtain ⟨-, syntaxErrors, untouched, -⟩ := evaluate_errors_of_text "(a = 1) + )"
  exact ⟨refused, (syntaxErrors 20 store _).mpr refused, untouched 20 store _ refused, failed,
    (evaluate_errors_of_text "(a = 1) + b").1 20 store _ failed⟩

end Calculator
