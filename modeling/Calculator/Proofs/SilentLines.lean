/-
Module: Calculator.Proofs.SilentLines
Purpose: Lines that leave no trace in a session. A command reads the store and never writes to it, and a line that is
  no expression is refused before any of it is carried out. So only the expressions of a session count for each
  other: without the other lines each of them meets the same store, has the same reply and leaves the same store.
  And what it is answered is what evaluation makes of it there, in words, unless that is a value too long to be
  written out.
Main exports: isExpression, isExpression_eq_false_iff, exchanges, Store.afterLines, store_of_noExpression,
  exchanges_filter, afterLines_filter, holdsWords_afterLines, expressions_answered_without_other_lines
-/
import Calculator.Proofs.ErrorKinds
import Calculator.Proofs.SessionReplies

namespace Calculator

/-! ### Expressions among the lines -/

/-- Whether a line is no command and an expression. -/
def isExpression (line : String) : Bool :=
  (Command.ofLine? line).isNone && (parse line).isOk

/-- Any other line is a command, or its evaluation is an error of syntax, whatever the store. -/
theorem isExpression_eq_false_iff {line : String} (limit : Nat) (store : Store) :
    isExpression line = false ↔ (∃ command, Command.ofLine? line = some command) ∨
      ∃ cause, (evaluate limit line store).result = .error (.invalidSyntax cause) := by
  simp only [evaluate_eq_invalidSyntax_iff]
  unfold isExpression
  cases Command.ofLine? line with
  | some command => simp
  | none => cases parse line <;> simp [Except.isOk, Except.toBool]

/-! ### Sessions line by line -/

section Lines

variable {limits : Limits} {files : Files} {historyFile : String} {line : String} {store : Store}

/-- The lines of a session, each with what the session makes of it. -/
def exchanges (limits : Limits) (files : Files) (historyFile : String) (lines : List String) (store : Store) :
    List (String × LineOutcome) :=
  lines.zip (answerLines limits files historyFile lines store)

/-- The store that the last of some lines leaves behind. -/
def Store.afterLines (store : Store) (outcomes : List LineOutcome) : Store :=
  outcomes.foldl (fun _ outcome => outcome.store) store

theorem exchanges_cons (limits : Limits) (files : Files) (historyFile line : String) (rest : List String)
    (store : Store) :
    exchanges limits files historyFile (line :: rest) store =
      (line, answerLine limits files historyFile line store) ::
        exchanges limits files historyFile rest (answerLine limits files historyFile line store).store := rfl

theorem afterLines_cons (limits : Limits) (files : Files) (historyFile line : String) (rest : List String)
    (store : Store) :
    store.afterLines (answerLines limits files historyFile (line :: rest) store) =
      (answerLine limits files historyFile line store).store.afterLines
        (answerLines limits files historyFile rest (answerLine limits files historyFile line store).store) := rfl

theorem answerLines_append (limits : Limits) (files : Files) (historyFile : String) (before rest : List String)
    (store : Store) :
    answerLines limits files historyFile (before ++ rest) store =
      answerLines limits files historyFile before store ++
        answerLines limits files historyFile rest
          (store.afterLines (answerLines limits files historyFile before store)) := by
  induction before generalizing store with
  | nil => rfl
  | cons line before ih => rw [List.cons_append, answerLines, ih, afterLines_cons]; rfl

theorem length_answerLines (limits : Limits) (files : Files) (historyFile : String) (lines : List String)
    (store : Store) :
    (answerLines limits files historyFile lines store).length = lines.length := by
  induction lines generalizing store with
  | nil => rfl
  | cons line rest ih => rw [answerLines, List.length_cons, ih, List.length_cons]

/-- A line that is no expression leaves the store as it is. -/
theorem store_of_noExpression (silent : isExpression line = false) :
    (answerLine limits files historyFile line store).store = store := by
  unfold answerLine
  cases asked : Command.ofLine? line with
  | some command => rfl
  | none =>
      have refused : (parse line).isOk = false := by simpa [isExpression, asked] using silent
      dsimp only
      rw [evaluate]
      cases parsed : parse line with
      | ok tree => simp [parsed, Except.isOk, Except.toBool] at refused
      | error cause => rfl

/-- An expression is evaluated, and that is all. -/
theorem answerLine_of_expression (expression : isExpression line = true) :
    answerLine limits files historyFile line store =
      ⟨replyTo limits (evaluate limits.nesting line store).result, (evaluate limits.nesting line store).store,
        recordsOf line (evaluate limits.nesting line store).result⟩ := by
  have noCommand : Command.ofLine? line = none := by
    simpa using (Bool.and_eq_true_iff.mp expression).1
  rw [answerLine, noCommand]

/-- Lines leave a store of words behind a store of words. -/
theorem holdsWords_afterLines (limits : Limits) (files : Files) (historyFile : String) (lines : List String)
    (words : store.HoldsWords) :
    (store.afterLines (answerLines limits files historyFile lines store)).HoldsWords := by
  induction lines generalizing store with
  | nil => exact words
  | cons line rest ih =>
      rw [afterLines_cons]
      exact ih (holdsWords_answerLine limits files historyFile line words)

/-! ### Without the other lines -/

theorem exchanges_filter (limits : Limits) (files : Files) (historyFile : String) (lines : List String)
    (store : Store) :
    exchanges limits files historyFile (lines.filter isExpression) store =
      (exchanges limits files historyFile lines store).filter fun exchange => isExpression exchange.1 := by
  induction lines generalizing store with
  | nil => rfl
  | cons line rest ih =>
      rw [exchanges_cons]
      cases expression : isExpression line with
      | true => simp [expression, exchanges_cons, ih]
      | false => simp [expression, store_of_noExpression expression, ih]

theorem afterLines_filter (limits : Limits) (files : Files) (historyFile : String) (lines : List String)
    (store : Store) :
    store.afterLines (answerLines limits files historyFile (lines.filter isExpression) store) =
      store.afterLines (answerLines limits files historyFile lines store) := by
  induction lines generalizing store with
  | nil => rfl
  | cons line rest ih =>
      rw [afterLines_cons]
      cases expression : isExpression line with
      | true => simp [expression, afterLines_cons, ih]
      | false => simp [expression, store_of_noExpression expression, ih]

end Lines

/-- **Silent lines.** Taking away the lines that are commands or errors of syntax changes nothing for the others:
    each has the same reply, and the last store is the same. Each of the others is answered with the value or the
    error that it evaluates to on the store left by the lines before it, but for a value that is too long to be
    written out, which has no answer. Such a value does not come up if the first store holds words only. -/
theorem expressions_answered_without_other_lines (limits : Limits) (files : Files) (historyFile : String)
    (lines : List String) (store : Store) :
    let outcomes := answerLines limits files historyFile lines store
    exchanges limits files historyFile (lines.filter isExpression) store =
        (exchanges limits files historyFile lines store).filter (fun exchange => isExpression exchange.1) ∧
      store.afterLines (answerLines limits files historyFile (lines.filter isExpression) store) =
        store.afterLines outcomes ∧
      ∀ before line rest, lines = before ++ line :: rest →
        let between := store.afterLines (answerLines limits files historyFile before store)
        let evaluated := evaluate limits.nesting line between
        (isExpression line = false ↔ (∃ command, Command.ofLine? line = some command) ∨
          ∃ cause, evaluated.result = .error (.invalidSyntax cause)) ∧
        (isExpression line = true → ∃ outcome, outcomes[before.length]? = some outcome ∧
          outcome.store = evaluated.store ∧
          (∀ value, evaluated.result = .ok value →
            (limits.CanWrite value → outcome.reply = .answer true (toString value)) ∧
            (¬limits.CanWrite value → outcome.reply = .failed .tooManyDigits) ∧
            (store.HoldsWords → limits.CanWrite value)) ∧
          (∀ error, evaluated.result = .error error → outcome.reply = .answer false s!"Error: {error.message}") ∧
          (evaluated.result = .error .nestedTooDeeply →
            outcome.reply = .answer false "Error: expression is nested too deeply")) := by
  intro outcomes
  refine ⟨exchanges_filter limits files historyFile lines store, afterLines_filter limits files historyFile lines store,
    ?_⟩
  intro before line rest split between evaluated
  refine ⟨isExpression_eq_false_iff limits.nesting between, ?_⟩
  intro expression
  refine ⟨answerLine limits files historyFile line between, ?_, ?_⟩
  · have later : outcomes = answerLines limits files historyFile before store ++
        answerLines limits files historyFile (line :: rest) between := by
      rw [← answerLines_append, ← split]
    rw [later, ← length_answerLines limits files historyFile before store, List.getElem?_append_right (Nat.le_refl _),
      Nat.sub_self]
    rfl
  · rw [answerLine_of_expression expression]
    refine ⟨rfl, ?_, ?_, ?_⟩
    · intro value result
      rw [result]
      refine ⟨replyTo_ok_of_canWrite, replyTo_ok_of_not_canWrite, ?_⟩
      intro words
      have wordsBetween : between.HoldsWords := holdsWords_afterLines limits files historyFile before words
      exact limits.canWrite_of_inRange ((keepsWords_evaluate limits.nesting line wordsBetween).value value result)
    · intro error result
      rw [result, replyTo]
    · intro result
      rw [result]
      rfl

/-- A list of the variables, an unfinished assignment and a request for help come and go; a failure behind a write is
    no such line. -/
theorem expressions_answered_without_other_lines_failure :
    let limits : Limits := ⟨20, 640, Or.inr (Nat.le_refl 640)⟩
    let before := ["x = 6 / 2", ":vars", "x = (y = 5"]
    let lines := before ++ "(y = x) / 0" :: ["HELP", "y"]
    let kept := ["x = 6 / 2", "(y = x) / 0", "y"]
    let between := Store.empty.afterLines (answerLines limits [] "h" before Store.empty)
    lines.filter isExpression = kept ∧
      exchanges limits [] "h" kept Store.empty =
        (exchanges limits [] "h" lines Store.empty).filter (fun exchange => isExpression exchange.1) ∧
      (answerLines limits [] "h" kept Store.empty).map LineOutcome.reply =
        [.answer true "3", .answer false "Error: Division by zero", .answer true "3"] ∧
      between.entries = [("x", 3)] ∧
      ∃ outcome, (answerLines limits [] "h" lines Store.empty)[3]? = some outcome ∧
        outcome.reply = .answer false "Error: Division by zero" ∧
        outcome.store = (evaluate limits.nesting "(y = x) / 0" between).store := by
  intro limits before lines kept between
  have filtered : lines.filter isExpression = kept := by decide +kernel
  have replies : (answerLines limits [] "h" kept Store.empty).map LineOutcome.reply =
      [.answer true "3", .answer false "Error: Division by zero", .answer true "3"] := by decide +kernel
  have met : between.entries = [("x", 3)] := by decide +kernel
  have divided : (evaluate limits.nesting "(y = x) / 0" between).result = .error .divisionByZero := by rfl
  obtain ⟨same, -, each⟩ := expressions_answered_without_other_lines limits [] "h" lines Store.empty
  rw [filtered] at same
  obtain ⟨-, answered⟩ := each before "(y = x) / 0" ["HELP", "y"] rfl
  obtain ⟨outcome, found, stored, -, failed, -⟩ := answered (by decide +kernel)
  exact ⟨filtered, same, replies, met, outcome, found, failed .divisionByZero divided, stored⟩

/-- Not every value is answered: a variable may hold one from the start that is too long to be written out. -/
theorem long_value_without_answer :
    ¬∀ (limits : Limits) (files : Files) (historyFile : String) (before : List String) (line : String)
      (store : Store) (value : Int),
      let between := store.afterLines (answerLines limits files historyFile before store)
      isExpression line = true → (evaluate limits.nesting line between).result = .ok value →
      (answerLine limits files historyFile line between).reply = .answer true (toString value) := by
  intro claim
  let limits : Limits := ⟨988, 4300, Or.inr (by decide)⟩
  let store := Store.ofList [("x", limits.leastTooLong)]
  have expression : isExpression "x" = true := by decide +kernel
  have held : (evaluate limits.nesting "x" store).result = .ok limits.leastTooLong := by rfl
  have answered := claim limits [] "h" [] "x" store limits.leastTooLong expression held
  have failed := replyTo_ok_of_not_canWrite (limits.not_canWrite_leastTooLong (by decide))
  change (answerLine limits [] "h" "x" store).reply = _ at answered
  rw [answerLine_of_expression expression, held, failed] at answered
  cases answered

end Calculator
