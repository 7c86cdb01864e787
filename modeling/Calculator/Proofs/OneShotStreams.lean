/-
Module: Calculator.Proofs.OneShotStreams
Purpose: What one-shot mode does with the lines it is given. It answers those before the first that asks to leave, one
  after the other on one store as a session does, and looks at no later one. Each answer goes to one of the two
  streams, results to the first and failures to the second, in the order of the lines. A failure decides the exit
  status for good, whatever is answered after it and however the run ends. All this holds as long as every line has an
  answer: a run does not survive a line without one.
Main exports: leavingPlace, AllAnswered, LineOutcome.answer?, LineOutcome.outputs, Output.isRecord, statusAfter,
  Console.calculate_eq, stdout_outputs, stderr_outputs, allAnswered_iff_of_holdsWords, store_afterLines_eq,
  one_shot_streams_and_status
-/
import Calculator.Proofs.ConversationRounds
import Calculator.Proofs.SilentLines

namespace Calculator

/-! ### The lines that are answered -/

/-- The place of the first line that asks to leave, or the number of the lines if none does. -/
def leavingPlace (lines : List String) : Nat :=
  lines.findIdx fun line => decide (AsksToLeave line)

theorem leavingPlace_of_leaves {line : String} (leaves : AsksToLeave line) (rest : List String) :
    leavingPlace (line :: rest) = 0 := by
  simp [leavingPlace, List.findIdx_cons, leaves]

theorem leavingPlace_of_stays {line : String} (stays : ¬AsksToLeave line) (rest : List String) :
    leavingPlace (line :: rest) = leavingPlace rest + 1 := by
  simp [leavingPlace, List.findIdx_cons, stays]

theorem stays_of_mem_take {lines : List String} {line : String} (before : line ∈ lines.take (leavingPlace lines)) :
    ¬AsksToLeave line := by
  induction lines with
  | nil => simp at before
  | cons first rest ih =>
      by_cases leaves : AsksToLeave first
      · simp [leavingPlace_of_leaves leaves] at before
      · rw [leavingPlace_of_stays leaves, List.take_succ_cons, List.mem_cons] at before
        rcases before with rfl | before
        · exact leaves
        · exact ih before

theorem leaves_at_leavingPlace {lines : List String} {line : String} (found : lines[leavingPlace lines]? = some line) :
    AsksToLeave line := by
  obtain ⟨inside, rfl⟩ := List.getElem?_eq_some_iff.mp found
  exact of_decide_eq_true (@List.findIdx_getElem _ _ _ inside)

/-- No line is left without an answer, on the store that it meets. -/
def AllAnswered (limits : Limits) (files : Files) (historyFile : String) : Store → List String → Prop
  | _, [] => True
  | store, line :: rest =>
    (∀ failure, ¬Unanswered limits files historyFile store line failure) ∧
      AllAnswered limits files historyFile (answerLine limits files historyFile line store).store rest

/-- On a store of words, all lines are answered unless one of them asks for a history that is unreadable. -/
theorem allAnswered_iff_of_holdsWords {limits : Limits} {files : Files} {historyFile : String} {store : Store}
    {lines : List String} (words : store.HoldsWords) :
    AllAnswered limits files historyFile store lines ↔
      ∀ line ∈ lines, ColonCommand line "history" → ∀ failure, ¬Unreadable files historyFile failure := by
  induction lines generalizing store with
  | nil => exact ⟨nofun, fun _ => trivial⟩
  | cons line rest ih =>
      have first : (∀ failure, ¬Unanswered limits files historyFile store line failure) ↔
          (ColonCommand line "history" → ∀ failure, ¬Unreadable files historyFile failure) := by
        simp only [unanswered_iff_of_holdsWords words, not_and]
        exact forall_comm
      rw [AllAnswered, first, ih (holdsWords_answerLine limits files historyFile line words), List.forall_mem_cons]

/-! ### What is shown of a line -/

namespace LineOutcome

/-- The text of the answer, if there is one of the wanted kind: a result for `true`, a failure for `false`. -/
def answer? (wanted : Bool) (outcome : LineOutcome) : Option String :=
  match outcome.reply with
  | .answer ok text => if ok = wanted then some text else none
  | _ => none

/-- The records of a line, and its answer on the stream where it belongs. -/
def outputs (outcome : LineOutcome) : List Output :=
  outcome.log.map Output.logged ++
    match outcome.reply with
    | .answer ok text => [Console.sortAnswer ok text]
    | _ => []

end LineOutcome

/-- Whether an output is a record of the log. -/
def Output.isRecord : Output → Bool
  | logged _ => true
  | _ => false

/-- The first stream takes results, and nothing else. -/
theorem stdout_sortAnswer (ok : Bool) (text : String) :
    (Console.sortAnswer ok text).stdout = if ok then some text else none := by
  cases ok <;> rfl

/-- The second stream takes failures, and of the answers nothing else. -/
theorem stderr_sortAnswer (time logger : String) (ok : Bool) (text : String) :
    (Console.sortAnswer ok text).stderr time logger = if ok then none else some text := by
  cases ok <;> rfl

namespace LineOutcome

/-- Of what is shown of a line, the first stream takes the answer if it is a result. -/
theorem stdout_outputs (outcome : LineOutcome) :
    outcome.outputs.filterMap Output.stdout = (outcome.answer? true).toList := by
  have noRecord : (outcome.log.map Output.logged).filterMap Output.stdout = [] := by
    simp [List.filterMap_map, Output.stdout]
  rw [outputs, List.filterMap_append, noRecord, answer?]
  cases outcome.reply with
  | answer ok text => cases ok <;> rfl
  | leave | failed => rfl

/-- Besides records, the second stream takes the answer if it is a failure. -/
theorem stderr_outputs (time logger : String) (outcome : LineOutcome) :
    (outcome.outputs.filter (!·.isRecord)).filterMap (Output.stderr time logger) =
      (outcome.answer? false).toList := by
  have noRecord : (outcome.log.map Output.logged).filter (!·.isRecord) = [] := by
    simp [Output.isRecord]
  rw [outputs, List.filter_append, noRecord, answer?]
  cases outcome.reply with
  | answer ok text => cases ok <;> rfl
  | leave | failed => rfl

end LineOutcome

/-- The threshold of the log makes no difference to what is no record. -/
theorem filter_loggedFrom (transcript : Transcript) (threshold : LogLevel) :
    (transcript.loggedFrom threshold).outputs.filter (!·.isRecord) = transcript.outputs.filter (!·.isRecord) := by
  rw [Transcript.loggedFrom, List.filter_filter]
  congr
  funext output
  cases output <;> simp [Output.reaches, Output.isRecord]

theorem stdout_filter (outputs : List Output) :
    (outputs.filter (!·.isRecord)).filterMap Output.stdout = outputs.filterMap Output.stdout := by
  rw [List.filterMap_filter]
  congr
  funext output
  cases output <;> simp [Output.stdout, Output.isRecord]

theorem stdout_flatMap_outputs (outcomes : List LineOutcome) :
    (outcomes.flatMap LineOutcome.outputs).filterMap Output.stdout = outcomes.filterMap (·.answer? true) := by
  rw [List.filterMap_flatMap, List.filterMap_eq_flatMap_toList]
  exact List.flatMap_congr fun outcome _ => outcome.stdout_outputs

theorem stderr_flatMap_outputs (time logger : String) (outcomes : List LineOutcome) :
    ((outcomes.flatMap LineOutcome.outputs).filter (!·.isRecord)).filterMap (Output.stderr time logger) =
      outcomes.filterMap (·.answer? false) := by
  rw [List.filter_flatMap, List.filterMap_flatMap, List.filterMap_eq_flatMap_toList]
  exact List.flatMap_congr fun outcome _ => outcome.stderr_outputs time logger

/-! ### Whole runs -/

/-- The exit status behind some lines: a failure sets it to 1. -/
def statusAfter (status : Nat) (outcomes : List LineOutcome) : Nat :=
  if outcomes.any fun outcome => (outcome.answer? false).isSome then 1 else status

section Runs

variable {limits : Limits} {files : Files} {historyFile line : String} {store : Store}

theorem Console.calculate_of_leaves (leaves : AsksToLeave line) (status : Nat) (rest : List Operand) :
    calculate limits files historyFile status store (.text line :: rest) = ⟨[], .exit status, store⟩ := by
  rw [calculate, answerLine_of_leaves leaves]
  rfl

/-- An answer is shown, and the rest of the lines meet the store and the status that it leaves. -/
theorem Console.calculate_of_answer {ok : Bool} {text : String}
    (answered : (answerLine limits files historyFile line store).reply = .answer ok text) (status : Nat)
    (rest : List Operand) :
    let outcome := answerLine limits files historyFile line store
    calculate limits files historyFile status store (.text line :: rest) =
      (calculate limits files historyFile (statusAfter status [outcome]) outcome.store rest).after outcome.outputs := by
  intro outcome
  have sets : statusAfter status [outcome] = if ok then status else 1 := by
    rw [statusAfter, List.any_cons, List.any_nil, LineOutcome.answer?, answered]
    cases ok <;> rfl
  rw [calculate, answered, sets, LineOutcome.outputs, answered]

theorem statusAfter_cons (status : Nat) (outcome : LineOutcome) (rest : List LineOutcome) :
    statusAfter (statusAfter status [outcome]) rest = statusAfter status (outcome :: rest) := by
  simp only [statusAfter, List.any_cons, List.any_nil, Bool.or_false]
  by_cases failed : (outcome.answer? false).isSome = true <;> simp [failed]

theorem statusAfter_of_failure {outcomes : List LineOutcome} {outcome : LineOutcome} {text : String}
    (among : outcome ∈ outcomes) (replied : outcome.reply = .answer false text) (status : Nat) :
    statusAfter status outcomes = 1 := by
  have failed : outcomes.any (fun outcome => (outcome.answer? false).isSome) = true :=
    List.any_eq_true.mpr ⟨outcome, among, by simp [LineOutcome.answer?, replied]⟩
  rw [statusAfter, if_pos failed]

theorem statusAfter_of_results {outcomes : List LineOutcome}
    (fine : ∀ outcome ∈ outcomes, ∃ text, outcome.reply = .answer true text) (status : Nat) :
    statusAfter status outcomes = status := by
  have noFailure : ¬outcomes.any (fun outcome => (outcome.answer? false).isSome) = true := by
    rw [Bool.not_eq_true, List.any_eq_false]
    intro outcome among
    obtain ⟨text, replied⟩ := fine outcome among
    simp [LineOutcome.answer?, replied]
  rw [statusAfter, if_neg noFailure]

/-- A run answers the lines before the first that asks to leave, as a session does. -/
theorem Console.calculate_eq {lines : List String}
    (answered : AllAnswered limits files historyFile store (lines.take (leavingPlace lines))) (status : Nat) :
    let outcomes := answerLines limits files historyFile (lines.take (leavingPlace lines)) store
    calculate limits files historyFile status store (lines.map Given.text) =
      ⟨outcomes.flatMap LineOutcome.outputs, .exit (statusAfter status outcomes), store.afterLines outcomes⟩ := by
  intro outcomes
  subst outcomes
  induction lines generalizing status store with
  | nil => rfl
  | cons line rest ih =>
      by_cases leaves : AsksToLeave line
      · rw [leavingPlace_of_leaves leaves, List.map_cons, calculate_of_leaves leaves]
        rfl
      · rw [leavingPlace_of_stays leaves, List.take_succ_cons] at answered ⊢
        obtain ⟨first, later⟩ := answered
        obtain ⟨ok, text, answered⟩ :
            ∃ ok text, (answerLine limits files historyFile line store).reply = .answer ok text :=
          exists_answer leaves first
        rw [List.map_cons, calculate_of_answer answered, ih later, afterLines_cons]
        simp only [Transcript.after, answerLines, List.flatMap_cons, statusAfter_cons]

/-- Each line before the first that asks to leave has an answer. -/
theorem exists_answer_of_mem_answerLines {lines : List String} {outcome : LineOutcome}
    (stay : ∀ line ∈ lines, ¬AsksToLeave line) (answered : AllAnswered limits files historyFile store lines)
    (among : outcome ∈ answerLines limits files historyFile lines store) :
    ∃ ok text, outcome.reply = .answer ok text := by
  induction lines generalizing store with
  | nil => cases among
  | cons line rest ih =>
      obtain ⟨stays, others⟩ := List.forall_mem_cons.mp stay
      rcases List.mem_cons.mp among with rfl | later
      · exact exists_answer stays answered.1
      · exact ih others answered.2 later

/-- Where the history is looked up makes no difference to the variables. -/
theorem store_afterLines_eq (limits : Limits) (files otherFiles : Files) (historyFile elsewhere : String)
    (lines : List String) (store : Store) :
    store.afterLines (answerLines limits files historyFile lines store) =
      store.afterLines (answerLines limits otherFiles elsewhere lines store) := by
  induction lines generalizing store with
  | nil => rfl
  | cons line rest ih =>
      rw [afterLines_cons, afterLines_cons,
        store_answerLine_congr limits files otherFiles historyFile elsewhere line store, ih]

end Runs

/-- **Streams and status.** A run on given lines answers just those before the first that asks to leave, in order and
    on one store, as a session does, if each of these has an answer on the store that it meets. The answer goes to
    the first stream if it is a result and to the second if it is a failure. The exit status is 1 if there was a
    failure among them and 0 if there was none. On a store of words, all have an answer as long as no line asks for a
    history that is unreadable. -/
theorem one_shot_streams_and_status (limits : Limits) (files : Files) (historyFile : String) (lines : List String)
    (store : Store) :
    let answered := lines.take (leavingPlace lines)
    let outcomes := answerLines limits files historyFile answered store
    let transcript := Console.calculate limits files historyFile 0 store (lines.map Given.text)
    (∀ line ∈ answered, ∀ between, (answerLine limits files historyFile line between).reply ≠ .leave) ∧
    (∀ line, lines[leavingPlace lines]? = some line →
      ∀ between, (answerLine limits files historyFile line between).reply = .leave) ∧
    (store.HoldsWords → (AllAnswered limits files historyFile store answered ↔
      ∀ line ∈ answered, ColonCommand line "history" → ∀ failure, ¬Unreadable files historyFile failure)) ∧
    (AllAnswered limits files historyFile store answered →
      (outcomes.length = leavingPlace lines ∧ transcript.outputs = outcomes.flatMap LineOutcome.outputs) ∧
      (∀ outcome ∈ outcomes, ∃ ok text, outcome.reply = .answer ok text ∧
        (Console.sortAnswer ok text).stdout = (if ok then some text else none) ∧
        ∀ time logger, (Console.sortAnswer ok text).stderr time logger = if ok then none else some text) ∧
      (∀ threshold time logger,
        let seen := (transcript.loggedFrom threshold).outputs
        seen.filterMap Output.stdout = outcomes.filterMap (·.answer? true) ∧
        (seen.filter (!·.isRecord)).filterMap (Output.stderr time logger) = outcomes.filterMap (·.answer? false)) ∧
      ((∃ outcome ∈ outcomes, ∃ text, outcome.reply = .answer false text) → transcript.ending = .exit 1) ∧
      ((∀ outcome ∈ outcomes, ∃ text, outcome.reply = .answer true text) → transcript.ending = .exit 0) ∧
      ∀ otherFiles elsewhere,
        transcript.store = store.afterLines (answerLines limits otherFiles elsewhere answered store)) := by
  intro answered outcomes transcript
  have stay : ∀ line ∈ answered, ¬AsksToLeave line := fun _ => stays_of_mem_take
  refine ⟨?_, ?_, allAnswered_iff_of_holdsWords, ?_⟩
  · intro line before between
    exact mt reply_eq_leave_iff.mp (stay line before)
  · intro line found between
    exact reply_eq_leave_iff.mpr (leaves_at_leavingPlace found)
  intro allAnswered
  have run : transcript = ⟨outcomes.flatMap LineOutcome.outputs, .exit (statusAfter 0 outcomes),
      store.afterLines outcomes⟩ := Console.calculate_eq allAnswered 0
  have place : leavingPlace lines ≤ lines.length := List.findIdx_le_length
  refine ⟨⟨?_, by rw [run]⟩, ?_, ?_, ?_, ?_, ?_⟩
  · rw [length_answerLines, List.length_take_of_le place]
  · intro outcome among
    obtain ⟨ok, text, replied⟩ := exists_answer_of_mem_answerLines stay allAnswered among
    exact ⟨ok, text, replied, stdout_sortAnswer ok text, fun time logger => stderr_sortAnswer time logger ok text⟩
  · intro threshold time logger seen
    refine ⟨?_, ?_⟩
    · rw [← stdout_filter, filter_loggedFrom, stdout_filter, run, stdout_flatMap_outputs]
    · rw [filter_loggedFrom, run, stderr_flatMap_outputs]
  · rintro ⟨outcome, among, text, replied⟩
    rw [run, statusAfter_of_failure among replied]
  · intro fine
    rw [run, statusAfter_of_results fine]
  · intro otherFiles elsewhere
    rw [run]
    exact store_afterLines_eq limits files otherFiles historyFile elsewhere answered store

/-- A failure behind a write counts although a result and an exit come after it. What follows the exit is neither
    answered nor written. -/
theorem one_shot_streams_and_status_exit :
    let limits : Limits := ⟨20, 640, Or.inr (Nat.le_refl 640)⟩
    let lines := ["x = (y = 2) / 0", "y", ":vars", " Exit", ":Exit now", "z = 1", ":history"]
    let answered := ["x = (y = 2) / 0", "y", ":vars", " Exit"]
    let transcript := Console.calculate limits [] "h" 0 Store.empty (lines.map Given.text)
    leavingPlace lines = 4 ∧
      (transcript.loggedFrom .warning).outputs.filterMap Output.stdout = ["2", "y = 2"] ∧
      ((transcript.loggedFrom .debug).outputs.filter (!·.isRecord)).filterMap (Output.stderr "12:00" "calculator") =
        ["Error: Division by zero", "Error: Uninitialized variable: Exit"] ∧
      transcript.ending = .exit 1 ∧
      transcript.store = Store.empty.afterLines (answerLines limits [] "other" answered Store.empty) := by
  intro limits lines answered transcript
  have words : Store.empty.HoldsWords := nofun
  have place : leavingPlace lines = 4 := by decide +kernel
  obtain ⟨-, -, history, rest⟩ := one_shot_streams_and_status limits [] "h" lines Store.empty
  rw [place] at history rest
  have readable : ∀ line ∈ answered, ColonCommand line "history" → ∀ failure, ¬Unreadable [] "h" failure := by
    intro line among asks
    rw [← Command.ofLine?_eq_history_iff] at asks
    simp only [answered, List.mem_cons, List.not_mem_nil, or_false] at among
    rcases among with rfl | rfl | rfl | rfl <;> exact absurd asks (by decide +kernel)
  obtain ⟨-, -, streams, failed, -, stored⟩ := rest ((history words).mpr readable)
  refine ⟨place, ?_, ?_, ?_, ?_⟩
  · exact (streams .warning "" "").1.trans (by decide +kernel)
  · exact (streams .debug "12:00" "calculator").2.trans (by decide +kernel)
  · exact failed ⟨_, List.mem_cons_self, "Error: Division by zero", by decide +kernel⟩
  · exact stored [] "other"

/-- A readable history is not enough: a variable that holds an integer too long to be written out ends the run. -/
theorem long_value_ends_run :
    ¬∀ (limits : Limits) (files : Files) (historyFile : String) (lines : List String) (store : Store),
      let answered := lines.take (leavingPlace lines)
      let outcomes := answerLines limits files historyFile answered store
      let transcript := Console.calculate limits files historyFile 0 store (lines.map Given.text)
      (∀ line ∈ answered, ColonCommand line "history" → ∀ failure, ¬Unreadable files historyFile failure) →
      (∀ outcome ∈ outcomes, ∃ ok text, outcome.reply = .answer ok text) ∧
        (transcript.ending = .exit 0 ∨ transcript.ending = .exit 1) := by
  intro claim
  let limits : Limits := ⟨988, 4300, Or.inr (by decide)⟩
  let store := Store.ofList [("x", limits.leastTooLong)]
  have place : leavingPlace ["x", "1"] = 2 := by decide +kernel
  have readable : ∀ line ∈ ["x", "1"], ColonCommand line "history" → ∀ failure, ¬Unreadable [] "h" failure := by
    intro line among asks
    rw [← Command.ofLine?_eq_history_iff] at asks
    simp only [List.mem_cons, List.not_mem_nil, or_false] at among
    rcases among with rfl | rfl <;> exact absurd asks (by decide +kernel)
  have claimed := claim limits [] "h" ["x", "1"] store
  rw [place] at claimed
  obtain ⟨answered, -⟩ := claimed readable
  obtain ⟨ok, text, replied⟩ := answered _ List.mem_cons_self
  have unanswered : Unanswered limits [] "h" store "x" .tooManyDigits :=
    .value (by decide +kernel) (by rfl) (limits.not_canWrite_leastTooLong (by decide))
  rw [reply_eq_failed_iff.mpr unanswered] at replied
  cases replied

end Calculator
