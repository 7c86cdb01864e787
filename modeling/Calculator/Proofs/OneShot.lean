/-
Module: Calculator.Proofs.OneShot
Purpose: One-shot mode against a session. A run on given expressions shows what a session answers to the same lines,
  one after the other on a store without variables, as far as the first line that has no answer. The one thing that
  the two can differ in is the history: a run looks it up in the standard place, a session where its settings say.
  So they agree just if no line asks for it in time, or both places lead to the same answer. All this is so whatever
  the program runs on.
Main exports: Transcript.answers, sessionAnswers, Console.answers_calculate, ReachesHistory, SameHistory,
  sessionAnswers_eq_iff, Program.Prepared, Program.Prepared.plan_eq, one_shot_answers_of_session
-/
import Calculator.Program
import Calculator.Proofs.SessionReplies

namespace Calculator

/-! ### Answers -/

/-- The answer that an output is, and whether it belongs on the first stream. Log records and prompts are none. -/
def Output.answer? : Output → Option (Bool × String)
  | shown text => some (true, text)
  | complaint text => some (false, text)
  | _ => none

/-- All answers of a transcript, in order. -/
def Transcript.answers (transcript : Transcript) : List (Bool × String) :=
  transcript.outputs.filterMap Output.answer?

/-- The answers before the first reply that is none. -/
def answersAmong : List Reply → List (Bool × String)
  | .answer ok text :: rest => (ok, text) :: answersAmong rest
  | _ => []

/-- What a session answers to lines one after the other, as far as the first that has no answer. -/
def sessionAnswers (limits : Limits) (files : Files) (historyFile : String) (lines : List String) (store : Store) :
    List (Bool × String) :=
  answersAmong ((answerLines limits files historyFile lines store).map LineOutcome.reply)

/-- The lines before the first value that is no text. -/
def linesAmong : List Operand → List String
  | .text line :: rest => line :: linesAmong rest
  | _ => []

@[simp] theorem answers_after (outputs : List Output) (transcript : Transcript) :
    (transcript.after outputs).answers = outputs.filterMap Output.answer? ++ transcript.answers := by
  simp [Transcript.answers, Transcript.after]

/-- No threshold holds an answer back. -/
@[simp] theorem answers_loggedFrom (transcript : Transcript) (threshold : LogLevel) :
    (transcript.loggedFrom threshold).answers = transcript.answers := by
  simp only [Transcript.answers, Transcript.loggedFrom, List.filterMap_filter]
  congr
  funext output
  cases output <;> simp [Output.reaches, Output.answer?]

@[simp] theorem answer?_logged (record : LogRecord) : (Output.logged record).answer? = none := rfl

@[simp] theorem answer?_sortAnswer (ok : Bool) (text : String) :
    (Console.sortAnswer ok text).answer? = some (ok, text) := by
  cases ok <;> rfl

section Sessions

variable {limits : Limits} {files : Files} {historyFile line : String} {store : Store}

theorem sessionAnswers_cons (rest : List String) :
    sessionAnswers limits files historyFile (line :: rest) store =
      match (answerLine limits files historyFile line store).reply with
      | .answer ok text =>
        (ok, text) ::
          sessionAnswers limits files historyFile rest (answerLine limits files historyFile line store).store
      | _ => [] := by
  cases replied : (answerLine limits files historyFile line store).reply <;>
    simp [sessionAnswers, answerLines, answersAmong, replied]

end Sessions

/-- Calculating shows the answers of a session, whatever the status at the start. -/
theorem Console.answers_calculate (limits : Limits) (files : Files) (historyFile : String) (status : Nat)
    (store : Store) (exprs : List Operand) :
    (calculate limits files historyFile status store exprs).answers =
      sessionAnswers limits files historyFile (linesAmong exprs) store := by
  induction exprs generalizing status store with
  | nil => rfl
  | cons first rest ih =>
      cases first with
      | other => rfl
      | text line =>
          rw [linesAmong, sessionAnswers_cons]
          cases replied : (answerLine limits files historyFile line store).reply with
          | answer ok text => simp [calculate, replied, ih]
          | leave => simp [calculate, replied, Transcript.answers]
          | failed failure => simp [calculate, replied, Transcript.answers]

/-! ### Two places for the history -/

/-- The lines ask for the history, and none before asks to leave. -/
def ReachesHistory (lines : List String) : Prop :=
  ∃ before line rest, lines = before ++ line :: rest ∧ (∀ earlier ∈ before, ¬AsksToLeave earlier) ∧
    ColonCommand line "history"

/-- The same is answered about the history at two places, or nothing at either. -/
def SameHistory (files : Files) (first second : String) : Prop :=
  ∀ text, History.answer files first = .ok text ↔ History.answer files second = .ok text

theorem reachesHistory_cons_iff {line : String} {rest : List String} :
    ReachesHistory (line :: rest) ↔
      ColonCommand line "history" ∨ (¬AsksToLeave line ∧ ReachesHistory rest) := by
  constructor
  · rintro ⟨before, asking, behind, split, stays, asks⟩
    cases before with
    | nil =>
        obtain ⟨rfl, -⟩ := List.cons.inj split
        exact Or.inl asks
    | cons earlier before =>
        obtain ⟨rfl, rfl⟩ := List.cons.inj split
        obtain ⟨first, later⟩ := List.forall_mem_cons.mp stays
        exact Or.inr ⟨first, before, asking, behind, rfl, later, asks⟩
  · rintro (asks | ⟨first, before, asking, behind, rfl, later, asks⟩)
    · exact ⟨[], line, rest, rfl, nofun, asks⟩
    · exact ⟨line :: before, asking, behind, rfl, List.forall_mem_cons.mpr ⟨first, later⟩, asks⟩

section Places

variable {limits : Limits} {files : Files} {first second line : String} {store : Store}

theorem sessionAnswers_of_history (asks : ColonCommand line "history") (rest : List String) :
    sessionAnswers limits files first (line :: rest) store =
      match History.answer files first with
      | .ok text => (true, text) :: sessionAnswers limits files first rest store
      | .error _ => [] := by
  have read := Command.ofLine?_eq_history_iff.mpr asks
  rw [sessionAnswers_cons]
  cases answered : History.answer files first <;> simp [answerLine, read, Command.reply, answered, Reply.showing]

/-- Sessions on words that look the history up at two places give the same answers just if it is not asked for, or
    the places lead to the same answer. -/
theorem sessionAnswers_eq_iff {lines : List String} (words : store.HoldsWords) :
    sessionAnswers limits files first lines store = sessionAnswers limits files second lines store ↔
      (ReachesHistory lines → SameHistory files first second) := by
  induction lines generalizing store with
  | nil => simp [sessionAnswers, answerLines, ReachesHistory]
  | cons line rest ih =>
      rw [reachesHistory_cons_iff]
      by_cases asks : ColonCommand line "history"
      · simp only [sessionAnswers_of_history asks, asks, true_or, forall_const]
        cases one : History.answer files first with
        | error failure =>
            cases two : History.answer files second with
            | error other => simp [SameHistory, one, two]
            | ok text => simp [SameHistory, one, two]
        | ok text =>
            cases two : History.answer files second with
            | error failure => simp [SameHistory, one, two]
            | ok other =>
                constructor
                · intro same
                  obtain ⟨head, -⟩ := List.cons.inj same
                  simp [SameHistory, one, two, (Prod.mk.inj head).2]
                · intro same
                  obtain rfl : other = text := by simpa [one, two] using same text
                  exact congrArg ((true, other) :: ·) ((ih words).mpr fun _ => same)
      · have same : answerLine limits files first line store = answerLine limits files second line store :=
          answerLine_congr fun asked => absurd asked asks
        rw [sessionAnswers_cons, sessionAnswers_cons, same]
        cases replied : (answerLine limits files second line store).reply with
        | answer ok text =>
            have answered : (answerLine limits files second line store).reply ≠ .leave := by simp [replied]
            have stays : ¬AsksToLeave line := mt reply_eq_leave_iff.mpr answered
            simp [asks, stays, ih (holdsWords_answerLine limits files second line words)]
        | leave =>
            have leaves : AsksToLeave line := reply_eq_leave_iff.mp replied
            simp [asks, leaves]
        | failed failure =>
            have unanswered := reply_eq_failed_iff.mp replied
            exact absurd ((unanswered_iff_of_holdsWords words).mp unanswered).1 asks

end Places

/-! ### Whole runs -/

/-- The command line asks for a run, and what surrounds it gives the run an environment and valid settings. -/
structure Program.Prepared (machine : Machine) (surroundings : Surroundings) (arguments : List String)
    (given : Arguments) (environment : Environment) (settings : Settings) : Prop where
  parsed : Arguments.parse machine.dialect arguments = .ok (.run given)
  loaded : (machine.loadEnvironment surroundings.environment surroundings.files).environment = .ok environment
  valid : settingsFor machine environment given = .ok settings

/-- What is complained of before the first expression, when variables are added to the environment. -/
def noticesOf (machine : Machine) (surroundings : Surroundings) : List (Bool × String) :=
  (machine.loadEnvironment surroundings.environment surroundings.files).notices.map fun notice => (false, notice)

section Runs

variable {machine : Machine} {surroundings : Surroundings} {arguments : List String} {given : Arguments}
  {environment : Environment} {settings : Settings}

/-- With valid settings a run on expressions calculates them. Of the settings only the log level is used. -/
theorem Program.Prepared.plan_eq (prepared : Prepared machine surroundings arguments given environment settings)
    (asked : given.exprs ≠ []) :
    plan machine surroundings arguments =
      ⟨(machine.loadEnvironment surroundings.environment surroundings.files).notices.map .complaint,
        .calculate settings.logLevel (standardHistory machine environment) given.exprs⟩ := by
  obtain ⟨parsed, loaded, valid⟩ := prepared
  have task : taskFor machine environment given =
      .calculate settings.logLevel (standardHistory machine environment) given.exprs := by
    unfold taskFor taskWith
    cases exprs : given.exprs with
    | nil => exact absurd exprs asked
    | cons first rest => simp [valid]
  simp [plan, parsed, planFor, loaded, task]

theorem Program.Prepared.answers_run
    (prepared : Prepared machine surroundings arguments given environment settings)
    (asked : given.exprs ≠ []) (keys : List Key) :
    (run machine surroundings arguments keys).answers = noticesOf machine surroundings ++
      sessionAnswers machine.limits surroundings.files (standardHistory machine environment)
        (linesAmong given.exprs) Store.empty := by
  simp [run, prepared.plan_eq asked, carryOut, Console.answers_calculate, noticesOf, List.filterMap_map,
    Function.comp_def, Output.answer?]

/-- **One shot.** A run with valid settings and at least one expression shows the answers of a session that looks
    the history up in the standard place. They are the answers of the session with these settings just if no line
    asks for the history before one asks to leave, or the two places lead to the same answer. -/
theorem one_shot_answers_of_session
    (prepared : Program.Prepared machine surroundings arguments given environment settings)
    (asked : given.exprs ≠ []) (keys : List Key) :
    let answers := (Program.run machine surroundings arguments keys).answers
    let notices := noticesOf machine surroundings
    let session (historyFile : String) :=
      sessionAnswers machine.limits surroundings.files historyFile (linesAmong given.exprs) Store.empty
    let standard := Program.standardHistory machine environment
    answers = notices ++ session standard ∧
      (answers = notices ++ session settings.historyFile ↔
        (ReachesHistory (linesAmong given.exprs) →
          SameHistory surroundings.files standard settings.historyFile)) := by
  intro answers notices session standard
  have words : Store.empty.HoldsWords := nofun
  have shown : answers = notices ++ session standard := prepared.answers_run asked keys
  refine ⟨shown, ?_⟩
  calc
    _ ↔ notices ++ session standard = notices ++ session settings.historyFile := Eq.congr_left shown
    _ ↔ session standard = session settings.historyFile := List.append_right_inj _
    _ ↔ _ := sessionAnswers_eq_iff words

end Runs

/-- Variables are shared and failures passed over up to the line that leaves; what follows it is not answered, so
    that another history file makes no difference. -/
theorem one_shot_answers_of_session_left :
    let limits : Limits := ⟨988, 4300, Or.inr (by decide)⟩
    let machine : Machine :=
      ⟨limits, .current, .textOnly, .only "/", fun environment _ => ⟨[], .ok environment⟩, fun _ files _ => files⟩
    let surroundings : Surroundings := ⟨[("HOME", "home")], [("h", ⟨#[0x2B, 0x31]⟩)]⟩
    let arguments := ["-ex = 6 / 2", "--expr", "x / 0", "--hist=h", "-e", " :Quit", "-e", ":history"]
    let given : Arguments :=
      ⟨[.text "x = 6 / 2", .text "x / 0", .text " :Quit", .text ":history"], some (.text "h"), none, none⟩
    Program.Prepared machine surroundings arguments given [("HOME", "home")] ⟨"> ", "h", .warning⟩ ∧
      (Program.run machine surroundings arguments []).answers =
        sessionAnswers limits surroundings.files "h" ["x = 6 / 2", "x / 0", " :Quit", ":history"] Store.empty ∧
      (Program.run machine surroundings arguments []).answers = [(true, "3"), (false, "Error: Division by zero")] := by
  intro limits machine surroundings arguments given
  have prepared : Program.Prepared machine surroundings arguments given [("HOME", "home")] ⟨"> ", "h", .warning⟩ :=
    ⟨rfl, rfl, rfl⟩
  have leaves : AsksToLeave " :Quit" := Command.ofLine?_eq_leave_iff.mp (by decide)
  have quiet : ¬ReachesHistory ["x = 6 / 2", "x / 0", " :Quit", ":history"] := by
    have first : ¬ColonCommand "x = 6 / 2" "history" := mt Command.ofLine?_eq_history_iff.mpr (by decide)
    have second : ¬ColonCommand "x / 0" "history" := mt Command.ofLine?_eq_history_iff.mpr (by decide)
    have third : ¬ColonCommand " :Quit" "history" := mt Command.ofLine?_eq_history_iff.mpr (by decide)
    simp [reachesHistory_cons_iff, first, second, third, leaves]
  obtain ⟨-, agree⟩ := one_shot_answers_of_session prepared nofun []
  have answers : (Program.run machine surroundings arguments []).answers = noticesOf machine surroundings ++
      sessionAnswers limits surroundings.files "h" ["x = 6 / 2", "x / 0", " :Quit", ":history"] Store.empty :=
    agree.mpr fun reached => absurd reached quiet
  have noNotice : noticesOf machine surroundings = [] := rfl
  rw [noNotice, List.nil_append] at answers
  have shown : sessionAnswers limits surroundings.files "h" ["x = 6 / 2", "x / 0", " :Quit", ":history"]
      Store.empty = [(true, "3"), (false, "Error: Division by zero")] := by decide +kernel
  exact ⟨prepared, answers, answers.trans shown⟩

/-- The session with the settings of a run may answer something else: here its history file is given on the command
    line, and the run shows the one in the home directory. -/
theorem history_flag_without_effect :
    ¬∀ (machine : Machine) (surroundings : Surroundings) (arguments : List String) (given : Arguments)
      (environment : Environment) (settings : Settings),
      Program.Prepared machine surroundings arguments given environment settings → given.exprs ≠ [] →
      (Program.run machine surroundings arguments []).answers = noticesOf machine surroundings ++
        sessionAnswers machine.limits surroundings.files settings.historyFile (linesAmong given.exprs)
          Store.empty := by
  intro claim
  let limits : Limits := ⟨988, 4300, Or.inr (by decide)⟩
  let machine : Machine :=
    ⟨limits, .current, .textOnly, .only "/", fun environment _ => ⟨[], .ok environment⟩, fun _ files _ => files⟩
  let surroundings : Surroundings :=
    ⟨[("HOME", "home")], [("h.txt", ⟨#[0x2B, 0x31]⟩), ("home/.intcalc_history", ⟨#[0x2B, 0x32]⟩)]⟩
  let arguments := ["-e", ":history", "--history-file", "h.txt"]
  have printed : (Program.run machine surroundings arguments []).answers = [(true, "2")] := by decide +kernel
  have asked : noticesOf machine surroundings ++
      sessionAnswers machine.limits surroundings.files "h.txt" (linesAmong [.text ":history"]) Store.empty =
        [(true, "1")] := by decide +kernel
  have same := claim machine surroundings arguments ⟨[.text ":history"], some (.text "h.txt"), none, none⟩
    [("HOME", "home")] ⟨"> ", "h.txt", .warning⟩ ⟨rfl, rfl, rfl⟩ nofun
  rw [printed, asked] at same
  exact absurd same (by decide)

end Calculator
