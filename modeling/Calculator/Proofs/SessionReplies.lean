/-
Module: Calculator.Proofs.SessionReplies
Purpose: What a session can reply to a line, and how a conversation can end. The first word behind a colon decides
  which command a line is, so a session is left by the words for that and by no other line. Every other line has an
  answer, with two exceptions (`Unanswered`): the history is asked for and its file can neither be shown nor reported
  as missing (`Unreadable`), or the answer holds an integer that is too long to be written out. The second one needs
  a store that holds such an integer, and no session makes one out of words. A conversation goes on, whatever is typed,
  until an event comes that leaves it or has no answer.
Main exports: ColonCommand, AsksToLeave, Unreadable, Unanswered, Command.ofLine?_eq_leave_iff,
  Command.ofLine?_eq_history_iff, History.answer_eq_error_iff, listVariables_eq_error_iff, reply_eq_leave_iff,
  reply_eq_failed_iff, unanswered_iff_of_holdsWords, answerLine_congr, Store.afterEvent, Event.printed,
  Event.noted, Event.Ends, GoesOn, Console.step_over_iff, Console.turns_of_goesOn, session_answers_readable_lines
-/
import Calculator.Console
import Calculator.Proofs.Blanks
import Calculator.Proofs.SessionStore
import Calculator.Proofs.StoreViews

namespace Calculator

/-! ### Which command a line is -/

/-- The line is a colon and a word with the given lower-case form, whatever follows. Blanks around the line and
    behind the colon do not count. -/
def ColonCommand (line name : String) : Prop :=
  ∃ body word rest, Text.strip line.toList = ':' :: body ∧ Text.words body = word :: rest ∧
    String.ofList (Text.lower word) = name

/-- The line is `exit` or `quit` as it stands, or asks for one of them behind a colon in any letter case. -/
def AsksToLeave (line : String) : Prop :=
  Text.strip line.toList = "exit".toList ∨ Text.strip line.toList = "quit".toList ∨
    ColonCommand line "exit" ∨ ColonCommand line "quit"

namespace Command

theorem ofWords_eq_leave_iff {words : List (List Char)} :
    ofWords words = .leave ↔ ∃ word rest, words = word :: rest ∧
      (String.ofList (Text.lower word) = "exit" ∨ String.ofList (Text.lower word) = "quit") := by
  cases words with
  | nil => simp [ofWords]
  | cons word rest =>
      simp only [ofWords, exitWords]
      grind

/-- The commands that nothing but their name decides: those for the variables and for the history. -/
def IsNamed (command : Command) (name : String) : Prop :=
  command = .vars ∧ name = "vars" ∨ command = .history ∧ name = "history"

theorem ofWords_eq_iff_of_isNamed {words : List (List Char)} {command : Command} {name : String}
    (named : command.IsNamed name) :
    ofWords words = command ↔ ∃ word rest, words = word :: rest ∧ String.ofList (Text.lower word) = name := by
  rcases named with ⟨rfl, rfl⟩ | ⟨rfl, rfl⟩ <;> cases words with
  | nil => simp [ofWords]
  | cons word rest =>
      simp only [ofWords, exitWords]
      grind

/-- The exit words are what they are as lists of characters. -/
theorem ofList_mem_exitWords_iff {text : List Char} :
    String.ofList text ∈ exitWords ↔ text = "exit".toList ∨ text = "quit".toList := by
  simp [exitWords, String.ext_iff]

/-- Behind a colon the words decide. -/
theorem ofLine?_of_colon {line : String} {body : List Char} (colon : Text.strip line.toList = ':' :: body) :
    ofLine? line = some (ofWords (Text.words body)) := by
  have noWord : String.ofList (':' :: body) ∉ exitWords := by
    rw [ofList_mem_exitWords_iff]
    simp
  rw [ofLine?, colon, if_neg noWord]
  rfl

theorem ofLine?_of_noColon {line : String} (noColon : (Text.strip line.toList).head? ≠ some ':') :
    ofLine? line =
      if String.ofList (Text.strip line.toList) ∈ exitWords then some .leave
      else if asksForHelp (Text.strip line.toList) then some (help (helpTopic? (Text.strip line.toList)))
      else none := by
  unfold ofLine?
  dsimp only
  split
  · rfl
  · split
    · rename_i body colon
      simp [colon] at noColon
    · rfl

theorem colon_or_noColon (text : List Char) : (∃ body, text = ':' :: body) ∨ text.head? ≠ some ':' := by
  cases text with
  | nil => exact Or.inr nofun
  | cons c body =>
      by_cases colon : c = ':'
      · exact Or.inl ⟨body, by rw [colon]⟩
      · exact Or.inr (by simpa using colon)

theorem not_colonCommand {line : String} (noColon : (Text.strip line.toList).head? ≠ some ':') (name : String) :
    ¬ColonCommand line name := by
  rintro ⟨body, word, rest, colon, -⟩
  simp [colon] at noColon

/-- A line behind a colon is a command with a given name if its first word is. -/
theorem colonCommand_iff {line : String} {body : List Char} (colon : Text.strip line.toList = ':' :: body)
    {name : String} :
    ColonCommand line name ↔
      ∃ word rest, Text.words body = word :: rest ∧ String.ofList (Text.lower word) = name := by
  simp [ColonCommand, colon]

theorem ofLine?_eq_leave_iff {line : String} : ofLine? line = some .leave ↔ AsksToLeave line := by
  unfold AsksToLeave
  rcases colon_or_noColon (Text.strip line.toList) with ⟨body, colon⟩ | noColon
  · simp only [ofLine?_of_colon colon, Option.some.injEq, ofWords_eq_leave_iff, colonCommand_iff colon]
    simp [colon, and_or_left, exists_or]
  · simp only [ofLine?_of_noColon noColon, ofList_mem_exitWords_iff, not_colonCommand noColon, or_false]
    split
    · simpa using ‹_›
    · split <;> simp_all

theorem ofLine?_eq_iff_of_isNamed {line name : String} {command : Command} (named : command.IsNamed name) :
    ofLine? line = some command ↔ ColonCommand line name := by
  rcases colon_or_noColon (Text.strip line.toList) with ⟨body, colon⟩ | noColon
  · simp only [ofLine?_of_colon colon, Option.some.injEq, ofWords_eq_iff_of_isNamed named, colonCommand_iff colon]
  · simp only [ofLine?_of_noColon noColon, not_colonCommand noColon, iff_false]
    rcases named with ⟨rfl, -⟩ | ⟨rfl, -⟩ <;> split <;> simp

theorem ofLine?_eq_vars_iff {line : String} : ofLine? line = some .vars ↔ ColonCommand line "vars" :=
  ofLine?_eq_iff_of_isNamed (Or.inl ⟨rfl, rfl⟩)

theorem ofLine?_eq_history_iff {line : String} : ofLine? line = some .history ↔ ColonCommand line "history" :=
  ofLine?_eq_iff_of_isNamed (Or.inr ⟨rfl, rfl⟩)

end Command

/-! ### Histories that cannot be shown -/

/-- Why there is no answer about a history file: its path is none, or it can be opened but holds no text. -/
inductive Unreadable (files : Files) (path : String) : Failure → Prop where
  | noPath (null : '\x00' ∈ path.toList) : Unreadable files path .unusable
  | noText {bytes : ByteArray} (noNull : '\x00' ∉ path.toList) (opened : files.read path = .ok bytes)
      (malformed : ¬bytes.IsValidUTF8) : Unreadable files path .undecodable

theorem fromUTF8?_eq_none_iff {bytes : ByteArray} : String.fromUTF8? bytes = none ↔ ¬bytes.IsValidUTF8 := by
  simp [String.fromUTF8?]

theorem History.answer_eq_error_iff {files : Files} {path : String} {failure : Failure} :
    History.answer files path = .error failure ↔ Unreadable files path failure := by
  constructor
  · intro failed
    unfold History.answer at failed
    split at failed
    · rename_i null
      cases failed
      exact .noPath (by simpa using null)
    · rename_i noNull
      have noNull : '\x00' ∉ path.toList := by simpa using noNull
      split at failed
      · cases failed
      · rename_i bytes opened
        split at failed
        · cases failed
        · rename_i malformed
          cases failed
          exact .noText noNull opened (fromUTF8?_eq_none_iff.mp malformed)
  · intro unreadable
    cases unreadable with
    | noPath null => simp [History.answer, null]
    | noText noNull opened malformed =>
        simp [History.answer, noNull, opened, fromUTF8?_eq_none_iff.mpr malformed]

/-! ### Lists that cannot be shown -/

/-- The variables cannot be listed just if one of the values is too long. -/
theorem listVariables_eq_error_iff {limits : Limits} {store : Store} {failure : Failure} :
    listVariables limits store = .error failure ↔
      (∃ name value, store.get? name = some value ∧ ¬limits.CanWrite value) ∧ failure = .tooManyDigits := by
  have tooLong : ¬limits.CanWriteAll store.items ↔
      ∃ name value, store.get? name = some value ∧ ¬limits.CanWrite value := by
    simp [Limits.not_canWriteAll_iff, Store.mem_items_iff]
  rw [← tooLong, ← @Limits.writeEntries_eq_error_iff limits failure fun name written => s!"{name} = {written}"]
  unfold listVariables
  cases store.items with
  | nil => simp [Limits.writeEntries]
  | cons entry rest =>
      dsimp only
      generalize limits.writeEntries _ (entry :: rest) = written
      cases written <;> simp [Except.map]

/-! ### Replies -/

/-- Why there is no answer to a line: it asks for a history that is unreadable, or for the variables and one of them
    is too long, or it is an expression and its value is too long. -/
inductive Unanswered (limits : Limits) (files : Files) (historyFile : String) (store : Store) (line : String) :
    Failure → Prop where
  | history {failure : Failure} (asks : ColonCommand line "history")
      (unreadable : Unreadable files historyFile failure) :
      Unanswered limits files historyFile store line failure
  | listing {name : String} {value : Int} (asks : ColonCommand line "vars") (held : store.get? name = some value)
      (tooLong : ¬limits.CanWrite value) : Unanswered limits files historyFile store line .tooManyDigits
  | value {value : Int} (noCommand : Command.ofLine? line = none)
      (evaluated : (evaluate limits.nesting line store).result = .ok value) (tooLong : ¬limits.CanWrite value) :
      Unanswered limits files historyFile store line .tooManyDigits

section Replies

variable {limits : Limits} {files : Files} {historyFile line : String} {store : Store} {failure : Failure}

theorem Reply.showing_ne_leave (text : Except Failure String) : showing text ≠ leave := by
  cases text <;> nofun

theorem Reply.showing_eq_failed_iff {text : Except Failure String} :
    showing text = failed failure ↔ text = .error failure := by
  cases text <;> simp [showing]

theorem Command.reply_eq_leave_iff {command : Command} :
    command.reply limits files historyFile store = .leave ↔ command = .leave := by
  cases command <;> simp [reply, Reply.showing_ne_leave]

theorem Command.reply_eq_failed_iff {command : Command} :
    command.reply limits files historyFile store = .failed failure ↔
      command = .history ∧ History.answer files historyFile = .error failure ∨
        command = .vars ∧ listVariables limits store = .error failure := by
  cases command <;> simp [reply, Reply.showing_eq_failed_iff]

theorem replyTo_ne_leave (limits : Limits) (result : Except EvalError Int) : replyTo limits result ≠ .leave := by
  cases result with
  | ok value => exact Reply.showing_ne_leave _
  | error error => nofun

theorem replyTo_eq_failed_iff {result : Except EvalError Int} :
    replyTo limits result = .failed failure ↔
      ∃ value, result = .ok value ∧ ¬limits.CanWrite value ∧ failure = .tooManyDigits := by
  cases result with
  | ok value => simp [replyTo, Reply.showing_eq_failed_iff, Limits.write_eq_error_iff]
  | error error => simp [replyTo]

theorem reply_of_command {command : Command} (asked : Command.ofLine? line = some command) :
    (answerLine limits files historyFile line store).reply = command.reply limits files historyFile store := by
  rw [answerLine, asked]

theorem reply_of_noCommand (noCommand : Command.ofLine? line = none) :
    (answerLine limits files historyFile line store).reply =
      replyTo limits (evaluate limits.nesting line store).result := by
  rw [answerLine, noCommand]

theorem reply_eq_leave_iff :
    (answerLine limits files historyFile line store).reply = .leave ↔ AsksToLeave line := by
  rw [← Command.ofLine?_eq_leave_iff]
  cases asked : Command.ofLine? line with
  | some command => simp [reply_of_command asked, Command.reply_eq_leave_iff]
  | none => simp [reply_of_noCommand asked, replyTo_ne_leave]

theorem reply_eq_failed_iff :
    (answerLine limits files historyFile line store).reply = .failed failure ↔
      Unanswered limits files historyFile store line failure := by
  constructor
  · intro failed
    cases asked : Command.ofLine? line with
    | some command =>
        rw [reply_of_command asked] at failed
        rcases Command.reply_eq_failed_iff.mp failed with ⟨rfl, unanswered⟩ | ⟨rfl, unlisted⟩
        · exact .history (Command.ofLine?_eq_history_iff.mp asked) (History.answer_eq_error_iff.mp unanswered)
        · obtain ⟨⟨name, value, held, tooLong⟩, rfl⟩ := listVariables_eq_error_iff.mp unlisted
          exact .listing (Command.ofLine?_eq_vars_iff.mp asked) held tooLong
    | none =>
        rw [reply_of_noCommand asked] at failed
        obtain ⟨value, evaluated, tooLong, rfl⟩ := replyTo_eq_failed_iff.mp failed
        exact .value asked evaluated tooLong
  · intro unanswered
    cases unanswered with
    | history asks unreadable =>
        rw [reply_of_command (Command.ofLine?_eq_history_iff.mpr asks), Command.reply_eq_failed_iff]
        exact Or.inl ⟨rfl, History.answer_eq_error_iff.mpr unreadable⟩
    | listing asks held tooLong =>
        rw [reply_of_command (Command.ofLine?_eq_vars_iff.mpr asks), Command.reply_eq_failed_iff]
        exact Or.inr ⟨rfl, listVariables_eq_error_iff.mpr ⟨⟨_, _, held, tooLong⟩, rfl⟩⟩
    | value noCommand evaluated tooLong =>
        rw [reply_of_noCommand noCommand, replyTo_eq_failed_iff]
        exact ⟨_, evaluated, tooLong, rfl⟩

theorem exists_answer (stays : ¬AsksToLeave line)
    (answered : ∀ failure, ¬Unanswered limits files historyFile store line failure) :
    ∃ ok text, (answerLine limits files historyFile line store).reply = .answer ok text := by
  cases replied : (answerLine limits files historyFile line store).reply with
  | answer ok text => exact ⟨ok, text, rfl⟩
  | leave => exact absurd (reply_eq_leave_iff.mp replied) stays
  | failed failure => exact absurd (reply_eq_failed_iff.mp replied) (answered failure)

/-- On a store of words all values can be written out, so that only the history is left. -/
theorem unanswered_iff_of_holdsWords (words : store.HoldsWords) :
    Unanswered limits files historyFile store line failure ↔
      ColonCommand line "history" ∧ Unreadable files historyFile failure := by
  constructor
  · intro unanswered
    cases unanswered with
    | history asks unreadable => exact ⟨asks, unreadable⟩
    | listing _ held tooLong => exact absurd (limits.canWrite_of_inRange (words _ _ held)) tooLong
    | value _ evaluated tooLong =>
        have word := (keepsWords_evaluate limits.nesting line words).value _ evaluated
        exact absurd (limits.canWrite_of_inRange word) tooLong
  · rintro ⟨asks, unreadable⟩
    exact .history asks unreadable

/-- A history is the only thing that is looked up in the files. -/
theorem answerLine_congr {otherFiles : Files} {elsewhere : String}
    (same : ColonCommand line "history" → History.answer files historyFile = History.answer otherFiles elsewhere) :
    answerLine limits files historyFile line store = answerLine limits otherFiles elsewhere line store := by
  unfold answerLine
  cases asked : Command.ofLine? line with
  | none => rfl
  | some command =>
      cases command with
      | history => simp only [Command.reply, same (Command.ofLine?_eq_history_iff.mp asked)]
      | leave | missing | help | vars | unknown => rfl

/-- What a line writes does not depend on the files. -/
theorem store_answerLine_congr (limits : Limits) (files otherFiles : Files) (historyFile elsewhere line : String)
    (store : Store) :
    (answerLine limits files historyFile line store).store =
      (answerLine limits otherFiles elsewhere line store).store := by
  unfold answerLine
  cases Command.ofLine? line <;> rfl

/-- A line leaves a store of words behind a store of words. -/
theorem holdsWords_answerLine (limits : Limits) (files : Files) (historyFile line : String)
    (words : store.HoldsWords) : (answerLine limits files historyFile line store).store.HoldsWords := by
  unfold answerLine
  cases Command.ofLine? line with
  | some command => exact words
  | none => exact (keepsWords_evaluate limits.nesting line words).store

end Replies

/-! ### Conversations -/

/-- The store behind an event: a line that is not blank may write to it. -/
def Store.afterEvent (limits : Limits) (historyFile : String) (store : Store) (event : Event) : Store :=
  match event.key with
  | .line text =>
    if Text.isBlankText text then store else (answerLine limits event.files historyFile text store).store
  | _ => store

/-- The store behind some events. -/
def Store.afterEvents (limits : Limits) (historyFile : String) (store : Store) (events : List Event) : Store :=
  events.foldl (Store.afterEvent limits historyFile) store

/-- What is printed for an event: a mark for an interrupt, nothing for a blank line, and the answer to any other
    line. -/
def Event.printed (limits : Limits) (historyFile : String) (store : Store) (event : Event) : List String :=
  match event.key with
  | .interrupt => ["^C"]
  | .line text =>
    if Text.isBlankText text then []
    else
      match (answerLine limits event.files historyFile text store).reply with
      | .answer _ answer => [answer]
      | _ => []
  | .endOfInput => []

/-- What is noted about an event: only lines that are not blank leave records. -/
def Event.noted (limits : Limits) (historyFile : String) (store : Store) (event : Event) : List LogRecord :=
  match event.key with
  | .line text => if Text.isBlankText text then [] else (answerLine limits event.files historyFile text store).log
  | _ => []

/-- An event ends a conversation that has come to a store, and how: the end of the input, a line that asks to leave,
    or one that has no answer. -/
inductive Event.Ends (limits : Limits) (historyFile : String) (store : Store) : Event → Ending → Prop where
  | endOfInput {files : Files} : Event.Ends limits historyFile store ⟨.endOfInput, files⟩ (.exit 0)
  | leave {line : String} {files : Files} (asks : AsksToLeave line) :
      Event.Ends limits historyFile store ⟨.line line, files⟩ (.exit 0)
  | unanswered {line : String} {files : Files} {failure : Failure} (notBlank : Text.isBlankText line = false)
      (unanswered : Unanswered limits files historyFile store line failure) :
      Event.Ends limits historyFile store ⟨.line line, files⟩ (.failed failure)

/-- No event ends the conversation, whatever store it has come to by then. -/
def GoesOn (limits : Limits) (historyFile : String) : Store → List Event → Prop
  | _, [] => True
  | store, event :: rest =>
    (∀ ending, ¬event.Ends limits historyFile store ending) ∧
      GoesOn limits historyFile (store.afterEvent limits historyFile event) rest

section Ends

variable {limits : Limits} {files : Files} {historyFile : String} {line : String} {ending : Ending} {store : Store}

theorem not_asksToLeave_of_isBlankText (blank : Text.isBlankText line = true) : ¬AsksToLeave line := by
  have nothing := Text.strip_of_forall_isBlank (List.all_eq_true.mp blank)
  intro asks
  simp [AsksToLeave, ColonCommand, nothing] at asks

theorem not_ends_of_isBlankText (blank : Text.isBlankText line = true) :
    ¬(⟨.line line, files⟩ : Event).Ends limits historyFile store ending := by
  intro ends
  cases ends with
  | leave asks => exact not_asksToLeave_of_isBlankText blank asks
  | unanswered notBlank => simp [blank] at notBlank

/-- A line ends a conversation if the reply to it is no answer. -/
theorem ends_line_iff (notBlank : Text.isBlankText line = false) :
    (⟨.line line, files⟩ : Event).Ends limits historyFile store ending ↔
      (ending = .exit 0 ∧ (answerLine limits files historyFile line store).reply = .leave) ∨
      ∃ failure, ending = .failed failure ∧
        (answerLine limits files historyFile line store).reply = .failed failure := by
  simp only [reply_eq_leave_iff, reply_eq_failed_iff]
  constructor
  · intro ends
    cases ends with
    | leave asks => exact Or.inl ⟨rfl, asks⟩
    | unanswered _ unanswered => exact Or.inr ⟨_, rfl, unanswered⟩
  · rintro (⟨rfl, asks⟩ | ⟨failure, rfl, unanswered⟩)
    · exact .leave asks
    · exact .unanswered notBlank unanswered

end Ends

/-- An output that is a prompt. -/
def Output.isPrompt : Output → Bool
  | prompted _ _ => true
  | _ => false

/-- How often a transcript shows the prompt. -/
def Transcript.prompts (transcript : Transcript) : Nat :=
  transcript.outputs.countP Output.isPrompt

@[simp] theorem prompts_after (outputs : List Output) (transcript : Transcript) :
    (transcript.after outputs).prompts = outputs.countP Output.isPrompt + transcript.prompts := by
  simp [Transcript.prompts, Transcript.after]

@[simp] theorem ending_after (outputs : List Output) (transcript : Transcript) :
    (transcript.after outputs).ending = transcript.ending := rfl

namespace Console

variable {limits : Limits} {historyFile : String} {settings : Settings} {event : Event}

/-- One turn ends the conversation exactly at the events that end one. -/
theorem step_over_iff {store : Store} {ending : Ending} :
    (∃ after, (step limits historyFile store event).2 = .over ending after) ↔
      event.Ends limits historyFile store ending := by
  obtain ⟨key, files⟩ := event
  cases key with
  | interrupt =>
      simp only [step, reduceCtorEq, exists_false, false_iff]
      nofun
  | endOfInput =>
      simp only [step, Next.over.injEq]
      constructor
      · rintro ⟨_, rfl, -⟩
        exact .endOfInput
      · rintro ⟨⟩
        exact ⟨store, rfl, rfl⟩
  | line text =>
      cases blank : Text.isBlankText text with
      | true => simp [step, blank, not_ends_of_isBlankText blank]
      | false =>
          rw [ends_line_iff blank]
          cases replied : (answerLine limits files historyFile text store).reply with
          | answer ok answer => simp [step, blank, replied]
          | leave => simp [step, blank, replied, eq_comm]
          | failed failure => simp [step, blank, replied, eq_comm]

/-- A turn shows no prompt of its own. -/
theorem prompts_step (store : Store) : (step limits historyFile store event).1.countP Output.isPrompt = 0 := by
  have silent : ∀ records : List LogRecord, (records.map Output.logged).countP Output.isPrompt = 0 := by
    intro records
    simp [List.countP_eq_zero, Output.isPrompt]
  obtain ⟨key, files⟩ := event
  cases key with
  | interrupt | endOfInput => rfl
  | line text =>
      by_cases blank : Text.isBlankText text = true
      · simp [step, blank]
      · cases replied : (answerLine limits files historyFile text store).reply with
        | answer ok answer => simp [step, blank, replied, List.countP_append, silent, Output.isPrompt]
        | leave => simp [step, blank, replied, List.countP_append, silent, Output.isPrompt]
        | failed failure => simp [step, blank, replied, silent]

/-- An event that does not end the conversation is answered, and leads on to the next prompt, on the store behind
    it. -/
theorem step_of_goesOn {store : Store} (goesOn : ∀ ending, ¬event.Ends limits historyFile store ending) :
    step limits historyFile store event =
      ((event.noted limits historyFile store).map Output.logged ++
        (event.printed limits historyFile store).map Output.shown,
        .again (store.afterEvent limits historyFile event)) := by
  obtain ⟨key, files⟩ := event
  cases key with
  | interrupt => rfl
  | endOfInput => exact absurd .endOfInput (goesOn _)
  | line text =>
      cases blank : Text.isBlankText text with
      | true => simp [step, blank, Store.afterEvent, Event.noted, Event.printed]
      | false =>
          simp only [ends_line_iff blank] at goesOn
          cases replied : (answerLine limits files historyFile text store).reply with
          | answer ok answer => simp [step, blank, replied, Store.afterEvent, Event.noted, Event.printed]
          | leave => exact absurd (Or.inl ⟨rfl, replied⟩) (goesOn _)
          | failed failure => exact absurd (Or.inr ⟨failure, rfl, replied⟩) (goesOn _)

/-- Events that do not end the conversation have a prompt each, and the conversation goes on behind them. -/
theorem turns_of_goesOn {store : Store} {before : List Event}
    (goesOn : GoesOn limits settings.historyFile store before) (rest : List Event) :
    ∃ outputs, outputs.countP Output.isPrompt = before.length ∧
      turns limits settings store (before ++ rest) =
        (turns limits settings (store.afterEvents limits settings.historyFile before) rest).after outputs := by
  induction before generalizing store with
  | nil => exact ⟨[], rfl, rfl⟩
  | cons event before ih =>
      obtain ⟨first, later⟩ := goesOn
      obtain ⟨outputs, prompts, same⟩ := ih later
      refine ⟨promptWith settings store :: (step limits settings.historyFile store event).1 ++ outputs, ?_, ?_⟩
      · rw [List.cons_append, List.countP_cons_of_pos rfl, List.countP_append, prompts_step, prompts, Nat.zero_add]
        rfl
      · simp [turns, step_of_goesOn first, same, Transcript.after, Store.afterEvents]

theorem turns_nil (limits : Limits) (settings : Settings) (store : Store) :
    (turns limits settings store []).ending = .exit 0 ∧ (turns limits settings store []).prompts = 1 :=
  ⟨rfl, rfl⟩

theorem turns_of_ends {store : Store} {ending : Ending} (ends : event.Ends limits settings.historyFile store ending)
    (rest : List Event) :
    (turns limits settings store (event :: rest)).ending = ending ∧
      (turns limits settings store (event :: rest)).prompts = 1 := by
  obtain ⟨after, last⟩ := step_over_iff.mpr ends
  refine ⟨by simp [turns, last], ?_⟩
  simp [turns, last, Transcript.prompts, List.countP_cons, prompts_step, promptWith, Output.isPrompt]

theorem prompts_converse {store : Store} {events : List Event} :
    (converse limits settings store events).prompts = (turns limits settings store events).prompts := by
  simp [converse, Output.isPrompt]

/-- A conversation goes on as long as no event ends it, and then ends as that event says, without another prompt. -/
theorem converse_of_goesOn {store : Store} {before : List Event}
    (goesOn : GoesOn limits settings.historyFile store before) :
    ((converse limits settings store before).ending = .exit 0 ∧
      (converse limits settings store before).prompts = before.length + 1) ∧
    ∀ event ending rest,
      event.Ends limits settings.historyFile (store.afterEvents limits settings.historyFile before) ending →
      (converse limits settings store (before ++ event :: rest)).ending = ending ∧
      (converse limits settings store (before ++ event :: rest)).prompts = before.length + 1 := by
  simp only [prompts_converse]
  constructor
  · obtain ⟨outputs, prompts, same⟩ := turns_of_goesOn goesOn []
    obtain ⟨ended, last⟩ := turns_nil limits settings (store.afterEvents limits settings.historyFile before)
    rw [List.append_nil] at same
    exact ⟨by simp [converse, same, ended], by simp [same, prompts, last]⟩
  · intro event ending rest ends
    obtain ⟨outputs, prompts, same⟩ := turns_of_goesOn goesOn (event :: rest)
    obtain ⟨ended, last⟩ := turns_of_ends ends rest
    exact ⟨by simp [converse, same, ended], by simp [same, prompts, last]⟩

end Console

/-- **Answers.** The reply to a line is the end of the session just if the line asks to leave. It is missing just if
    the line asks for a history that is unreadable, or its answer holds an integer that is too long to be written out;
    every other line is answered. A store of words holds no such integer, and stays one of words, so that only the
    history is left there. A conversation of any length ends at the first line of one of these kinds, or at the end of
    the input. -/
theorem session_answers_readable_lines (limits : Limits) :
    (∀ files historyFile line store,
      ((answerLine limits files historyFile line store).reply = .leave ↔ AsksToLeave line) ∧
      (∀ failure, (answerLine limits files historyFile line store).reply = .failed failure ↔
        Unanswered limits files historyFile store line failure) ∧
      (¬AsksToLeave line → (∀ failure, ¬Unanswered limits files historyFile store line failure) →
        ∃ ok text, (answerLine limits files historyFile line store).reply = .answer ok text) ∧
      (store.HoldsWords →
        (∀ failure, Unanswered limits files historyFile store line failure ↔
          ColonCommand line "history" ∧ Unreadable files historyFile failure) ∧
        (answerLine limits files historyFile line store).store.HoldsWords)) ∧
    ∀ settings store before, GoesOn limits settings.historyFile store before →
      ((Console.converse limits settings store before).ending = .exit 0 ∧
        (Console.converse limits settings store before).prompts = before.length + 1) ∧
      ∀ event ending rest,
        event.Ends limits settings.historyFile (store.afterEvents limits settings.historyFile before) ending →
        (Console.converse limits settings store (before ++ event :: rest)).ending = ending ∧
        (Console.converse limits settings store (before ++ event :: rest)).prompts = before.length + 1 := by
  refine ⟨?_, ?_⟩
  · intro files historyFile line store
    refine ⟨reply_eq_leave_iff, fun _ => reply_eq_failed_iff, exists_answer, ?_⟩
    intro words
    exact ⟨fun _ => unanswered_iff_of_holdsWords words, holdsWords_answerLine limits files historyFile line words⟩
  · intro settings store before goesOn
    exact Console.converse_of_goesOn goesOn

/-- A failed line and a variable with the name of a command do not end a conversation; a history that is no text
    does, and so does the list of the variables if one of them is too long. -/
theorem session_answers_readable_lines_history :
    let limits : Limits := ⟨20, 640, Or.inr (Nat.le_refl 640)⟩
    let files : Files := [("h", ⟨#[0x2B, 0x31, 0xFF]⟩)]
    let settings : Settings := ⟨"> ", "h", .warning⟩
    let before : List Event := [⟨.line "QUIT = 1 / 0", []⟩, ⟨.interrupt, []⟩]
    let long := Store.ofList [("x", limits.leastTooLong)]
    (∃ ok text, (answerLine limits files "h" "QUIT = 1 / 0" Store.empty).reply = .answer ok text) ∧
      (answerLine limits files "h" ":Vars" long).reply = .failed .tooManyDigits ∧
      (Console.converse limits settings Store.empty
        (before ++ ⟨.line ":History now", files⟩ :: [⟨.line "1", files⟩])).ending = .failed .undecodable ∧
      (Console.converse limits settings Store.empty
        (before ++ ⟨.line ":History now", files⟩ :: [⟨.line "1", files⟩])).prompts = 3 := by
  intro limits files settings before long
  have words : Store.empty.HoldsWords := nofun
  have stays : ¬AsksToLeave "QUIT = 1 / 0" := by
    rw [← Command.ofLine?_eq_leave_iff]
    decide
  have noHistory : ¬ColonCommand "QUIT = 1 / 0" "history" := by
    rw [← Command.ofLine?_eq_history_iff]
    decide
  have unreadable : Unreadable files "h" .undecodable := .noText (by decide) (by rfl) (by decide)
  have asks : ColonCommand ":History now" "history" := Command.ofLine?_eq_history_iff.mp (by decide)
  obtain ⟨lines, conversations⟩ := session_answers_readable_lines limits
  have fine : ∀ files failure, ¬Unanswered limits files "h" Store.empty "QUIT = 1 / 0" failure := by
    intro files failure unanswered
    exact noHistory (((lines files "h" _ _).2.2.2 words).1 failure |>.mp unanswered).1
  have goesOn : GoesOn limits "h" Store.empty before := by
    refine ⟨?_, nofun, trivial⟩
    rintro ending (_ | asks | ⟨-, unanswered⟩)
    · exact stays asks
    · exact fine [] _ unanswered
  have held : long.get? "x" = some limits.leastTooLong := by rfl
  have listing : Unanswered limits files "h" long ":Vars" .tooManyDigits :=
    .listing (Command.ofLine?_eq_vars_iff.mp (by decide)) held (Limits.not_canWrite_leastTooLong (by decide))
  refine ⟨(lines files "h" _ _).2.2.1 stays (fine files), ((lines files "h" _ _).2.1 _).mpr listing, ?_⟩
  exact (conversations settings Store.empty before goesOn).2 _ _ _
    (.unanswered (by decide) (.history asks unreadable))

/-- Not every line that stays is answered: one byte that is no text, in a history that can be opened, leaves the
    line that asks for it without a reply. -/
theorem history_without_answer :
    ¬∀ (limits : Limits) (files : Files) (historyFile line : String) (store : Store),
      (∃ ok text, (answerLine limits files historyFile line store).reply = .answer ok text) ∨
        ((answerLine limits files historyFile line store).reply = .leave ∧ AsksToLeave line) := by
  intro claim
  let limits : Limits := ⟨20, 0, Or.inl rfl⟩
  have failed : (answerLine limits [("h", ⟨#[0xFF]⟩)] "h" ":history" Store.empty).reply = .failed .undecodable := by
    rfl
  rcases claim limits [("h", ⟨#[0xFF]⟩)] "h" ":history" Store.empty with ⟨ok, text, answered⟩ | ⟨left, -⟩
  · rw [failed] at answered
    cases answered
  · rw [failed] at left
    cases left

end Calculator
