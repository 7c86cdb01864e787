/-
Module: Calculator.Session
Purpose: What a session makes of one line. A command is answered from the store and the history; any other
  line is evaluated as it stands, blanks included, and leaves log records. A command never changes the store. An
  answer that holds an integer too long to be written out fails.
Main exports: LogRecord, Reply, LineOutcome, listVariables, Command.reply, replyTo, answerLine, answerLines
-/
import Calculator.Eval
import Calculator.Help
import Calculator.History
import Calculator.Session.Command
import Calculator.Settings

namespace Calculator

/-- Something worth noting besides the answers. -/
structure LogRecord where
  level : LogLevel
  text : String
deriving DecidableEq, Repr, Inhabited

/-- What a session replies to a line: an answer, which may be the report of a mistake, its end, or nothing
    because of a failure. -/
inductive Reply where
  | answer (ok : Bool) (text : String)
  | leave
  | failed (failure : Failure)
deriving DecidableEq, Repr, Inhabited

/-- The reply that shows a text, or is missing because there is none. -/
def Reply.showing : Except Failure String → Reply
  | .ok text => answer true text
  | .error failure => failed failure

/-- A reply, the store left behind, and the records made. -/
structure LineOutcome where
  reply : Reply
  store : Store
  log : List LogRecord

/-- The list of all variables with their values, sorted by name, if the values can be written out. -/
def listVariables (limits : Limits) (store : Store) : Except Failure String :=
  match store.items with
  | [] => .ok "(no variables)"
  | items => (limits.writeEntries (fun name written => s!"{name} = {written}") items).map "\n".intercalate

/-- The reply to a command. -/
def Command.reply (limits : Limits) (files : Files) (historyFile : String) (store : Store) : Command → Reply
  | leave => .leave
  | missing => .answer true "No command specified. Use :help for available commands."
  | help topic => .answer true (Help.text topic)
  | vars => .showing (listVariables limits store)
  | history => .showing (History.answer files historyFile)
  | unknown word => .answer true s!"Unknown command: {word}"

/-- The reply to an evaluated line. -/
def replyTo (limits : Limits) : Except EvalError Int → Reply
  | .ok value => .showing (limits.write value)
  | .error error => .answer false s!"Error: {error.message}"

/-- A value is answered in decimal form. -/
theorem replyTo_ok_of_canWrite {limits : Limits} {value : Int} (fits : limits.CanWrite value) :
    replyTo limits (.ok value) = .answer true (toString value) := by
  rw [replyTo, Limits.write_of_canWrite fits, Reply.showing]

/-- A value that is too long has no answer. -/
theorem replyTo_ok_of_not_canWrite {limits : Limits} {value : Int} (tooLong : ¬limits.CanWrite value) :
    replyTo limits (.ok value) = .failed .tooManyDigits := by
  rw [replyTo, Limits.write_eq_error_iff.mpr ⟨tooLong, rfl⟩, Reply.showing]

/-- What is noted about an evaluated line: that it is evaluated, and why it failed. -/
def recordsOf (line : String) (result : Except EvalError Int) : List LogRecord :=
  let shown := Text.quote line
  ⟨.debug, s!"Evaluating {shown}"⟩ ::
    match result with
    | .ok _ => []
    | .error .nestedTooDeeply => [⟨.info, s!"Evaluation of {shown} exceeded the recursion limit"⟩]
    | .error error => [⟨.info, s!"Evaluation of {shown} failed: {error.message}"⟩]

/-- What a session makes of one line. -/
def answerLine (limits : Limits) (files : Files) (historyFile : String) (line : String) (store : Store) :
    LineOutcome :=
  match Command.ofLine? line with
  | some command => ⟨command.reply limits files historyFile store, store, []⟩
  | none =>
    let outcome := evaluate limits.nesting line store
    ⟨replyTo limits outcome.result, outcome.store, recordsOf line outcome.result⟩

/-- What a session makes of lines one after the other. It goes on after every reply. -/
def answerLines (limits : Limits) (files : Files) (historyFile : String) : List String → Store → List LineOutcome
  | [], _ => []
  | line :: rest, store =>
    let outcome := answerLine limits files historyFile line store
    outcome :: answerLines limits files historyFile rest outcome.store

end Calculator
