/-
Module: Calculator.Console
Purpose: The two ways of using the calculator from a terminal. In a conversation each line that is typed is
  answered until the input ends or a line asks to leave; in one-shot mode the lines are given beforehand, and
  failures go to a stream of their own and decide the exit status. While a conversation goes on, what is typed may
  be recorded in the history file, so each key comes with the files as they are then.
Main exports: Output, Ending, Transcript, Key, Event, Console.step, Console.turns, Console.converse,
  Console.calculate
-/
import Calculator.Arguments
import Calculator.Session

namespace Calculator

/-- Something that the program lets its surroundings see. -/
inductive Output where
  | shown (line : String)
  | complaint (line : String)
  | logged (record : LogRecord)
  | openedHistory (file : String)
  | prompted (prompt : String) (completions : List String)
deriving DecidableEq, Repr, Inhabited

/-- How a run ends: with an exit status, or by a failure. -/
inductive Ending where
  | exit (status : Nat)
  | failed (failure : Failure)
deriving DecidableEq, Repr, Inhabited

/-- All that a run showed, in order, how it ended, and the variables at its end. -/
structure Transcript where
  outputs : List Output
  ending : Ending
  store : Store

namespace Transcript

/-- A transcript with outputs put before it. -/
def after (outputs : List Output) (transcript : Transcript) : Transcript :=
  { transcript with outputs := outputs ++ transcript.outputs }

end Transcript

/-- What a user can do at a prompt. -/
inductive Key where
  | line (text : String)
  | interrupt
  | endOfInput
deriving DecidableEq, Repr, Inhabited

/-- A key at the prompt, and the files as they are once it is pressed. Whoever shows the prompt may write to them,
    and so may anyone else. -/
structure Event where
  key : Key
  files : Files

namespace Console

/-- The first line of a conversation. -/
def banner : String :=
  "Integer calculator. Type :help for help. Ctrl-D or exit to quit."

/-- The last line of a conversation. -/
def farewell : String :=
  "Goodbye!"

/-- What a conversation does after a key: go on with a store, or end. -/
inductive Next where
  | again (store : Store)
  | over (ending : Ending) (store : Store)

/-- One turn of a conversation: what a key at the prompt leads to. -/
def step (limits : Limits) (historyFile : String) (store : Store) (event : Event) : List Output × Next :=
  match event.key with
  | .interrupt => ([.shown "^C"], .again store)
  | .endOfInput => ([.shown farewell], .over (.exit 0) store)
  | .line text =>
    if Text.isBlankText text then ([], .again store)
    else
      let outcome := answerLine limits event.files historyFile text store
      let records := outcome.log.map Output.logged
      match outcome.reply with
      | .answer _ answer => (records ++ [.shown answer], .again outcome.store)
      | .leave => (records ++ [.shown farewell], .over (.exit 0) outcome.store)
      | .failed failure => (records, .over (.failed failure) outcome.store)

/-- The prompt, with the names of all variables for completion. -/
def promptWith (settings : Settings) (store : Store) : Output :=
  .prompted settings.prompt store.names

/-- The turns of a conversation; after the last event the input ends. -/
def turns (limits : Limits) (settings : Settings) (store : Store) : List Event → Transcript
  | [] => ⟨[promptWith settings store, .shown farewell], .exit 0, store⟩
  | event :: rest =>
    let (outputs, next) := step limits settings.historyFile store event
    let outputs := promptWith settings store :: outputs
    match next with
    | .again store => (turns limits settings store rest).after outputs
    | .over ending store => ⟨outputs, ending, store⟩

/-- A whole conversation, from the banner to the farewell. -/
def converse (limits : Limits) (settings : Settings) (store : Store) (events : List Event) : Transcript :=
  (turns limits settings store events).after [.shown banner, .openedHistory settings.historyFile]

/-- Where an answer goes in one-shot mode. -/
def sortAnswer (ok : Bool) (text : String) : Output :=
  if ok then .shown text else .complaint text

/-- Answer lines that were given beforehand, up to the first that asks to leave. Once a line has failed, the
    exit status is 1. -/
def calculate (limits : Limits) (files : Files) (historyFile : String) (status : Nat) (store : Store) :
    List Operand → Transcript
  | [] => ⟨[], .exit status, store⟩
  | .other _ :: _ => ⟨[], .failed .notText, store⟩
  | .text line :: rest =>
    let outcome := answerLine limits files historyFile line store
    let records := outcome.log.map Output.logged
    match outcome.reply with
    | .answer ok text =>
      (calculate limits files historyFile (if ok then status else 1) outcome.store rest).after
        (records ++ [sortAnswer ok text])
    | .leave => ⟨records, .exit status, outcome.store⟩
    | .failed failure => ⟨records, .failed failure, outcome.store⟩

end Console

end Calculator
