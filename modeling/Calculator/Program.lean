/-
Module: Calculator.Program
Purpose: A whole run of the program: the command line is read, the settings are checked, and then either
  the given expressions are calculated or a conversation is held. What a run shows goes to two streams, and
  log records go to the second one if their level reaches the threshold. What is not settled by the program
  itself is a parameter, its `Machine`: the limits it works under, and the libraries and the system below it.
Main exports: Surroundings, Loading, Machine, Event.ofKeys, Program.Task, Program.Plan, Program.plan, Program.run,
  Output.stdout, Output.stderr, LogRecord.render
-/
import Calculator.Console

namespace Calculator

/-- What a run finds around it: the variables of its environment and the files of its directory. -/
structure Surroundings where
  environment : Environment
  files : Files

/-- What is made of the environment before the settings are looked up: lines for the second stream, and the
    environment that the run has from then on, unless it breaks off here. -/
structure Loading where
  notices : List String
  environment : Except Failure Environment

/-- What a run relies on and does not bring along: the limits it works under, the dialect of the command line, the
    library that checks settings, the home directories that the system knows, the library that adds variables from a
    file to the environment, and the prompt, of which it counts what the keys pressed so far have put into the files,
    given the history file. -/
structure Machine where
  limits : Limits
  dialect : Dialect
  reader : TextReader Unit
  homes : Homes
  loadEnvironment : Environment → Files → Loading
  recorded : String → Files → List Key → Files

/-- The home directories for an environment. A variable for the user's own comes before what the system knows. -/
def Homes.within (homes : Homes) (environment : Environment) : Homes :=
  { homes with own := (environment.lookup "HOME").or homes.own }

/-- The events that keys are, each with the files that the keys up to it have led to. -/
def Event.ofKeys (recorded : List Key → Files) (before : List Key) : List Key → List Event
  | [] => []
  | key :: rest => ⟨key, recorded (before ++ [key])⟩ :: ofKeys recorded (before ++ [key]) rest

/-- One line of the log. -/
def LogRecord.render (time logger : String) (record : LogRecord) : String :=
  s!"{time} - {logger} - {record.level.name} - {record.text}"

namespace Output

/-- The line that an output puts on the first stream, if any. -/
def stdout : Output → Option String
  | shown line => some line
  | _ => none

/-- The line that an output puts on the second stream, if any. -/
def stderr (time logger : String) : Output → Option String
  | complaint line => some line
  | logged record => some (record.render time logger)
  | _ => none

/-- Whether a threshold lets an output through. Only log records can be held back. -/
def reaches (threshold : LogLevel) : Output → Bool
  | logged record => threshold.number ≤ record.level.number
  | _ => true

end Output

/-- A transcript without the log records below a threshold. -/
def Transcript.loggedFrom (transcript : Transcript) (threshold : LogLevel) : Transcript :=
  { transcript with outputs := transcript.outputs.filter (·.reaches threshold) }

namespace Program

/-- The short reminder of the command line. -/
def usage : String :=
  "usage: intcalc [-h] [-e EXPR] [--history-file HISTORY_FILE]\n" ++
  "               [--log-level LOG_LEVEL] [--prompt PROMPT]"

/-- The full description of the command line. -/
def manual : String :=
  usage ++ "\n" ++
  "\n" ++
  "Evaluate integer expressions.\n" ++
  "\n" ++
  "options:\n" ++
  "  -h, --help            show this help message and exit\n" ++
  "  -e EXPR, --expr EXPR  Expression to evaluate instead of starting the REPL\n" ++
  "                        (repeatable, shares variables).\n" ++
  "  --history-file HISTORY_FILE\n" ++
  "                        File for REPL history (default: ~/.intcalc_history or\n" ++
  "                        INTCALC_HISTORY_FILE).\n" ++
  "  --log-level LOG_LEVEL\n" ++
  "                        Logging level (default: WARNING or INTCALC_LOG_LEVEL).\n" ++
  "  --prompt PROMPT       REPL prompt (default: '> ' or INTCALC_PROMPT)."

/-- The report of settings that failed their checks. -/
def settingsReport (problems : List (Field × SettingProblem)) : String :=
  match problems.length with
  | 1 => "Invalid settings: 1 validation error for Settings"
  | count => s!"Invalid settings: {count} validation errors for Settings"

/-- The layer of the command line. -/
def overridesOf (arguments : Arguments) : Layer Unit
  | .prompt => arguments.prompt
  | .historyFile => arguments.historyFile
  | .logLevel => arguments.logLevel

/-- The settings of a run, from the command line and the environment. -/
def settingsFor (machine : Machine) (environment : Environment) (arguments : Arguments) :
    Except (List (Field × SettingProblem)) Settings :=
  Settings.load machine.reader (machine.homes.within environment) (Layer.ofEnvironment environment)
    (overridesOf arguments)

/-- The main business of a run: to stop with some last outputs, to calculate given expressions, or to
    converse. -/
inductive Task where
  | stop (ending : Ending) (outputs : List Output)
  | calculate (threshold : LogLevel) (historyFile : String) (exprs : List Operand)
  | converse (settings : Settings)
deriving Repr, Inhabited

/-- What a run is going to do: show what has been noticed so far, and then see to its task. -/
structure Plan where
  notices : List Output
  task : Task
deriving Repr, Inhabited

/-- The history file of a session for which no settings are given. -/
def standardHistory (machine : Machine) (environment : Environment) : String :=
  (Settings.standard (machine.homes.within environment)).historyFile

/-- The task for valid settings. In one-shot mode the history is looked up in the standard place, whatever
    the settings say. -/
def taskWith (machine : Machine) (settings : Settings) (environment : Environment) (arguments : Arguments) : Task :=
  match arguments.exprs with
  | [] => .converse settings
  | exprs => .calculate settings.logLevel (standardHistory machine environment) exprs

/-- The task that an environment and the command line set. -/
def taskFor (machine : Machine) (environment : Environment) (arguments : Arguments) : Task :=
  match settingsFor machine environment arguments with
  | .error problems => .stop (.exit 2) [.complaint (settingsReport problems)]
  | .ok settings => taskWith machine settings environment arguments

/-- The plan for a command line that asks for a run. -/
def planFor (machine : Machine) (surroundings : Surroundings) (arguments : Arguments) : Plan :=
  let loading := machine.loadEnvironment surroundings.environment surroundings.files
  let notices := loading.notices.map Output.complaint
  match loading.environment with
  | .error failure => ⟨notices, .stop (.failed failure) []⟩
  | .ok environment => ⟨notices, taskFor machine environment arguments⟩

/-- The plan that the surroundings and the command line make. -/
def plan (machine : Machine) (surroundings : Surroundings) (arguments : List String) : Plan :=
  match Arguments.parse machine.dialect arguments with
  | .error problem =>
    ⟨[], .stop (.exit 2) [.complaint usage, .complaint s!"intcalc: error: {problem.message}"]⟩
  | .ok .help => ⟨[], .stop (.exit 0) [.shown manual]⟩
  | .ok (.run arguments) => planFor machine surroundings arguments

/-- What a run shows when it sees to a task on a store without variables. -/
def carryOut (machine : Machine) (files : Files) (keys : List Key) : Task → Transcript
  | .stop ending outputs => ⟨outputs, ending, Store.empty⟩
  | .calculate threshold historyFile exprs =>
    (Console.calculate machine.limits files historyFile 0 Store.empty exprs).loggedFrom threshold
  | .converse settings =>
    let events := Event.ofKeys (machine.recorded settings.historyFile files) [] keys
    (Console.converse machine.limits settings Store.empty events).loggedFrom settings.logLevel

/-- A whole run: the arguments it is given, and the keys pressed at its prompts. -/
def run (machine : Machine) (surroundings : Surroundings) (arguments : List String) (keys : List Key) :
    Transcript :=
  let plan := plan machine surroundings arguments
  (carryOut machine surroundings.files keys plan.task).after plan.notices

end Program

end Calculator
