/-
Module: Calculator.Main
Purpose: The program at a terminal. It looks up the variables that a run may need, follows the plan that they and the
  command line make, passes what is shown on to the standard streams, and puts the lines that are typed into the
  history file. Two parts of its `Machine` are empty here: no file adds to the environment, and the only home
  directory that is known is the one that a variable tells.
Main exports: main
-/
import Calculator.Program

namespace Calculator.Terminal

/-- The environment variables that every run looks at. -/
def variableNames : List String :=
  "HOME" :: [Field.prompt, Field.historyFile, Field.logLevel].map Field.environmentName

/-- The variables of this process that have one of the given names. -/
def variablesNamed (names : List String) : IO Environment := do
  let values ← names.mapM fun name => return (← IO.getEnv name).map fun value => (name, value)
  return values.filterMap id

/-- The file at a path, if it can be read. -/
def fileAt (path : String) : IO Files := do
  try
    return [(path, ← IO.FS.readBinFile path)]
  catch _ =>
    return []

/-- What a run at the terminal relies on. The files are looked at when they are needed, so that nothing has to be
    counted of what is typed. -/
def machine : Machine where
  limits := ⟨988, 4300, by decide⟩
  dialect := .current
  reader := .textOnly
  homes := ⟨none, fun _ => none⟩
  loadEnvironment environment _ := ⟨[], .ok environment⟩
  recorded _ files _ := files

/-- Pass one output on. Log lines tell the milliseconds of a clock. -/
def put (output : Output) : IO Unit := do
  if let some line := output.stdout then
    IO.println line
  if let some line := output.stderr (toString (← IO.monoMsNow)) "calculator" then
    IO.eprintln line
  if let .prompted prompt _ := output then
    IO.print prompt
    (← IO.getStdout).flush

/-- Pass on the outputs that reach a threshold. -/
def putAll (threshold : LogLevel) (outputs : List Output) : IO Unit :=
  (outputs.filter (·.reaches threshold)).forM put

/-- The exit status of an ending. -/
def statusOf : Ending → UInt32
  | .exit status => UInt32.ofNat status
  | .failed _ => 1

/-- The next key at the prompt. -/
def nextKey : IO Key := do
  let line ← (← IO.getStdin).getLine
  if line.isEmpty then return .endOfInput
  let typed := line.toList
  return .line (String.ofList (if typed.getLast? = some '\n' then typed.dropLast else typed))

/-- Put a line into the history file, as an entry of its own below a note of the time. Empty lines are left out, and
    so is a line that repeats the one before it. -/
def remember (historyFile : String) (last : Option String) : Key → IO (Option String)
  | .line text => do
    if text.isEmpty || last = some text then return last
    try
      IO.FS.withFile historyFile .append fun handle => do
        handle.putStr s!"\n# {← IO.monoMsNow}\n+{text}\n"
    catch _ => pure ()
    return some text
  | _ => return last

/-- Turn after turn of a conversation. -/
partial def talk (settings : Settings) (store : Store) (last : Option String) : IO UInt32 := do
  putAll settings.logLevel [Console.promptWith settings store]
  let key ← nextKey
  let last ← remember settings.historyFile last key
  let event : Event := ⟨key, ← fileAt settings.historyFile⟩
  let (outputs, next) := Console.step machine.limits settings.historyFile store event
  putAll settings.logLevel outputs
  match next with
  | .again store => talk settings store last
  | .over ending _ => return statusOf ending

/-- See to a task. -/
def carryOut : Program.Task → IO UInt32
  | .stop ending outputs => do
    putAll .notset outputs
    return statusOf ending
  | .calculate threshold historyFile exprs => do
    let files ← fileAt historyFile
    let transcript := Console.calculate machine.limits files historyFile 0 Store.empty exprs
    putAll threshold transcript.outputs
    return statusOf transcript.ending
  | .converse settings => do
    putAll settings.logLevel [.shown Console.banner]
    talk settings Store.empty none

end Calculator.Terminal

/-- The program. -/
def main (arguments : List String) : IO UInt32 := do
  let environment ← Calculator.Terminal.variablesNamed Calculator.Terminal.variableNames
  let plan := Calculator.Program.plan Calculator.Terminal.machine ⟨environment, []⟩ arguments
  Calculator.Terminal.putAll .notset plan.notices
  Calculator.Terminal.carryOut plan.task
