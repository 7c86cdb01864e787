/-
Module: Calculator.Settings
Purpose: The settings of a session: the prompt, the history file and the log level. Each field has three
  layers, a default below the environment below explicit overrides, and only the uppermost value that is
  given counts. All fields are checked, so that every problem is reported and not just the first one. Which
  values other than text pass for text is left to the library that checks them, and where the home directories
  are to the system; both are parameters.
Main exports: LogLevel, Field, Given, Layer, TextReader, TextReader.textOnly, Homes, expandHome, Settings,
  Settings.load, Settings.standard
-/
import Calculator.Text.Blank
import Calculator.Text.Case

namespace Calculator

/-! ### Log levels -/

/-- How important a log record is. `notset` as a threshold lets everything through. -/
inductive LogLevel where
  | notset
  | debug
  | info
  | warning
  | error
  | critical
deriving DecidableEq, Repr, Inhabited

namespace LogLevel

/-- The name of a level, as settings and log lines write it. -/
def name : LogLevel → String
  | notset => "NOTSET"
  | debug => "DEBUG"
  | info => "INFO"
  | warning => "WARNING"
  | error => "ERROR"
  | critical => "CRITICAL"

/-- The rank of a level. A record is logged if its rank is at least that of the threshold. -/
def number : LogLevel → Nat
  | notset => 0
  | debug => 10
  | info => 20
  | warning => 30
  | error => 40
  | critical => 50

/-- All levels. -/
def all : List LogLevel :=
  [critical, error, warning, info, debug, notset]

/-- The level with a given name. -/
def ofName? (name : String) : Option LogLevel :=
  all.find? fun level => level.name == name

/-- A level is found by its name. -/
theorem ofName?_name (level : LogLevel) : ofName? level.name = some level := by
  cases level <;> decide

end LogLevel

/-! ### Fields and layers -/

/-- The fields of the settings, in the order in which they are checked. -/
inductive Field where
  | prompt
  | historyFile
  | logLevel
deriving DecidableEq, Repr, Inhabited

namespace Field

/-- The name of a field. -/
def name : Field → String
  | prompt => "prompt"
  | historyFile => "history_file"
  | logLevel => "log_level"

/-- The environment variable of a field. -/
def environmentName : Field → String
  | prompt => "INTCALC_PROMPT"
  | historyFile => "INTCALC_HISTORY_FILE"
  | logLevel => "INTCALC_LOG_LEVEL"

/-- The value of a field that no layer gives. -/
def default : Field → String
  | prompt => "> "
  | historyFile => "~/.intcalc_history"
  | logLevel => "WARNING"

end Field

/-- The variables of an environment. -/
abbrev Environment := List (String × String)

/-- A value given for a field: text, or anything else. -/
inductive Given (α : Type) where
  | text (value : String)
  | other (value : α)
deriving DecidableEq, Repr, Inhabited

/-- The values that one layer gives. -/
abbrev Layer (α : Type) := Field → Option (Given α)

section Layers

variable {α : Type}

namespace Layer

/-- A layer that gives nothing. -/
def nothing : Layer α :=
  fun _ => none

/-- The layer of an environment. -/
def ofEnvironment (environment : Environment) : Layer α :=
  fun field => (environment.lookup field.environmentName).map Given.text

end Layer

/-- The value that counts for a field: an override, else the environment's value, else the default. -/
def effective (environment overrides : Layer α) (field : Field) : Given α :=
  ((overrides field).or (environment field)).getD (.text field.default)

end Layers

/-! ### Problems -/

/-- How the settings library reports a value that does not pass for text: a class of problems, and a wording. -/
structure TextProblem where
  kind : String
  message : String
deriving DecidableEq, Repr, Inhabited

/-- What the settings library takes for text. Text itself it takes as it stands; what it makes of other values is
    up to it. -/
structure TextReader (α : Type) where
  read : Given α → Except TextProblem String
  read_text : ∀ value, read (.text value) = .ok value

/-- The library that takes nothing but text for text. -/
def TextReader.textOnly {α : Type} : TextReader α where
  read
    | .text value => .ok value
    | .other _ => .error ⟨"string_type", "Input should be a valid string"⟩
  read_text _ := rfl

/-- Why a value does not do for its field. -/
inductive SettingProblem where
  | notText (problem : TextProblem)
  | emptyHistoryFile
  | nullInUser
  | unknownLevel (given : String)
deriving DecidableEq, Repr, Inhabited

namespace SettingProblem

/-- The class of a problem: a value of the wrong kind, or text that is refused. -/
def kind : SettingProblem → String
  | notText problem => problem.kind
  | emptyHistoryFile | nullInUser | unknownLevel _ => "value_error"

/-- The wording of a problem. -/
def message : SettingProblem → String
  | notText problem => problem.message
  | emptyHistoryFile => "Value error, History file cannot be empty"
  | nullInUser => "Value error, embedded null byte"
  | unknownLevel given => s!"Value error, Unknown log level: {given}"

end SettingProblem

/-! ### Home directories -/

/-- The home directories that are known: that of the user who runs the program, and those of users by name. -/
structure Homes where
  own : Option String
  ofUser : String → Option String

namespace Homes

/-- One home directory, and no other user. -/
def only (home : String) : Homes :=
  ⟨some home, fun _ => none⟩

/-- The home directory that a tilde with a name behind it means; with no name, the user's own. -/
def of (homes : Homes) (user : List Char) : Option String :=
  if user = [] then homes.own else homes.ofUser (String.ofList user)

end Homes

/-- A home directory without the slashes at its end. -/
def trimSlashes (home : List Char) : List Char :=
  (home.reverse.dropWhile (· = '/')).reverse

/-- A home directory with the rest of a path behind it; if nothing is left of both, it is the root. -/
def inHome (home : String) (rest : List Char) : List Char :=
  match trimSlashes home.toList ++ rest with
  | [] => ['/']
  | path => path

/-- A path with a home directory in place of a leading tilde and the user name behind it, which goes up to the
    first slash. If no such home directory is known, the path stays as it is. A name with a null character cannot
    be looked up. -/
def expandHome (homes : Homes) (path : List Char) : Except SettingProblem (List Char) :=
  match path with
  | '~' :: behind =>
    let user := behind.takeWhile (· ≠ '/')
    if user.contains '\x00' then .error .nullInUser
    else
      match homes.of user with
      | some home => .ok (inHome home (behind.dropWhile (· ≠ '/')))
      | none => .ok path
  | _ => .ok path

/-! ### Checks -/

section Checks

variable {α : Type} (reader : TextReader α)

/-- A field that takes any text. -/
def checkText (given : Given α) : Except SettingProblem String :=
  match reader.read given with
  | .ok text => .ok text
  | .error problem => .error (.notText problem)

/-- A history file must not be blank; blanks around it do not count. -/
def checkHistoryFile (homes : Homes) (given : Given α) : Except SettingProblem String :=
  match checkText reader given with
  | .error problem => .error problem
  | .ok text =>
    match Text.strip text.toList with
    | [] => .error .emptyHistoryFile
    | path => (expandHome homes path).map String.ofList

/-- A log level is given by its name in any letter case; blanks around it do not count. -/
def checkLevel (given : Given α) : Except SettingProblem LogLevel :=
  match checkText reader given with
  | .error problem => .error problem
  | .ok text =>
    match LogLevel.ofName? (String.ofList (Text.upper (Text.strip text.toList))) with
    | some level => .ok level
    | none => .error (.unknownLevel text)

end Checks

/-- The problem of one field, if its check failed. -/
def problemOf {α : Type} (field : Field) : Except SettingProblem α → List (Field × SettingProblem)
  | .ok _ => []
  | .error problem => [(field, problem)]

/-! ### Settings -/

/-- Settings that passed all checks. -/
structure Settings where
  prompt : String
  historyFile : String
  logLevel : LogLevel
deriving DecidableEq, Repr, Inhabited

namespace Settings

/-- The settings that three layers give, or all their problems in the order of the fields. -/
def load {α : Type} (reader : TextReader α) (homes : Homes) (environment overrides : Layer α) :
    Except (List (Field × SettingProblem)) Settings :=
  let prompt := checkText reader (effective environment overrides .prompt)
  let historyFile := checkHistoryFile reader homes (effective environment overrides .historyFile)
  let logLevel := checkLevel reader (effective environment overrides .logLevel)
  match prompt, historyFile, logLevel with
  | .ok prompt, .ok historyFile, .ok logLevel => .ok ⟨prompt, historyFile, logLevel⟩
  | prompt, historyFile, logLevel =>
    .error (problemOf .prompt prompt ++ problemOf .historyFile historyFile ++ problemOf .logLevel logLevel)

/-- The settings of a session for which nothing was given. The default history file lies in the user's own home
    directory, if there is one. -/
def standard (homes : Homes) : Settings :=
  let file := Field.historyFile.default
  ⟨Field.prompt.default,
    match homes.own with
    | some home => String.ofList (inHome home (file.toList.drop 1))
    | none => file,
    .warning⟩

/-- The defaults pass all checks. -/
theorem load_nothing {α : Type} (reader : TextReader α) (homes : Homes) :
    load reader homes Layer.nothing Layer.nothing = .ok (standard homes) := by
  have text : ∀ value, checkText reader (.text value) = .ok value := by
    intro value
    rw [checkText, reader.read_text]
  have strip : Text.strip "~/.intcalc_history".toList = "~/.intcalc_history".toList := by decide
  have level : checkLevel reader (.text "WARNING") = .ok .warning := by
    rw [checkLevel, text]
    rfl
  have file : checkHistoryFile reader homes (.text "~/.intcalc_history") = .ok (standard homes).historyFile := by
    rw [checkHistoryFile, text]
    dsimp only
    rw [strip]
    obtain ⟨own, ofUser⟩ := homes
    cases own <;> rfl
  simp only [load, effective, Layer.nothing, Option.or_none, Option.getD_none, Field.default, text, level, file]
  rfl

end Settings

end Calculator
