/-
Module: Calculator.Arguments
Purpose: The command line. Options may be abbreviated as far as one long spelling is meant, and a value may
  follow its option, be glued to the short spelling, or stand behind an equals sign. All arguments are
  classified before any of them takes effect, so an ambiguous one is reported first. What may be attached to an
  option has changed in the course of time, and so there are two dialects.
Main exports: Flag, Operand, Arguments, UsageError, Invocation, Dialect, Arguments.classify, Arguments.parse
-/
import Calculator.Settings
import Calculator.Text.Digit
import Calculator.Text.Quoted

namespace Calculator

/-- The options of the program. -/
inductive Flag where
  | help
  | expr
  | historyFile
  | logLevel
  | prompt
deriving DecidableEq, Repr, Inhabited

namespace Flag

/-- All spellings of options, in the order in which they are listed. -/
def spellings : List (List Char × Flag) :=
  [("-h".toList, help), ("--help".toList, help), ("-e".toList, expr), ("--expr".toList, expr),
    ("--history-file".toList, historyFile), ("--log-level".toList, logLevel),
    ("--prompt".toList, prompt)]

/-- The option with a given spelling. -/
def ofSpelling? (spelling : List Char) : Option Flag :=
  spellings.lookup spelling

/-- Whether a spelling is a long one, which starts with two dashes. -/
def isLong (spelling : List Char) : Bool :=
  spelling.take 2 = ['-', '-']

/-- How messages call an option: all its spellings. -/
def shown (flag : Flag) : String :=
  "/".intercalate ((spellings.filter fun entry => entry.2 = flag).map fun entry => String.ofList entry.1)

end Flag

/-- A value from the command line. The one that is no text is an empty list, which is all that the former dialect
    leaves of a double dash attached to an option. -/
abbrev Operand := Given Unit

/-- What the command line asks for. -/
structure Arguments where
  exprs : List Operand
  historyFile : Option Operand
  logLevel : Option Operand
  prompt : Option Operand
deriving DecidableEq, Repr, Inhabited

/-- What is wrong with a command line. -/
inductive UsageError where
  | ambiguous (argument : String) (candidates : List (List Char))
  | expectedValue (flag : Flag)
  | ignoredValue (flag : Flag) (value : List Char)
  | unrecognized (arguments : List String)
deriving DecidableEq, Repr, Inhabited

namespace UsageError

/-- The wording of an error. -/
def message : UsageError → String
  | ambiguous argument candidates =>
    s!"ambiguous option: {argument} could match " ++ ", ".intercalate (candidates.map String.ofList)
  | expectedValue flag => s!"argument {flag.shown}: expected one argument"
  | ignoredValue flag value =>
    s!"argument {flag.shown}: ignored explicit argument " ++ Text.quote (String.ofList value)
  | unrecognized arguments => "unrecognized arguments: " ++ " ".intercalate arguments

end UsageError

/-- What a command line means: a request for help, or a run. -/
inductive Invocation where
  | help
  | run (arguments : Arguments)
deriving DecidableEq, Repr, Inhabited

/-- The two ways of reading what is attached to an option. The former one drops a double dash there, and refuses
    text glued to the help option unless it names further options. The current one takes the double dash for text,
    and shows the help whatever is glued to the option, but for text that starts with a dash or an equals sign. -/
inductive Dialect where
  | former
  | current
deriving DecidableEq, Repr, Inhabited

/-- What stands in the same argument as an option: nothing, or a value that is glued to a short spelling, or that
    stands behind a short or a long spelling and an equals sign. -/
inductive Attached where
  | nothing
  | glued (value : List Char)
  | assignedShort (value : List Char)
  | assignedLong (value : List Char)
deriving DecidableEq, Repr, Inhabited

/-- The value that is attached to an option. -/
def Attached.value? : Attached → Option (List Char)
  | nothing => none
  | glued value | assignedShort value | assignedLong value => some value

/-- What an argument is taken for. `separator` is the first double dash; whatever follows it is a value. -/
inductive ArgumentKind where
  | value
  | separator
  | unknown
  | option (flag : Flag) (attached : Attached)
deriving DecidableEq, Repr, Inhabited

namespace Arguments

/-- No options. -/
def none : Arguments :=
  ⟨[], .none, .none, .none⟩

/-- Take a value for an option. Expressions add up; of any other option the last value counts. -/
def take (arguments : Arguments) (flag : Flag) (value : Operand) : Arguments :=
  match flag with
  | .help => arguments
  | .expr => { arguments with exprs := arguments.exprs ++ [value] }
  | .historyFile => { arguments with historyFile := some value }
  | .logLevel => { arguments with logLevel := some value }
  | .prompt => { arguments with prompt := some value }

/-! ### Classification -/

/-- The part of an argument before its first equals sign, and the text behind it. -/
def splitAssigned (argument : List Char) : List Char × Option (List Char) :=
  match argument.dropWhile (· ≠ '=') with
  | _ :: value => (argument.takeWhile (· ≠ '='), some value)
  | [] => (argument, .none)

/-- What the text behind an equals sign is to a spelling before it. -/
def attachedTo (spelling : List Char) : Option (List Char) → Attached
  | .none => .nothing
  | some value => if Flag.isLong spelling then .assignedLong value else .assignedShort value

/-- Digits, at least one. -/
def isNumeral (text : List Char) : Bool :=
  text ≠ [] && text.all Text.isDecimalDigit

/-- A dash and a decimal number, with or without a fraction. One line feed may follow. -/
def isNegativeNumber (argument : List Char) : Bool :=
  match argument with
  | '-' :: rest =>
    let number := if rest.getLast? = some '\n' then rest.dropLast else rest
    isNumeral number ||
      match number.span Text.isDecimalDigit with
      | (_, '.' :: fraction) => isNumeral fraction
      | _ => false
  | _ => false

/-- The options that an argument may abbreviate. With two dashes it is a start of a long spelling; with one
    it is a short spelling with its value glued on. -/
def candidates (argument : List Char) : List (List Char × Flag × Attached) :=
  if Flag.isLong argument then
    let (spelling, value) := splitAssigned argument
    (Flag.spellings.filter fun entry => spelling.isPrefixOf entry.1).map fun (found, flag) =>
      (found, flag, attachedTo spelling value)
  else
    (Flag.spellings.filter fun entry => entry.1 = argument.take 2).map fun (found, flag) =>
      (found, flag, .glued (argument.drop 2))

/-- The kind of an argument that no exact spelling decides. -/
def classifyOther (argument : List Char) : Except UsageError ArgumentKind :=
  match candidates argument with
  | [(_, flag, attached)] => .ok (.option flag attached)
  | first :: second :: more =>
    .error (.ambiguous (String.ofList argument) ((first :: second :: more).map Prod.fst))
  | [] => .ok (if isNegativeNumber argument || argument.contains ' ' then .value else .unknown)

/-- The kind of an argument before any double dash. -/
def classify (argument : List Char) : Except UsageError ArgumentKind :=
  if argument.head? ≠ some '-' then .ok .value
  else
    match Flag.ofSpelling? argument with
    | some flag => .ok (.option flag .nothing)
    | .none =>
      if argument = ['-'] then .ok .value
      else
        let (spelling, value) := splitAssigned argument
        match Flag.ofSpelling? spelling with
        | some flag => .ok (.option flag (attachedTo spelling value))
        | .none => classifyOther argument

/-- The kinds of all arguments. -/
def classifyAll : List String → Except UsageError (List (String × ArgumentKind))
  | [] => .ok []
  | argument :: rest =>
    if argument = "--" then .ok ((argument, .separator) :: rest.map fun value => (value, .value))
    else
      match classify argument.toList with
      | .error problem => .error problem
      | .ok kind =>
        match classifyAll rest with
        | .error problem => .error problem
        | .ok kinds => .ok ((argument, kind) :: kinds)

/-! ### Effects -/

/-- Whether the next argument can be the value of an option. -/
def valueFollows : List (String × ArgumentKind) → Bool
  | (_, .value) :: _ => true
  | _ => false

/-- A value in the same argument as its option. -/
def attachedValue (dialect : Dialect) (value : List Char) : Operand :=
  if dialect = .former && value = ['-', '-'] then .other () else .text (String.ofList value)

/-- Short options may share a dash: what is glued to the help option is read as further ones, until one takes the
    rest as its value. Only an error keeps the help from being shown then. In the current dialect a character that
    is no option ends the reading, and what stands behind an equals sign is `assigned` and names no option. -/
def helpWith (dialect : Dialect) (rest : List (String × ArgumentKind)) (assigned : Bool) :
    List Char → Except UsageError Invocation
  | [] => if assigned then .error (.ignoredValue .help []) else .ok .help
  | c :: glued =>
    if dialect = .current && !assigned && c = '=' then helpWith dialect rest true glued
    else if dialect = .current && (assigned || c = '-') then .error (.ignoredValue .help (c :: glued))
    else
      match Flag.ofSpelling? ['-', c] with
      | .none => if dialect = .current then .ok .help else .error (.ignoredValue .help (c :: glued))
      | some .help => helpWith dialect rest false glued
      | some flag => if glued = [] && !valueFollows rest then .error (.expectedValue flag) else .ok .help

/-- Go through the classified arguments. `extras` are those that no option takes. -/
def consume (dialect : Dialect) (taken : Arguments) (extras : List String) :
    List (String × ArgumentKind) → Except UsageError Invocation
  | [] => if extras = [] then .ok (.run taken) else .error (.unrecognized extras)
  | (_, .option .help attached) :: rest =>
    match attached with
    | .nothing => .ok .help
    | .glued value => helpWith dialect rest false value
    | .assignedShort value => helpWith dialect rest true value
    | .assignedLong value => .error (.ignoredValue .help value)
  | (_, .option flag .nothing) :: (value, .value) :: rest =>
    consume dialect (taken.take flag (.text value)) extras rest
  | (_, .option flag attached) :: rest =>
    match attached.value? with
    | some value => consume dialect (taken.take flag (attachedValue dialect value)) extras rest
    | .none => .error (.expectedValue flag)
  | (argument, _) :: rest => consume dialect taken (extras ++ [argument]) rest

/-- What a command line means. -/
def parse (dialect : Dialect) (arguments : List String) : Except UsageError Invocation :=
  match classifyAll arguments with
  | .ok kinds => consume dialect none [] kinds
  | .error problem => .error problem

end Arguments

end Calculator
