/-
Module: Calculator.Session.Command
Purpose: The lines of a session that are no expressions: a line that starts with a colon, the words `exit`
  and `quit` alone, and the word `help`, alone or before a topic, in any letter case.
Main exports: Command, Command.ofLine?
-/
import Calculator.Text.Blank
import Calculator.Text.Case

namespace Calculator

/-- What a line can ask of a session. -/
inductive Command where
  | leave
  | missing
  | help (topic : Option String)
  | vars
  | history
  | unknown (word : String)
deriving DecidableEq, Repr, Inhabited

namespace Command

/-- The words that end a session. -/
def exitWords : List String :=
  ["exit", "quit"]

/-- The command that the words after a colon are. Only its first word is looked at in lower case, and only
    the first argument of `help` counts. -/
def ofWords : List (List Char) → Command
  | [] => missing
  | word :: arguments =>
    let name := String.ofList (Text.lower word)
    if name ∈ exitWords then leave
    else if name = "help" then help (arguments.head?.map String.ofList)
    else if name = "vars" then vars
    else if name = "history" then history
    else unknown (String.ofList word)

/-- Whether a line, blanks around it removed, is the word `help` or starts with it and a space. -/
def asksForHelp (line : List Char) : Bool :=
  Text.lower line = "help".toList || "help ".toList.isPrefixOf (Text.lower line)

/-- The topic of a line that asks for help: all of it after the first word. -/
def helpTopic? (line : List Char) : Option String :=
  match Text.firstWord? line with
  | some (_, c :: rest) => some (String.ofList (Text.strip (c :: rest)))
  | _ => none

/-- The command that a line is, if it is one. -/
def ofLine? (line : String) : Option Command :=
  let line := Text.strip line.toList
  if String.ofList line ∈ exitWords then some leave
  else
    match line with
    | ':' :: body => some (ofWords (Text.words body))
    | _ => if asksForHelp line then some (help (helpTopic? line)) else none

end Command

end Calculator
