/-
Module: Calculator.Help
Purpose: The help texts of a session, by topic. Topics are found in any letter case.
Main exports: Help.text
-/
import Calculator.Text.Case

namespace Calculator.Help

/-- Help on the calculator as a whole. -/
def general : String :=
  "Integer calculator help:\n" ++
  "Evaluates 32-bit integer expressions with + - * / parentheses and variables.\n" ++
  "Variables keep their value for the whole session.\n" ++
  "Examples:\n" ++
  "  x = 12          -> 12\n" ++
  "  x + 1           -> 13\n" ++
  "  a = 1 + b = 2   -> 3 (b is 2, a is 3)\n" ++
  "  7 / -2          -> -3\n" ++
  "Commands:\n" ++
  "  :help, help [topic]    show help (topics: general, operators)\n" ++
  "  :vars                  list variables\n" ++
  "  :history               show recent history\n" ++
  "  :exit, exit            exit\n"

/-- Help on the operators. -/
def operators : String :=
  "Operators and precedence (high -> low):\n" ++
  "  * /        left-assoc, division truncates toward zero\n" ++
  "  + -        binary and unary, left-assoc\n" ++
  "  =          assignment, right-assoc; the target is the variable just before '='\n" ++
  "Notes:\n" ++
  "  - Parentheses group as usual: (12 + 12) * 5 == 120.\n" ++
  "  - Results wrap around on 32-bit overflow.\n" ++
  "  - A literal runs into following letters: '12x' is an error, not 12 * x.\n"

/-- The texts by topic. -/
def topics : List (String × String) :=
  [("general", general), ("operators", operators)]

/-- The help on a topic; without one, or on the empty one, the general help. -/
def text : Option String → String
  | none | some "" => general
  | some topic =>
    match topics.lookup (String.ofList (Text.lower topic.toList)) with
    | some found => found
    | none => s!"No help available for topic '{topic}'"

end Calculator.Help
