/-
Module: Calculator.History
Purpose: The history file of a session. It holds the entries that were typed, each line of one marked by a
  plus sign; other lines are notes. Only UTF-8 can be read.
Main exports: History.entries, History.recent, History.render, History.answer
-/
import Calculator.Failure
import Calculator.Files
import Calculator.Text.Lines

namespace Calculator

namespace History

/-- How many entries are shown. -/
def shownEntries : Nat := 50

/-- The lines of a history file that hold what was typed, without their mark. -/
def entries (text : List Char) : List (List Char) :=
  (Text.lines text).filterMap fun line =>
    match line with
    | '+' :: entry => some entry
    | _ => none

/-- The last entries, oldest first. -/
def recent (text : List Char) : List (List Char) :=
  let found := entries text
  found.drop (found.length - shownEntries)

/-- The text that shows some entries. -/
def render : List (List Char) → String
  | [] => "(no history)"
  | entries => String.ofList (['\n'].intercalate entries)

/-- The answer that shows the recent history in a file, or says why the file cannot be opened. A path with
    a null character is none, and bytes that are no text have no answer. -/
def answer (files : Files) (path : String) : Except Failure String :=
  if path.toList.contains '\x00' then .error .unusable
  else
    match files.read path with
    | .error problem => .ok s!"Could not read history: {problem.message path}"
    | .ok bytes =>
      match String.fromUTF8? bytes with
      | some text => .ok (render (recent text.toList))
      | none => .error .undecodable

end History

end Calculator
