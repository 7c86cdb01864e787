/-
Module: Calculator.Text.Quoted
Purpose: Text between quotes, as messages and records show it. Single quotes are used unless the text
  holds a single quote and no double quote; the quote in use and the backslash are escaped, and a character
  that is not printable is written by its code point.
Main exports: Text.quoteFor, Text.escapeChar, Text.quote
-/
import Calculator.Text.Printable

namespace Calculator.Text

/-- The quote put around a text. -/
def quoteFor (text : List Char) : Char :=
  if text.contains '\'' && !text.contains '"' then '"' else '\''

/-- A number in lower-case hexadecimal, filled with zeros up to a width. -/
def hex (width value : Nat) : List Char :=
  let digits := Nat.toDigits 16 value
  List.replicate (width - digits.length) '0' ++ digits

/-- One character between quotes. Tab, line feed and carriage return have short escapes; any other
    character that is not printable takes the shortest of the three hexadecimal forms that holds it. -/
def escapeChar (quote c : Char) : List Char :=
  if c = quote || c = '\\' then ['\\', c]
  else if c = '\t' then ['\\', 't']
  else if c = '\n' then ['\\', 'n']
  else if c = '\r' then ['\\', 'r']
  else if isPrintable c then [c]
  else if c.toNat < 0x100 then '\\' :: 'x' :: hex 2 c.toNat
  else if c.toNat < 0x10000 then '\\' :: 'u' :: hex 4 c.toNat
  else '\\' :: 'U' :: hex 8 c.toNat

/-- A text between quotes, character by character. -/
def quoteChars (text : List Char) : List Char :=
  quoteFor text :: (text.flatMap (escapeChar (quoteFor text)) ++ [quoteFor text])

/-- A text between quotes. -/
def quote (text : String) : String :=
  String.ofList (quoteChars text.toList)

/-- A printable character other than the backslash and the quote in use stands for itself. -/
theorem escapeChar_of_isPrintable {quote c : Char} (printable : isPrintable c = true)
    (notQuote : c ≠ quote) (notBackslash : c ≠ '\\') : escapeChar quote c = [c] := by
  have notTab : c ≠ '\t' := by
    rintro rfl
    exact absurd printable (by decide)
  have notLineFeed : c ≠ '\n' := by
    rintro rfl
    exact absurd printable (by decide)
  have notReturn : c ≠ '\r' := by
    rintro rfl
    exact absurd printable (by decide)
  simp [escapeChar, printable, notQuote, notBackslash, notTab, notLineFeed, notReturn]

end Calculator.Text
