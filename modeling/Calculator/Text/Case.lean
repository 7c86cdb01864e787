/-
Module: Calculator.Text.Case
Purpose: Letter case, as far as a comparison with a word of ASCII letters can see it. The mappings are
  Unicode's full ones, which may turn one character into several, restricted to the characters whose image
  holds an ASCII letter. Every other character stands for itself: neither it nor its image is ASCII, so no
  comparison with an ASCII word notices the difference.
Main exports: Text.lower, Text.upper
-/

namespace Calculator.Text

/-- The lower-case form of a character. Apart from A to Z, only the dotted capital I and the Kelvin sign
    have an ASCII letter in theirs. -/
def lowerChar (c : Char) : List Char :=
  if c = '\u0130' then ['i', '\u0307']
  else if c = '\u212A' then ['k']
  else [c.toLower]

/-- The characters outside ASCII whose upper-case form holds an ASCII letter, with that form. -/
def upperExpansions : List (Char × List Char) :=
  [('\u00DF', ['S', 'S']), ('\u0131', ['I']), ('\u0149', ['\u02BC', 'N']), ('\u017F', ['S']),
    ('\u01F0', ['J', '\u030C']), ('\u1E96', ['H', '\u0331']), ('\u1E97', ['T', '\u0308']),
    ('\u1E98', ['W', '\u030A']), ('\u1E99', ['Y', '\u030A']), ('\u1E9A', ['A', '\u02BE']),
    ('\uFB00', ['F', 'F']), ('\uFB01', ['F', 'I']), ('\uFB02', ['F', 'L']),
    ('\uFB03', ['F', 'F', 'I']), ('\uFB04', ['F', 'F', 'L']), ('\uFB05', ['S', 'T']),
    ('\uFB06', ['S', 'T'])]

/-- The upper-case form of a character. -/
def upperChar (c : Char) : List Char :=
  (upperExpansions.lookup c).getD [c.toUpper]

/-- A text in lower case. -/
def lower (text : List Char) : List Char :=
  text.flatMap lowerChar

/-- A text in upper case. -/
def upper (text : List Char) : List Char :=
  text.flatMap upperChar

end Calculator.Text
