/-
Module: Calculator.Text.Blank
Purpose: Blank characters, and the two ways in which lines and settings use them: cutting them off both
  ends, and splitting a text at them. The blanks are the characters that Unicode calls white space,
  together with the four separators U+001C to U+001F.
Main exports: Text.isBlank, Text.strip, Text.words, Text.isBlankText
-/

namespace Calculator.Text

/-- The code points of the blank characters, as closed ranges. -/
def blankRanges : List (Nat × Nat) :=
  [(0x09, 0x0D), (0x1C, 0x20), (0x85, 0x85), (0xA0, 0xA0), (0x1680, 0x1680), (0x2000, 0x200A),
    (0x2028, 0x2029), (0x202F, 0x202F), (0x205F, 0x205F), (0x3000, 0x3000)]

/-- A character that separates words. -/
def isBlank (c : Char) : Bool :=
  blankRanges.any fun range => range.1 ≤ c.toNat && c.toNat ≤ range.2

/-- The text without blanks at its start. -/
def stripStart (text : List Char) : List Char :=
  text.dropWhile isBlank

/-- The text without blanks at its end. -/
def stripEnd (text : List Char) : List Char :=
  (text.reverse.dropWhile isBlank).reverse

/-- The text without blanks at either end. -/
def strip (text : List Char) : List Char :=
  stripEnd (stripStart text)

/-- The maximal stretches without blanks, in order. -/
def words : List Char → List (List Char)
  | [] => []
  | c :: rest =>
    if isBlank c then words rest
    else
      match rest, words rest with
      | d :: _, word :: more => if isBlank d then [c] :: word :: more else (c :: word) :: more
      | _, found => [c] :: found

/-- The first word and the text after it, blanks at its start removed. A text without a word has neither. -/
def firstWord? (text : List Char) : Option (List Char × List Char) :=
  match stripStart text with
  | [] => none
  | word => some (word.takeWhile (!isBlank ·), stripStart (word.dropWhile (!isBlank ·)))

/-- Nothing but blanks. -/
def isBlankText (text : String) : Bool :=
  text.toList.all isBlank

/-- Every character that core calls white space is blank. -/
theorem isBlank_of_isWhitespace {c : Char} (h : c.isWhitespace = true) : isBlank c = true := by
  simp only [Char.isWhitespace, Bool.or_eq_true, decide_eq_true_eq] at h
  rcases h with ((rfl | rfl) | rfl) | rfl <;> decide

end Calculator.Text
