/-
Module: Calculator.Text.Lines
Purpose: The lines of a text file. A carriage return, alone or before a line feed, counts as a line feed;
  besides the line feed, the vertical tab, the form feed, the separators U+001C to U+001E, the next-line
  character and the two Unicode separators end a line. A text that ends with a line end has no empty line
  after it.
Main exports: Text.unifyNewlines, Text.isLineEnd, Text.lines
-/

namespace Calculator.Text

/-- Every carriage return, alone or with the line feed after it, becomes one line feed. -/
def unifyNewlines : List Char → List Char
  | [] => []
  | '\r' :: '\n' :: rest => '\n' :: unifyNewlines rest
  | c :: rest => (if c = '\r' then '\n' else c) :: unifyNewlines rest

/-- A character that ends a line once newlines are unified. -/
def isLineEnd (c : Char) : Bool :=
  c = '\n' || c = '\x0B' || c = '\x0C' || (0x1C ≤ c.toNat && c.toNat ≤ 0x1E) || c = '\x85' ||
    c = '\u2028' || c = '\u2029'

/-- The stretches between line ends; the last one only if it is not empty. -/
def splitLines : List Char → List (List Char)
  | [] => []
  | c :: rest =>
    if isLineEnd c then [] :: splitLines rest
    else
      match splitLines rest with
      | [] => [[c]]
      | line :: more => (c :: line) :: more

/-- The lines of a text file, line ends left out. -/
def lines (text : List Char) : List (List Char) :=
  splitLines (unifyNewlines text)

/-- No line holds a line end. -/
theorem isLineEnd_of_mem_splitLines {text line : List Char} (h : line ∈ splitLines text) :
    ∀ c ∈ line, isLineEnd c = false := by
  induction text generalizing line with
  | nil => simp [splitLines] at h
  | cons d rest ih =>
    unfold splitLines at h
    split at h
    · rcases List.mem_cons.mp h with rfl | h
      · simp
      · exact ih h
    · rename_i notEnd
      have plain : isLineEnd d = false := by simpa using notEnd
      split at h
      · intro c hc
        rw [List.mem_singleton.mp h] at hc
        rw [List.mem_singleton.mp hc]
        exact plain
      · rename_i first more lines
        rcases List.mem_cons.mp h with rfl | h
        · intro c hc
          rcases List.mem_cons.mp hc with rfl | hc
          · exact plain
          · exact ih (by rw [lines]; exact List.mem_cons_self) c hc
        · exact ih (by rw [lines]; exact List.mem_cons_of_mem _ h)

end Calculator.Text
