/-
Module: Calculator.Token.Reader
Purpose: Reading tokens on demand. A reader takes its characters from the source one at a time and
  remembers how far it got: a run of letters and digits is only known to end once the character after it
  has been taken, so that character stays with the reader until the next token is asked for.
Main exports: Reader, Reader.ofText, Reader.pulled, Reader.next
-/
import Calculator.Token

namespace Calculator

/-- A text that is being read. `unread` is still in the source; `ahead` has been taken from it but belongs
    to no token yet; `pos` counts the characters before that. -/
structure Reader where
  unread : List Char
  ahead : Option Char
  pos : Nat
deriving DecidableEq, Repr, Inhabited

namespace Reader

/-- The reader of a text, before its first character. -/
def ofText (text : String) : Reader :=
  ⟨text.toList, none, 0⟩

/-- How many characters have been taken from the source. -/
def pulled (reader : Reader) : Nat :=
  reader.pos + reader.ahead.toList.length

/-- The characters that belong to no token yet. -/
def rest (reader : Reader) : List Char :=
  reader.ahead.toList ++ reader.unread

/-- Finish the run whose characters so far are `run`, last one first: take characters while they continue
    it, and keep the one that does not. -/
def takeRun (run : List Char) (pos : Nat) : List Char → List Char × Reader
  | [] => (run.reverse, ⟨[], none, pos⟩)
  | c :: unread =>
    if isWordChar c then takeRun (c :: run) (pos + 1) unread
    else (run.reverse, ⟨unread, some c, pos⟩)

/-- Pass over spacing and read one token, or come to the end of the text. -/
def scan (pos : Nat) : List Char → Option Token × Reader
  | [] => (none, ⟨[], none, pos⟩)
  | c :: unread =>
    if isWordChar c then
      let (run, reader) := takeRun [c] (pos + 1) unread
      (some ⟨Symbol.ofRun run, pos⟩, reader)
    else if isSpacing c then scan (pos + 1) unread
    else (some ⟨Symbol.ofMark c, pos⟩, ⟨unread, none, pos + 1⟩)

/-- The next token and the reader after it; at the end of the text there is no token. -/
def next (reader : Reader) : Option Token × Reader :=
  scan reader.pos reader.rest

/-! ### Progress -/

theorem rest_takeRun_length_le (run : List Char) (pos : Nat) (unread : List Char) :
    (takeRun run pos unread).2.rest.length ≤ unread.length := by
  induction unread generalizing run pos with
  | nil => simp [takeRun, rest]
  | cons c unread ih =>
    unfold takeRun
    split
    · exact Nat.le_succ_of_le (ih _ _)
    · simp [rest]

/-- A token takes at least one character. -/
theorem rest_scan_length_lt {pos : Nat} {text : List Char} {token : Token} {reader : Reader}
    (h : scan pos text = (some token, reader)) : reader.rest.length < text.length := by
  induction text generalizing pos with
  | nil => simp [scan] at h
  | cons c unread ih =>
    unfold scan at h
    split at h
    · have hle := rest_takeRun_length_le [c] (pos + 1) unread
      cases h
      exact Nat.lt_succ_of_le hle
    · split at h
      · exact Nat.lt_succ_of_lt (ih h)
      · cases h
        simp [rest]

/-- Each token leaves a shorter rest. -/
theorem rest_next_length_lt {reader after : Reader} {token : Token}
    (h : reader.next = (some token, after)) : after.rest.length < reader.rest.length :=
  rest_scan_length_lt h

end Reader

end Calculator
