/-
Module: Calculator.Token.Lexeme
Purpose: Cutting a text into tokens. `pieces` cuts it into maximal runs of letters and digits and single
  other characters, so that nothing is lost (`flatten_pieces`); `lexemes` adds where each piece starts, and
  `tokenize` keeps the pieces that are symbols.
Main exports: pieces, Lexeme, lexemes, tokenize, flatten_pieces
-/
import Calculator.Token

namespace Calculator

/-- Put one more character in front of pieces: it joins the first piece if both belong to a run. -/
def joinPiece (c : Char) : List (List Char) → List (List Char)
  | (d :: run) :: rest =>
    if isWordChar c && isWordChar d then (c :: d :: run) :: rest else [c] :: (d :: run) :: rest
  | rest => [c] :: rest

/-- The pieces of a text: maximal runs of letters and digits, and every other character alone. -/
def pieces (text : List Char) : List (List Char) :=
  text.foldr joinPiece []

/-- A piece of source text and the offset of its first character. -/
structure Lexeme where
  text : List Char
  start : Nat
deriving DecidableEq, Repr, Inhabited

namespace Lexeme

/-- The offset after the last character. -/
def stop (lexeme : Lexeme) : Nat :=
  lexeme.start + lexeme.text.length

/-- The token of a lexeme; spacing has none. -/
def token? (lexeme : Lexeme) : Option Token :=
  (Symbol.ofPiece? lexeme.text).map fun symbol => ⟨symbol, lexeme.start⟩

end Lexeme

/-- Pieces that follow one another from an offset on. -/
def locate : Nat → List (List Char) → List Lexeme
  | _, [] => []
  | start, piece :: rest => ⟨piece, start⟩ :: locate (start + piece.length) rest

/-- The pieces of a text with their offsets. -/
def lexemes (text : List Char) : List Lexeme :=
  locate 0 (pieces text)

/-- The tokens of a text, in order. -/
def tokenize (text : String) : List Token :=
  (lexemes text.toList).filterMap Lexeme.token?

/-! ### Laws of the cut -/

/-- Joining a character adds just that character. -/
theorem flatten_joinPiece (c : Char) (rest : List (List Char)) :
    (joinPiece c rest).flatten = c :: rest.flatten := by
  unfold joinPiece
  split
  · split <;> rfl
  · rfl

/-- The pieces of a text make up the text. -/
@[simp] theorem flatten_pieces (text : List Char) : (pieces text).flatten = text := by
  induction text with
  | nil => rfl
  | cons c rest ih =>
    change (joinPiece c (pieces rest)).flatten = c :: rest
    rw [flatten_joinPiece, ih]

/-- The located pieces are the pieces. -/
@[simp] theorem map_text_locate (start : Nat) (ps : List (List Char)) :
    (locate start ps).map Lexeme.text = ps := by
  induction ps generalizing start with
  | nil => rfl
  | cons piece rest ih => simp [locate, ih]

end Calculator
