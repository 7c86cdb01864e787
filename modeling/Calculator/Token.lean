/-
Module: Calculator.Token
Purpose: The symbols of the expression language and the tokens that carry them. A piece of source text is
  a run of ASCII letters and digits or a single other character; each piece that is no spacing is one
  symbol. A run that starts with a letter names a variable, a run that starts with a digit is a constant or
  malformed.
Main exports: isWordChar, isSpacing, Symbol, Symbol.ofPiece?, Token, Token.render
-/
import Calculator.Literal
import Calculator.Text.Quoted

namespace Calculator

/-- An ASCII letter or digit. Runs of them belong together. -/
def isWordChar (c : Char) : Bool :=
  c.isAlphanum

/-- The characters between tokens that mean nothing: space, tab, line feed, carriage return, form feed. -/
def isSpacing (c : Char) : Bool :=
  c = ' ' || c = '\t' || c = '\n' || c = '\r' || c = '\x0C'

/-- What a token says. -/
inductive Symbol where
  | const (value : Nat)
  | var (name : String)
  | plus
  | minus
  | times
  | divide
  | assign
  | openParen
  | closeParen
  | unexpected (text : String)
deriving DecidableEq, Repr, Inhabited

namespace Symbol

/-- The symbol of a run of letters and digits. A run that starts with a digit but is no literal, such as
    `12x` or one that is too large, is unexpected as a whole. -/
def ofRun (run : List Char) : Symbol :=
  if run.head?.any Char.isAlpha then var (String.ofList run)
  else
    match Literal.value? run with
    | some value => const value
    | none => unexpected (String.ofList run)

/-- The symbol of a character that belongs to no run. -/
def ofMark : Char → Symbol
  | '+' => plus
  | '-' => minus
  | '*' => times
  | '/' => divide
  | '=' => assign
  | '(' => openParen
  | ')' => closeParen
  | c => unexpected (String.singleton c)

/-- The symbol of a piece of source text; spacing has none. -/
def ofPiece? : List Char → Option Symbol
  | [] => none
  | c :: rest =>
    if isWordChar c then some (ofRun (c :: rest))
    else if isSpacing c then none
    else some (ofMark c)

/-- The name of the kind of symbol. -/
def kind : Symbol → String
  | const _ => "CONSTANT"
  | var _ => "VARIABLE"
  | plus => "PLUS"
  | minus => "MINUS"
  | times => "MULTIPLY"
  | divide => "DIVIDE"
  | assign => "ASSIGN"
  | openParen => "LPAREN"
  | closeParen => "RPAREN"
  | unexpected _ => "UNEXPECTED"

/-- What stands for the symbol in a text: a constant in decimal without leading zeros, anything else as it
    was written. -/
def text : Symbol → String
  | const value => toString value
  | var name => name
  | plus => "+"
  | minus => "-"
  | times => "*"
  | divide => "/"
  | assign => "="
  | openParen => "("
  | closeParen => ")"
  | unexpected text => text

/-- How messages show the symbol: its text between quotes, except that a constant needs none. -/
def shown : Symbol → String
  | const value => toString value
  | symbol => Text.quote symbol.text

end Symbol

/-- A symbol with the offset of its first character. -/
structure Token where
  symbol : Symbol
  pos : Nat
deriving DecidableEq, Repr, Inhabited

namespace Token

/-- How messages name a token: what it says and where it starts. -/
def describe (token : Token) : String :=
  s!"{token.symbol.shown} at pos {token.pos}"

/-- The full written form of a token. -/
def render (token : Token) : String :=
  s!"Token({token.symbol.kind}, {token.symbol.shown}, pos={token.pos})"

end Token

end Calculator
