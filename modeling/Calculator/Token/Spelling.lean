/-
Module: Calculator.Token.Spelling
Purpose: The texts that write given symbols. A symbol is written as it reads, a constant with any number of
  zeros in front; between symbols any spacing may stand, and some has to where two runs of letters and
  digits meet. One list of symbols has many texts, so this is a relation.
Main exports: Spells, Spacing, Writes, WritesText
-/
import Calculator.Token

namespace Calculator

/-- `text` is one way to write `symbol`. -/
inductive Spells : Symbol → List Char → Prop where
  | const (zeros value : Nat) :
      Spells (.const value) (List.replicate zeros '0' ++ (toString value).toList)
  | other {symbol : Symbol} (h : ∀ value, symbol ≠ .const value) : Spells symbol symbol.text.toList

/-- Nothing but spacing. -/
def Spacing (text : List Char) : Prop :=
  ∀ c ∈ text, isSpacing c = true

instance (text : List Char) : Decidable (Spacing text) :=
  List.decidableBAll _ text

/-- A run of letters and digits would go on from one text into the other. -/
def Touch (before after : List Char) : Prop :=
  before.getLast?.any isWordChar ∧ after.head?.any isWordChar

/-- `text` writes the symbols, with spacing only behind each of them. -/
inductive Writes : List Symbol → List Char → Prop where
  | nil : Writes [] []
  | cons {symbol : Symbol} {rest : List Symbol} {word gap text : List Char} (spells : Spells symbol word)
      (spacing : Spacing gap) (apart : Touch word text → gap ≠ []) (tail : Writes rest text) :
      Writes (symbol :: rest) (word ++ gap ++ text)

/-- `text` writes the symbols, with spacing wherever it may stand. -/
def WritesText (symbols : List Symbol) (text : String) : Prop :=
  ∃ gap written, Spacing gap ∧ Writes symbols written ∧ text.toList = gap ++ written

end Calculator
