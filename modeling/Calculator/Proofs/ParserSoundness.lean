/-
Module: Calculator.Proofs.ParserSoundness
Purpose: What a text must be like for a tree to come out of it. The tree reads from left to right as the
  tokens of the text, every operator in it holds exactly the operands that its powers give it, and its
  leaves are those that text can hold.
Main exports: parseTokens_grouped, writable_of_lexical, parse_sound
-/
import Calculator.Proofs.ParserState
import Calculator.Proofs.Tokenizing

namespace Calculator

open Calculator.Parser (Unsigned)

/-- A tree that comes out of tokens is grouped and reads as they do. -/
theorem parseTokens_grouped {tokens : List Token} {tree : Expr} (accepted : parseTokens tokens = .ok tree) :
    tree.Grouped ∧ Unsigned tree ∧ tree.symbols = tokens.map Token.symbol := by
  obtain ⟨other, parsed, result⟩ := Parser.parseTokens_of_after (Parser.after_of_parseTokens accepted)
  rw [accepted] at parsed
  cases parsed
  exact result

/-- The leaves of a tree are what text can hold if its symbols are. -/
theorem writable_of_lexical {tree : Expr} (grouped : tree.Grouped) (unsigned : Unsigned tree)
    (lexical : ∀ symbol ∈ tree.symbols, symbol.Lexical) : tree.Writable := by
  induction tree with
  | const value =>
      have fits : value.toNat ≤ Literal.maxValue := lexical _ List.mem_cons_self
      have positive : 0 ≤ value := unsigned
      exact ⟨positive, by omega⟩
  | var name => exact lexical _ List.mem_cons_self
  | sign op operand ih =>
      exact ih grouped.1 unsigned fun symbol member => lexical symbol (List.mem_cons_of_mem _ member)
  | binary op left right ihl ihr =>
      constructor
      · apply ihl grouped.1 unsigned.1
        intro symbol member
        exact lexical symbol (List.mem_append_left _ member)
      · apply ihr grouped.2.1 unsigned.2
        intro symbol member
        exact lexical symbol (List.mem_append_right _ (List.mem_cons_of_mem _ member))
  | group inner ih =>
      apply ih grouped unsigned
      intro symbol member
      exact lexical symbol (List.mem_cons_of_mem _ (List.mem_append_left _ member))
  | unknownSign => exact grouped.elim
  | unknownBinary => exact grouped.elim
  | unsupported => exact grouped.elim

/-- **Soundness.** A tree that comes out of a text reads from left to right as the symbols of the text, each
    of its operators holds the operands that its powers give it, and its leaves are literals and names. -/
theorem parse_sound {text : String} {tree : Expr} (accepted : parse text = .ok tree) :
    tree.symbols = (tokenize text).map Token.symbol ∧ tree.Grouped ∧ tree.Writable := by
  obtain ⟨grouped, unsigned, reads⟩ := parseTokens_grouped accepted
  refine ⟨reads, grouped, writable_of_lexical grouped unsigned ?_⟩
  intro symbol member
  rw [reads] at member
  exact lexical_of_mem_symbols member

/-- The sign and the assignment hold loosely on their right: inside a product they take the sum behind it. -/
theorem parse_sound_loose_operands :
    let tree := Expr.binary (.arith .mul) (.const 2) (.sign .minus (.binary .assign (.var "a")
      (.binary (.arith .add) (.group (.const 3)) (.const 4))))
    parse "2*-a = (3) + 4" = .ok tree ∧
      tree.symbols = (tokenize "2*-a = (3) + 4").map Token.symbol ∧ tree.Grouped ∧ tree.Writable := by
  intro tree
  have accepted : parse "2*-a = (3) + 4" = .ok tree := by rfl
  exact ⟨accepted, parse_sound accepted⟩

end Calculator
