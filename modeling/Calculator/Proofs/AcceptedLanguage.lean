/-
Module: Calculator.Proofs.AcceptedLanguage
Purpose: Which texts are expressions. The grammar of `Sentence` knows nothing of stacks, powers or folds; the
  parser accepts exactly its sentences, and every other text is an error of syntax that leaves the store as
  it is.
Main exports: Parser.Shape.after?_of_sentence, sentence_of_parseTokens, parseTokens_of_sentence,
  parse_isOk_iff_sentence
-/
import Calculator.Eval
import Calculator.Proofs.ParserSoundness

namespace Calculator

namespace Parser.Shape

theorem next?_sign (op : Sign) (depth : Nat) : next? ⟨true, depth⟩ op.symbol = some ⟨true, depth⟩ := by
  cases op <;> rfl

theorem next?_infix (op : InfixOp) (depth : Nat) :
    next? ⟨false, depth⟩ op.symbol = some ⟨true, depth⟩ := by
  rcases op with (_ | _ | _ | _) | _ <;> rfl

/-- A sentence takes the place of one operand, whatever is open around it. -/
theorem after?_of_sentence {symbols : List Symbol} (sentence : Sentence symbols) (depth : Nat) :
    after? ⟨true, depth⟩ symbols = some ⟨false, depth⟩ := by
  induction sentence generalizing depth with
  | const value => rfl
  | var name => rfl
  | sign op _ ih => rw [after?, next?_sign, Option.bind_some, ih]
  | binary op _ _ ihl ihr =>
      rw [after?_append, ihl, Option.bind_some, after?, next?_infix, Option.bind_some, ihr]
  | group _ ih =>
      rw [after?, next?, Option.bind_some, after?_append, ih]
      rfl

end Parser.Shape

/-- Symbols that the parser takes to a complete expression are those of a tree, and a tree is a sentence. -/
theorem sentence_of_parseTokens {tokens : List Token} {tree : Expr}
    (accepted : parseTokens tokens = .ok tree) : Sentence (tokens.map Token.symbol) := by
  obtain ⟨grouped, -, reads⟩ := parseTokens_grouped accepted
  rw [← reads]
  exact grouped.sentence

theorem parseTokens_of_sentence {tokens : List Token} (sentence : Sentence (tokens.map Token.symbol)) :
    ∃ tree, parseTokens tokens = .ok tree := by
  obtain ⟨tree, parsed, -⟩ := Parser.parseTokens_of_after (Parser.Shape.after?_of_sentence sentence 0)
  exact ⟨tree, parsed⟩

/-- A sign or an operator is never written as a malformed piece. -/
theorem unexpected_notMem_of_sentence {symbols : List Symbol} (sentence : Sentence symbols)
    (text : String) : Symbol.unexpected text ∉ symbols := by
  induction sentence with
  | const value => simp
  | var name => simp
  | sign op _ ih => cases op <;> simpa [Sign.symbol] using ih
  | binary op _ _ ihl ihr =>
      rcases op with (_ | _ | _ | _) | _ <;> simpa [InfixOp.symbol] using ⟨ihl, ihr⟩
  | group _ ih => simpa using ih

/-- **Accepted language.** A text is an expression if and only if none of its tokens is malformed and its
    symbols are a sentence. Evaluating any other text is an error of syntax on every store. -/
theorem parse_isOk_iff_sentence (text : String) :
    ((∃ tree, parse text = .ok tree) ↔
      (∀ piece, Symbol.unexpected piece ∉ (tokenize text).map Token.symbol) ∧
        Sentence ((tokenize text).map Token.symbol)) ∧
    (¬((∀ piece, Symbol.unexpected piece ∉ (tokenize text).map Token.symbol) ∧
        Sentence ((tokenize text).map Token.symbol)) →
      ∃ cause, parse text = .error cause ∧
        ∀ limit store, evaluate limit text store = .fail (.invalidSyntax cause) store) := by
  have grammatical : ∀ {tree}, parse text = .ok tree →
      (∀ piece, Symbol.unexpected piece ∉ (tokenize text).map Token.symbol) ∧
        Sentence ((tokenize text).map Token.symbol) := by
    intro tree accepted
    have sentence := sentence_of_parseTokens accepted
    exact ⟨unexpected_notMem_of_sentence sentence, sentence⟩
  refine ⟨⟨?_, ?_⟩, ?_⟩
  · rintro ⟨tree, accepted⟩
    exact grammatical accepted
  · rintro ⟨-, sentence⟩
    exact parseTokens_of_sentence sentence
  · intro ungrammatical
    cases parsed : parse text with
    | ok tree => exact absurd (grammatical parsed) ungrammatical
    | error cause =>
        refine ⟨cause, rfl, ?_⟩
        intro limit store
        rw [evaluate, parsed]

/-- A truncated text, with an operand folded across the parenthesis that is still open, is refused. -/
theorem parse_isOk_iff_sentence_truncated :
    ∃ cause, parse "(1 + 2 *" = .error cause ∧
      ∀ limit store, evaluate limit "(1 + 2 *" store = .fail (.invalidSyntax cause) store := by
  apply (parse_isOk_iff_sentence "(1 + 2 *").2
  intro grammatical
  obtain ⟨tree, accepted⟩ := (parse_isOk_iff_sentence "(1 + 2 *").1.mpr grammatical
  cases accepted

end Calculator
