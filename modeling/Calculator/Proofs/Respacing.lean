/-
Module: Calculator.Proofs.Respacing
Purpose: Spacing and offsets do not matter. Every text writes its own symbols, so the texts that write the
  symbols of a text, with any spacing that keeps runs apart, are just those with the same symbols. The parser
  looks at nothing but symbols: the offset of a token is only named by the error about it. So such texts come to
  the same tree, or are refused at the same token for causes that differ in that offset and in nothing else.
Main exports: spells_of_denotes, writesText_tokenize, writesText_iff, SyntaxError.moveTo, Parser.step_moveTo,
  StopsAt.respaced, RefusedAlike, respaced_texts_parse_alike
-/
import Calculator.Proofs.EarliestError
import Calculator.Proofs.LexemeSpans

namespace Calculator

/-! ### Every text writes its symbols -/

/-- What a span says is spelled by its characters. -/
theorem spells_of_denotes {piece : List Char} {symbol : Symbol} (denotes : Denotes piece symbol) :
    Spells symbol piece := by
  have asWritten : ∀ {symbol : Symbol}, (∀ value, symbol ≠ .const value) → symbol.text.toList = piece →
      Spells symbol piece := by
    rintro symbol notConst rfl
    exact .other notConst
  cases denotes with
  | literal nonempty digits =>
      obtain ⟨zeros, same⟩ := Literal.exists_zeros nonempty (List.all_eq_true.mpr digits)
      have spells := Spells.const zeros (Literal.digitsValue piece)
      rwa [← same] at spells
  | name | malformed | other => exact asWritten (by simp) (by simp [Symbol.text])
  | plus | minus | times | divide | assign | openParen | closeParen => exact asWritten (by simp) rfl

/-- The pieces of a text write their symbols; the pieces without one are the spacing between them. -/
theorem exists_writes_of_pieces (text : List Char) :
    ∃ gap written, Spacing gap ∧ Writes ((pieces text).filterMap Symbol.ofPiece?) written ∧
      text = gap ++ written := by
  induction text using pieces_induction with
  | nil => exact ⟨[], [], nofun, .nil, rfl⟩
  | mark c text notWord ih =>
      obtain ⟨gap, written, spacing, writes, same⟩ := ih
      rw [pieces_of_mark notWord]
      cases skipped : isSpacing c with
      | true =>
          have silent : Symbol.ofPiece? [c] = none := by simp [Symbol.ofPiece?, notWord, skipped]
          refine ⟨c :: gap, written, List.forall_mem_cons.mpr ⟨skipped, spacing⟩, ?_, by simp [same]⟩
          simpa [silent] using writes
      | false =>
          have spells := spells_of_denotes (denotes_ofMark notWord skipped)
          have apart : Touch [c] written → gap ≠ [] := by
            rintro ⟨goesOn, -⟩
            simp [notWord] at goesOn
          refine ⟨[], [c] ++ gap ++ written, nofun, ?_, by simp [same]⟩
          simpa [ofPiece?_mark notWord skipped] using Writes.cons spells spacing apart writes
  | run c text word ih =>
      obtain ⟨gap, written, spacing, writes, same⟩ := ih
      have inRun := isWordChar_of_mem_run word text
      have nonempty := List.cons_ne_nil c (text.takeWhile isWordChar)
      have spells := spells_of_denotes (denotes_ofRun nonempty inRun)
      have apart : Touch (c :: text.takeWhile isWordChar) written → gap ≠ [] := by
        rintro ⟨-, goesOn⟩ rfl
        have stops := head?_dropWhile_isWordChar text
        simp [same, goesOn] at stops
      refine ⟨[], (c :: text.takeWhile isWordChar) ++ gap ++ written, nofun, ?_, ?_⟩
      · rw [pieces_of_word word]
        simpa [ofPiece?_run nonempty inRun] using Writes.cons spells spacing apart writes
      · simp [← same]

theorem writesText_tokenize (text : String) : WritesText ((tokenize text).map Token.symbol) text := by
  rw [symbols_tokenize]
  exact exists_writes_of_pieces text.toList

/-- The texts that write the symbols of a text are those with the same symbols. -/
theorem writesText_iff {text other : String} :
    WritesText ((tokenize text).map Token.symbol) other ↔
      (tokenize other).map Token.symbol = (tokenize text).map Token.symbol := by
  constructor
  · intro writes
    exact symbols_of_writesText writes fun _ => lexical_of_mem_symbols
  · intro same
    rw [← same]
    exact writesText_tokenize other

/-! ### The parser looks at symbols only -/

/-- The same cause at another place. A cause that has no place stays as it is. -/
def SyntaxError.moveTo (pos : Nat) : SyntaxError → SyntaxError
  | unexpected token => unexpected ⟨token.symbol, pos⟩
  | expectedOperand token => expectedOperand ⟨token.symbol, pos⟩
  | expectedOperator token => expectedOperator ⟨token.symbol, pos⟩
  | unmatchedClose _ => unmatchedClose pos
  | cause => cause

/-- Only the offset at the end of the wording depends on the place. -/
theorem SyntaxError.detail_moveTo {cause : SyntaxError} {pos : Nat} (named : cause.pos? = some pos) :
    ∃ what : String, cause.detail = s!"{what} at pos {pos}" ∧
      ∀ place, (cause.moveTo place).detail = s!"{what} at pos {place}" := by
  cases cause with
  | unexpected token =>
      cases named
      exact ⟨_, append_describe "unexpected " token, fun place => append_describe _ ⟨token.symbol, place⟩⟩
  | expectedOperand token =>
      cases named
      exact ⟨_, append_describe "expected an operand, got " token,
        fun place => append_describe _ ⟨token.symbol, place⟩⟩
  | expectedOperator token =>
      cases named
      exact ⟨_, append_describe "expected an operator, got " token,
        fun place => append_describe _ ⟨token.symbol, place⟩⟩
  | unmatchedClose place =>
      cases named
      have wording : "unmatched ')' at pos " = "unmatched ')'" ++ " at pos " := by decide
      exact ⟨"unmatched ')'", congrArg (· ++ toString pos) wording,
        fun place => congrArg (· ++ toString place) wording⟩
  | unmatchedOpen | missingOperand | missingOperator | emptyExpression => cases named

namespace Parser

/-- Folds know of no place. -/
theorem moveTo_of_foldWhile {power : Nat} {pending : List Pending} {operands : List Expr} {cause : SyntaxError}
    (failed : foldWhile power pending operands = .error cause) (pos : Nat) : cause.moveTo pos = cause := by
  rw [foldWhile_error failed]
  rfl

theorem pushOperator_moveTo (parser : Parser) (operator : Operator) (pos : Nat) :
    (parser.pushOperator operator).mapError (·.moveTo pos) = parser.pushOperator operator := by
  unfold pushOperator
  cases folded : foldWhile operator.leftPower parser.pending parser.operands with
  | ok result => rfl
  | error cause => simp [Except.mapError, moveTo_of_foldWhile folded]

theorem closeGroup_moveTo (parser : Parser) (pos place : Nat) :
    parser.closeGroup place = (parser.closeGroup pos).mapError (·.moveTo place) := by
  unfold closeGroup
  cases folded : foldWhile 0 parser.pending parser.operands with
  | error cause => simp [Except.mapError, moveTo_of_foldWhile folded]
  | ok result =>
      obtain ⟨pending, operands⟩ := result
      rcases pending with _ | ⟨_ | operator, pending⟩
      · rfl
      · cases operands <;> rfl
      · rfl

/-- The offset of a token shows in the error about it and nowhere else. -/
theorem step_moveTo (parser : Parser) (token : Token) (place : Nat) :
    parser.step ⟨token.symbol, place⟩ = (parser.step token).mapError (·.moveTo place) := by
  obtain ⟨symbol, pos⟩ := token
  unfold step
  cases parser.expectOperand with
  | true =>
      cases symbol with
      | plus | minus => exact (pushOperator_moveTo ..).symm
      | _ => rfl
  | false =>
      cases symbol with
      | plus | minus | times | divide | assign => exact (pushOperator_moveTo ..).symm
      | closeParen => exact closeGroup_moveTo parser pos place
      | _ => rfl

/-- Tokens with the same symbols lead to the same state. -/
theorem run_of_same {parser after : Parser} {tokens others : List Token}
    (same : others.map Token.symbol = tokens.map Token.symbol) (ran : parser.run tokens = .ok after) :
    parser.run others = .ok after := by
  induction tokens generalizing parser others with
  | nil =>
      obtain rfl : others = [] := by simpa using same
      exact ran
  | cons token tokens ih =>
      obtain ⟨other, others, rfl, symbol, same⟩ := List.map_eq_cons_iff.mp same
      rw [run] at ran ⊢
      have moved := step_moveTo parser token other.pos
      rw [← symbol] at moved
      cases stepped : parser.step token with
      | error cause => simp [stepped] at ran
      | ok next =>
          rw [stepped] at ran moved
          simp only [moved, Except.mapError]
          exact ih same ran

end Parser

/-! ### Texts with the same symbols -/

section Respaced

variable {text other : String} (same : (tokenize other).map Token.symbol = (tokenize text).map Token.symbol)
include same

theorem parse_of_same {tree : Expr} (parsed : parse text = .ok tree) : parse other = .ok tree := by
  unfold parse parseTokens at parsed ⊢
  cases ran : Parser.start.run (tokenize text) with
  | error cause => simp [ran] at parsed
  | ok parser =>
      rw [ran] at parsed
      rw [Parser.run_of_same same ran]
      exact parsed

theorem StopsAtEnd.respaced {cause : SyntaxError} (stops : StopsAtEnd text cause) : StopsAtEnd other cause := by
  obtain ⟨parser, ran, failed⟩ := stops
  exact ⟨parser, Parser.run_of_same same ran, failed⟩

/-- A token that is refused is refused in both texts, each time for the same cause at its own place. -/
theorem StopsAt.respaced {before : List Token} {token : Token} {cause : SyntaxError}
    (stops : StopsAt text before token cause) :
    ∃ before' token', StopsAt other before' token' (cause.moveTo token'.pos) ∧
      before'.length = before.length := by
  obtain ⟨⟨rest, cut⟩, parser, ran, refused⟩ := stops
  rw [cut, List.map_append, List.map_cons] at same
  obtain ⟨before', more, cut', early, late⟩ := List.map_eq_append_iff.mp same
  obtain ⟨token', rest', rfl, symbol, -⟩ := List.map_eq_cons_iff.mp late
  have moved := Parser.step_moveTo parser token token'.pos
  rw [← symbol, refused] at moved
  exact ⟨before', token', ⟨⟨rest', cut'⟩, parser, Parser.run_of_same early ran, moved⟩,
    by simpa using congrArg List.length early⟩

end Respaced

/-- Two texts are refused alike: for one cause at their ends, or at tokens that are equally many behind the
    start, for causes that are worded the same but for the offset, which is that of the token. -/
inductive RefusedAlike (text other : String) (cause : SyntaxError) : SyntaxError → Prop where
  | atEnd (unplaced : cause.pos? = none) : RefusedAlike text other cause cause
  | atToken {number : Nat} {first second : Token} {what : String}
      (inText : (tokenize text)[number]? = some first) (inOther : (tokenize other)[number]? = some second)
      (detail : cause.detail = s!"{what} at pos {first.pos}")
      (moved : (cause.moveTo second.pos).detail = s!"{what} at pos {second.pos}") :
      RefusedAlike text other cause (cause.moveTo second.pos)

theorem StopsAt.getElem? {text : String} {before : List Token} {token : Token} {cause : SyntaxError}
    (stops : StopsAt text before token cause) : (tokenize text)[before.length]? = some token := by
  obtain ⟨rest, cut⟩ := stops.tokens
  simp [cut]

theorem StopsAt.pos?_eq {text : String} {before : List Token} {token : Token} {cause : SyntaxError}
    (stops : StopsAt text before token cause) : cause.pos? = some token.pos := by
  obtain ⟨parser, ran, refused⟩ := stops.refused
  obtain ⟨reads, -⟩ := Parser.reads_of_run Parser.reads_start ran
  exact (Parser.next_of_refused reads refused).2

theorem refusedAlike_of_same {text other : String}
    (same : (tokenize other).map Token.symbol = (tokenize text).map Token.symbol) {cause : SyntaxError}
    (failed : parse text = .error cause) :
    ∃ cause', parse other = .error cause' ∧ RefusedAlike text other cause cause' := by
  rcases stopsAt_or_stopsAtEnd failed with ⟨before, token, stops⟩ | stops
  · obtain ⟨before', token', stops', sameLength⟩ := stops.respaced same
    obtain ⟨what, detail, moved⟩ := SyntaxError.detail_moveTo stops.pos?_eq
    exact ⟨_, stops'.parse, .atToken stops.getElem? (sameLength ▸ stops'.getElem?) detail (moved _)⟩
  · have failed' := (stops.respaced same).parse
    obtain ⟨parser, -, ended⟩ := stops
    exact ⟨cause, failed', .atEnd (Parser.pos?_of_finish ended)⟩

/-- **Spacing.** A text writes the symbols of another one just if it has the same symbols. Then it is parsed to
    the same tree, or is refused alike. -/
theorem respaced_texts_parse_alike (text other : String) :
    (WritesText ((tokenize text).map Token.symbol) other ↔
      (tokenize other).map Token.symbol = (tokenize text).map Token.symbol) ∧
    (WritesText ((tokenize text).map Token.symbol) other →
      (∀ tree, parse other = .ok tree ↔ parse text = .ok tree) ∧
      ∀ cause, parse text = .error cause →
        ∃ cause', parse other = .error cause' ∧ RefusedAlike text other cause cause') := by
  refine ⟨writesText_iff, ?_⟩
  intro writes
  have same := writesText_iff.mp writes
  refine ⟨fun tree => ⟨parse_of_same same.symm, parse_of_same same⟩, ?_⟩
  intro cause failed
  exact refusedAlike_of_same same failed

/-- Zeros in front of a constant, spacing of every kind, and a literal out of range that has to stay one. -/
theorem respaced_texts_parse_alike_malformed :
    let text := "a=(007+x1)* 2147483648"
    let other := "\t a = ( 7\r\n+ x1 ) *2147483648 \x0C"
    WritesText ((tokenize text).map Token.symbol) other ∧
      parse text = .error (.unexpected ⟨.unexpected "2147483648", 12⟩) ∧
      ∃ cause', parse other = .error cause' ∧
        RefusedAlike text other (.unexpected ⟨.unexpected "2147483648", 12⟩) cause' := by
  intro text other
  let symbols : List Symbol := [.var "a", .assign, .openParen, .const 7, .plus, .var "x1", .closeParen, .times,
    .unexpected "2147483648"]
  have first : (tokenize "a=(007+x1)* 2147483648").map Token.symbol = symbols := by rfl
  have second : (tokenize "\t a = ( 7\r\n+ x1 ) *2147483648 \x0C").map Token.symbol = symbols := by rfl
  have refused : parse "a=(007+x1)* 2147483648" = .error (.unexpected ⟨.unexpected "2147483648", 12⟩) := by rfl
  obtain ⟨writes, alike⟩ := respaced_texts_parse_alike text other
  have written := writes.mpr (second.trans first.symm)
  exact ⟨written, refused, (alike written).2 _ refused⟩

end Calculator
