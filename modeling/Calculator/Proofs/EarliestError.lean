/-
Module: Calculator.Proofs.EarliestError
Purpose: An error of syntax is found at the first token where there is one. Whatever was accepted can be
  completed: an operand where one is missing, then the parentheses that are open (`Shape.completion`). A token
  that is refused cannot be followed by anything that would make up for it, since acceptance depends on the
  shape alone. The error names the place of that token in the text, and an error at the end names no place.
Main exports: Parser.Shape.completion, Accepted, accepted_of_after, WrittenAt, writtenAt_of_tokenize, StopsAt,
  StopsAtEnd, stopsAt_or_stopsAtEnd, parse_stops_earliest
-/
import Calculator.Eval
import Calculator.Proofs.ParserSoundness

namespace Calculator

/-! ### Completing what was accepted -/

namespace Parser.Shape

/-- Symbols that complete an expression: an operand if one is missing, then the parentheses that are open. -/
def completion : Shape → List Symbol
  | ⟨true, depth⟩ => .const 0 :: List.replicate depth .closeParen
  | ⟨false, depth⟩ => List.replicate depth .closeParen

theorem after?_closing (depth : Nat) :
    after? ⟨false, depth⟩ (List.replicate depth .closeParen) = some complete := by
  induction depth with
  | zero => rfl
  | succ depth ih => exact ih

theorem after?_completion (shape : Shape) : shape.after? shape.completion = some complete := by
  obtain ⟨expectOperand, depth⟩ := shape
  cases expectOperand with
  | true => exact after?_closing depth
  | false => exact after?_closing depth

theorem lexical_of_mem_completion {shape : Shape} {symbol : Symbol} (member : symbol ∈ shape.completion) :
    symbol.Lexical := by
  obtain ⟨expectOperand, depth⟩ := shape
  have closing : symbol ∈ List.replicate depth Symbol.closeParen → symbol.Lexical := by
    intro member
    rw [List.eq_of_mem_replicate member]
    trivial
  cases expectOperand with
  | true =>
      rcases List.mem_cons.mp member with rfl | member
      · exact Nat.zero_le _
      · exact closing member
  | false => exact closing member

end Parser.Shape

/-- Some text with these symbols is an expression. -/
def Accepted (symbols : List Symbol) : Prop :=
  ∃ text tree, parse text = .ok tree ∧ (tokenize text).map Token.symbol = symbols

theorem exists_spells (symbol : Symbol) : ∃ word, Spells symbol word := by
  cases symbol with
  | const value => exact ⟨_, .const 0 value⟩
  | _ => exact ⟨_, .other nofun⟩

/-- Any symbols can be written one after the other, with a space behind each. -/
theorem exists_writes (symbols : List Symbol) : ∃ text, Writes symbols text := by
  induction symbols with
  | nil => exact ⟨[], .nil⟩
  | cons symbol rest ih =>
      obtain ⟨word, spells⟩ := exists_spells symbol
      obtain ⟨text, tail⟩ := ih
      have spacing : Spacing [' '] := by decide
      exact ⟨_, .cons spells spacing (fun _ => List.cons_ne_nil _ _) tail⟩

theorem accepted_of_after {symbols : List Symbol} (lexical : ∀ symbol ∈ symbols, symbol.Lexical)
    (may : Parser.Shape.start.after? symbols = some Parser.Shape.complete) : Accepted symbols := by
  obtain ⟨written, writes⟩ := exists_writes symbols
  have text : WritesText symbols (String.ofList written) :=
    ⟨[], written, by decide, writes, String.toList_ofList⟩
  have same := symbols_of_writesText text lexical
  rw [← same] at may
  obtain ⟨tree, parsed, -⟩ := Parser.parseTokens_of_after may
  exact ⟨_, tree, parsed, same⟩

/-- Tokens of a text that were accepted can be continued to an expression. -/
theorem accepted_of_run {text : String} {tokens : List Token} (among : tokens ⊆ tokenize text)
    {parser : Parser} (ran : Parser.start.run tokens = .ok parser) :
    ∃ more, Accepted (tokens.map Token.symbol ++ more) := by
  obtain ⟨-, may⟩ := Parser.reads_of_run Parser.reads_start ran
  refine ⟨parser.shape.completion, accepted_of_after ?_ ?_⟩
  · intro symbol member
    rcases List.mem_append.mp member with member | member
    · exact lexical_of_mem_symbols (List.map_subset Token.symbol among member)
    · exact Parser.Shape.lexical_of_mem_completion member
  · change Parser.start.shape.after? _ = _
    rw [Parser.Shape.after?_append, may, Option.bind_some, Parser.Shape.after?_completion]

/-- Nothing that begins with the accepted tokens and the refused one is accepted. -/
theorem parseTokens_of_refused {before : List Token} {token : Token} {parser : Parser} {cause : SyntaxError}
    (ran : Parser.start.run before = .ok parser) (refused : parser.step token = .error cause)
    {tokens : List Token} {more : List Symbol}
    (begins : tokens.map Token.symbol = before.map Token.symbol ++ token.symbol :: more) :
    ∃ other, parseTokens tokens = .error other := by
  obtain ⟨reads, may⟩ := Parser.reads_of_run Parser.reads_start ran
  obtain ⟨next, -⟩ := Parser.next_of_refused reads refused
  apply Parser.parseTokens_refused
  change Parser.start.shape.after? _ ≠ _
  rw [begins, Parser.Shape.after?_append, may, Option.bind_some, Parser.Shape.after?, next]
  intro complete
  cases complete

/-! ### Places -/

/-- The token of `text` behind the tokens `before` is written from `offset` on: the pieces in front of it are
    those tokens and spacing, and have `offset` characters. -/
def WrittenAt (text : String) (before : List Token) (token : Token) (offset : Nat) : Prop :=
  ∃ left word right, pieces text.toList = left ++ word :: right ∧
    left.filterMap Symbol.ofPiece? = before.map Token.symbol ∧
    Symbol.ofPiece? word = some token.symbol ∧ left.flatten.length = offset

theorem exists_piece_of_locate {start : Nat} {ps : List (List Char)} {before rest : List Token}
    {token : Token} (cut : (locate start ps).filterMap Lexeme.token? = before ++ token :: rest) :
    ∃ left word right, ps = left ++ word :: right ∧
      left.filterMap Symbol.ofPiece? = before.map Token.symbol ∧
      Symbol.ofPiece? word = some token.symbol ∧ start + left.flatten.length = token.pos := by
  induction ps generalizing start before with
  | nil => simp [locate] at cut
  | cons piece ps ih =>
      rw [locate, List.filterMap_cons, Lexeme.token?] at cut
      cases read : Symbol.ofPiece? piece with
      | none =>
          rw [read] at cut
          obtain ⟨left, word, right, rfl, silent, own, place⟩ := ih cut
          refine ⟨piece :: left, word, right, rfl, ?_, own, ?_⟩
          · rw [List.filterMap_cons, read]
            exact silent
          · rw [← place, List.flatten_cons, List.length_append, Nat.add_assoc]
      | some symbol =>
          rw [read] at cut
          cases before with
          | nil =>
              obtain ⟨rfl, -⟩ := List.cons.inj cut
              exact ⟨[], piece, ps, rfl, rfl, read, rfl⟩
          | cons first before =>
              obtain ⟨rfl, later⟩ := List.cons.inj cut
              obtain ⟨left, word, right, rfl, others, own, place⟩ := ih later
              refine ⟨piece :: left, word, right, rfl, ?_, own, ?_⟩
              · rw [List.filterMap_cons, read, List.map_cons, others]
              · rw [← place, List.flatten_cons, List.length_append, Nat.add_assoc]

theorem writtenAt_of_tokenize {text : String} {before rest : List Token} {token : Token}
    (cut : tokenize text = before ++ token :: rest) : WrittenAt text before token token.pos := by
  obtain ⟨left, word, right, split, others, own, place⟩ := exists_piece_of_locate cut
  exact ⟨left, word, right, split, others, own, by rw [← place, Nat.zero_add]⟩

theorem append_describe (what : String) (token : Token) :
    what ++ token.describe = what ++ token.symbol.shown ++ " at pos " ++ toString token.pos := by
  change what ++ (token.symbol.shown ++ " at pos " ++ toString token.pos) = _
  simp only [String.append_assoc]

theorem detail_of_pos? {cause : SyntaxError} {pos : Nat} (named : cause.pos? = some pos) :
    ∃ what : String, cause.detail = what ++ " at pos " ++ toString pos := by
  cases cause with
  | unexpected token =>
      cases named
      exact ⟨_, append_describe "unexpected " token⟩
  | expectedOperand token =>
      cases named
      exact ⟨_, append_describe "expected an operand, got " token⟩
  | expectedOperator token =>
      cases named
      exact ⟨_, append_describe "expected an operator, got " token⟩
  | unmatchedClose place =>
      cases named
      have wording : "unmatched ')' at pos " = "unmatched ')'" ++ " at pos " := by decide
      exact ⟨_, congrArg (· ++ toString pos) wording⟩
  | unmatchedOpen | missingOperand | missingOperator | emptyExpression => cases named

/-- A cause that has a place ends its message with it. -/
theorem message_of_pos? {cause : SyntaxError} {pos : Nat} (named : cause.pos? = some pos) :
    ∃ what : String, (EvalError.invalidSyntax cause).message = s!"{what} at pos {pos}" := by
  obtain ⟨what, detail⟩ := detail_of_pos? named
  refine ⟨"Invalid syntax: " ++ what, ?_⟩
  change "Invalid syntax: " ++ cause.detail = "Invalid syntax: " ++ what ++ " at pos " ++ toString pos
  rw [detail]
  simp only [String.append_assoc]

/-- A cause without a place has a message without any number. -/
theorem message_of_pos?_none {cause : SyntaxError} (unnamed : cause.pos? = none) :
    ∀ c ∈ (EvalError.invalidSyntax cause).message.toList, ¬c.isDigit := by
  cases cause with
  | unexpected | expectedOperand | expectedOperator | unmatchedClose => cases unnamed
  | unmatchedOpen | missingOperand | missingOperator | emptyExpression => exact List.any_eq_false.mp (by rfl)

namespace Parser

theorem fold_error {operator : Operator} {operands : List Expr} {cause : SyntaxError}
    (failed : fold operator operands = .error cause) : cause = .missingOperand := by
  unfold fold at failed
  split at failed
  · cases failed
  · cases failed
  · cases failed
    rfl

theorem foldWhile_error {power : Nat} {pending : List Pending} {operands : List Expr} {cause : SyntaxError}
    (failed : foldWhile power pending operands = .error cause) : cause = .missingOperand := by
  induction pending generalizing operands with
  | nil => cases failed
  | cons top below ih =>
      cases top with
      | openParen => cases failed
      | op operator =>
          rw [foldWhile] at failed
          by_cases holds : power ≤ operator.rightPower
          · rw [if_pos holds] at failed
            cases folded : fold operator operands with
            | ok next =>
                rw [folded] at failed
                exact ih failed
            | error other =>
                rw [folded] at failed
                cases failed
                exact fold_error folded
          · rw [if_neg holds] at failed
            cases failed

/-- Errors at the end of a text have no place. -/
theorem pos?_of_finish {parser : Parser} {cause : SyntaxError} (failed : parser.finish = .error cause) :
    cause.pos? = none := by
  unfold finish at failed
  split at failed
  · rename_i folded
    cases failed
    rw [foldWhile_error folded]
    rfl
  · cases failed
    rfl
  · cases failed
    rfl
  · cases failed
  · cases failed
    rfl

end Parser

/-! ### Where parsing stops -/

/-- Parsing accepts the tokens `before` and stops with an error at the next one. -/
structure StopsAt (text : String) (before : List Token) (token : Token) (cause : SyntaxError) : Prop where
  tokens : ∃ rest, tokenize text = before ++ token :: rest
  refused : ∃ parser, Parser.start.run before = .ok parser ∧ parser.step token = .error cause

/-- Parsing accepts every token and stops with an error at the end. -/
def StopsAtEnd (text : String) (cause : SyntaxError) : Prop :=
  ∃ parser, Parser.start.run (tokenize text) = .ok parser ∧ parser.finish = .error cause

theorem StopsAt.parse {text : String} {before : List Token} {token : Token} {cause : SyntaxError}
    (stops : StopsAt text before token cause) : parse text = .error cause := by
  obtain ⟨⟨rest, cut⟩, parser, ran, refused⟩ := stops
  rw [Calculator.parse, parseTokens, cut, Parser.run_append, ran]
  dsimp only
  rw [Parser.run, refused]

theorem StopsAtEnd.parse {text : String} {cause : SyntaxError} (stops : StopsAtEnd text cause) :
    parse text = .error cause := by
  obtain ⟨parser, ran, failed⟩ := stops
  rw [Calculator.parse, parseTokens, ran]
  exact failed

/-- An error comes from one token or from the end. -/
theorem stopsAt_or_stopsAtEnd {text : String} {cause : SyntaxError} (failed : parse text = .error cause) :
    (∃ before token, StopsAt text before token cause) ∨ StopsAtEnd text cause := by
  rw [parse, parseTokens] at failed
  cases ran : Parser.start.run (tokenize text) with
  | ok parser =>
      rw [ran] at failed
      exact Or.inr ⟨parser, ran, failed⟩
  | error other =>
      rw [ran] at failed
      cases failed
      obtain ⟨before, token, rest, between, cut, ran, refused⟩ := Parser.exists_refused_of_run ran
      exact Or.inl ⟨before, token, ⟨rest, cut⟩, between, ran, refused⟩

/-- **Earliest error.** If parsing stops at a token, the tokens before it can be continued to an expression, no
    list of tokens that begins with them and this one is an expression, and the message names the offset at
    which this token is written. If parsing stops at the end, all the tokens can be continued to an
    expression and the message names no offset. It always stops in one of these ways when it fails. -/
theorem parse_stops_earliest (text : String) :
    (∀ before token cause, StopsAt text before token cause →
      parse text = .error cause ∧
      (∃ more, Accepted (before.map Token.symbol ++ more)) ∧
      (∀ tokens more, tokens.map Token.symbol = before.map Token.symbol ++ token.symbol :: more →
        ∃ other, parseTokens tokens = .error other) ∧
      ∃ (offset : Nat) (what : String), (EvalError.invalidSyntax cause).message = s!"{what} at pos {offset}" ∧
        cause.pos? = some offset ∧ WrittenAt text before token offset) ∧
    (∀ cause, StopsAtEnd text cause →
      parse text = .error cause ∧
      (∃ more, Accepted ((tokenize text).map Token.symbol ++ more)) ∧
      cause.pos? = none ∧ ∀ c ∈ (EvalError.invalidSyntax cause).message.toList, ¬c.isDigit) ∧
    ∀ cause, parse text = .error cause →
      (∃ before token, StopsAt text before token cause) ∨ StopsAtEnd text cause := by
  refine ⟨?_, ?_, fun _ => stopsAt_or_stopsAtEnd⟩
  · intro before token cause stops
    have parsed := stops.parse
    obtain ⟨⟨rest, cut⟩, parser, ran, refused⟩ := stops
    obtain ⟨reads, -⟩ := Parser.reads_of_run Parser.reads_start ran
    have named := (Parser.next_of_refused reads refused).2
    obtain ⟨what, message⟩ := message_of_pos? named
    have among : before ⊆ tokenize text := by
      rw [cut]
      exact List.subset_append_left _ _
    refine ⟨parsed, accepted_of_run among ran, ?_, token.pos, what, message, named, ?_⟩
    · intro tokens more begins
      exact parseTokens_of_refused ran refused begins
    · exact writtenAt_of_tokenize cut
  · intro cause stops
    have parsed := stops.parse
    obtain ⟨parser, ran, failed⟩ := stops
    have unnamed := Parser.pos?_of_finish failed
    refine ⟨parsed, ?_, unnamed, message_of_pos?_none unnamed⟩
    exact accepted_of_run (List.Subset.refl _) ran

/-- A parenthesis that closes nothing is found after the product before it has been folded; a text that is cut
    off fails at its end. -/
theorem parse_stops_earliest_unmatched :
    let text := " 12 * x)"
    let before : List Token := [⟨.const 12, 1⟩, ⟨.times, 4⟩, ⟨.var "x", 6⟩]
    StopsAt text before ⟨.closeParen, 7⟩ (.unmatchedClose 7) ∧ parse text = .error (.unmatchedClose 7) ∧
      WrittenAt text before ⟨.closeParen, 7⟩ 7 ∧
      StopsAtEnd "(1 +" .missingOperand ∧
      ∃ more, Accepted ((tokenize "(1 +").map Token.symbol ++ more) := by
  intro text before
  have cut : tokenize " 12 * x)" = before ++ [⟨.closeParen, 7⟩] := by rfl
  have stops : StopsAt text before ⟨.closeParen, 7⟩ (.unmatchedClose 7) :=
    ⟨⟨[], cut⟩, ⟨[.var "x", .const 12], [.op (.between (.arith .mul))], false⟩, by rfl, by rfl⟩
  have stopsAtEnd : StopsAtEnd "(1 +" .missingOperand :=
    ⟨⟨[.const 1], [.op (.between (.arith .add)), .openParen], true⟩, by rfl, by rfl⟩
  obtain ⟨parsed, -, -, offset, _, -, named, written⟩ := (parse_stops_earliest text).1 _ _ _ stops
  obtain ⟨-, continued, -⟩ := (parse_stops_earliest "(1 +").2.1 _ stopsAtEnd
  cases named
  exact ⟨stops, parsed, written, stopsAtEnd, continued⟩

end Calculator
