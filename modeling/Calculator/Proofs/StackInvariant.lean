/-
Module: Calculator.Proofs.StackInvariant
Purpose: The two stacks of a parser after every token that it accepts. Read together they are the symbols read
  so far, and of two pending operators on one another the upper one binds tighter. No operand is found missing
  while tokens come in. Nor does a fold reach below an open parenthesis: above one there lie as many operands
  as the operators there take, so a token is handled alike whatever lies below it (`step_above`).
Main exports: consumed_of_reads, stacked_of_reads, run_ne_missingOperand, foldWhile_above, Balanced, Handles,
  step_above, StaysOpen, aboveOpen_of_staysOpen, stacks_after_tokens
-/
import Calculator.Proofs.ParserState

namespace Calculator.Parser

/-! ### The stacks and the symbols read -/

theorem before_of_layered {pending : List Pending} {operands : List Expr} {symbols : List Symbol}
    (layered : Layered pending operands symbols) : before pending operands = some symbols := by
  induction layered with
  | bottom => rfl
  | openParen _ ih => rw [before, ih, Option.map_some]
  | sign op _ ih => rw [before, ih, Option.map_some]
  | between op _ _ _ _ ih => rw [before, ih, Option.map_some]

/-- The stacks stand for what was read. -/
theorem consumed_of_reads {parser : Parser} {symbols : List Symbol} (reads : Reads parser symbols) :
    parser.consumed = some symbols := by
  cases reads with
  | operand below => exact before_of_layered below
  | operator below bare =>
      rw [consumed, if_neg Bool.false_ne_true]
      dsimp only
      rw [before_of_layered below, Option.map_some]

theorem stacked_cons {upper : Operator} {pending : List Pending} (tighter : Tighter upper.leftPower pending)
    (stacked : Stacked pending) : Stacked (.op upper :: pending) := by
  cases pending with
  | nil => exact stacked
  | cons top below =>
      cases top with
      | openParen => exact stacked
      | op lower => exact ⟨tighter, stacked⟩

/-- A sign binds tighter than anything below it, as it enters without folding. -/
theorem stacked_of_layered {pending : List Pending} {operands : List Expr} {symbols : List Symbol}
    (layered : Layered pending operands symbols) : Stacked pending := by
  induction layered with
  | bottom => trivial
  | openParen _ ih => exact ih
  | sign op _ ih => exact stacked_cons (tighter_entering _) ih
  | between op _ _ _ tighter ih => exact stacked_cons tighter ih

theorem stacked_of_reads {parser : Parser} {symbols : List Symbol} (reads : Reads parser symbols) :
    Stacked parser.pending := by
  cases reads with
  | operand below => exact stacked_of_layered below
  | operator below bare => exact stacked_of_layered below

/-- An operand is missing at the end only: an error at a token names its place. -/
theorem run_ne_missingOperand (tokens : List Token) : start.run tokens ≠ .error .missingOperand := by
  intro failed
  obtain ⟨before, token, rest, between, -, ran, refused⟩ := exists_refused_of_run failed
  obtain ⟨reads, -⟩ := reads_of_run reads_start ran
  cases (next_of_refused reads refused).2

/-! ### Above an open parenthesis -/

/-- With one operand more than the operators there take, folding stays above the parenthesis. -/
theorem foldWhile_above (power : Nat) {above : List Pending} {fresh : List Expr}
    (enough : fresh.length = infixes above + 1) (below : List Pending) :
    ∃ above' fresh', fresh'.length = infixes above' + 1 ∧ Tighter power (above' ++ .openParen :: below) ∧
      ∀ others, foldWhile power (above ++ .openParen :: below) (fresh ++ others) =
        .ok (above' ++ .openParen :: below, fresh' ++ others) := by
  induction above generalizing fresh with
  | nil => exact ⟨[], fresh, enough, trivial, fun _ => rfl⟩
  | cons top rest ih =>
      cases top with
      | openParen => exact ⟨.openParen :: rest, fresh, enough, trivial, fun _ => rfl⟩
      | op operator =>
          by_cases holds : power ≤ operator.rightPower
          · -- the fold takes its operands from the fresh ones and leaves the right number of them
            match operator, fresh, enough with
            | .sign op, operand :: more, enough =>
                obtain ⟨above', fresh', enough', tighter, folds⟩ := @ih (.sign op operand :: more) enough
                refine ⟨above', fresh', enough', tighter, ?_⟩
                intro others
                rw [List.cons_append, foldWhile, if_pos holds]
                exact folds others
            | .between op, right :: left :: more, enough =>
                obtain ⟨above', fresh', enough', tighter, folds⟩ :=
                  @ih (.binary op left right :: more) (Nat.succ.inj enough)
                refine ⟨above', fresh', enough', tighter, ?_⟩
                intro others
                rw [List.cons_append, foldWhile, if_pos holds]
                exact folds others
          · refine ⟨.op operator :: rest, fresh, enough, Nat.lt_of_not_le holds, ?_⟩
            intro others
            rw [List.cons_append, foldWhile, if_neg holds]

/-- The operands above a parenthesis are those that the operators there take, and one more after an operand. -/
def Balanced (above : List Pending) (fresh : List Expr) (expectOperand : Bool) : Prop :=
  fresh.length = infixes above + if expectOperand then 0 else 1

/-- A parser with an open parenthesis on `below` and `others`, and more on top of it. -/
def aboveOpen (above : List Pending) (fresh : List Expr) (expectOperand : Bool) (below : List Pending)
    (others : List Expr) : Parser :=
  ⟨fresh ++ others, above ++ .openParen :: below, expectOperand⟩

/-- What a token comes to above an open parenthesis, whatever operands lie below it: it is refused, the
    parenthesis stays open, or the token closes it. -/
inductive Handles (token : Token) (above : List Pending) (fresh : List Expr) (expectOperand : Bool)
    (below : List Pending) : Prop where
  | refused (cause : SyntaxError)
      (steps : ∀ others, (aboveOpen above fresh expectOperand below others).step token = .error cause)
  | stays (above' : List Pending) (fresh' : List Expr) (expectOperand' : Bool)
      (balanced : Balanced above' fresh' expectOperand')
      (steps : ∀ others, (aboveOpen above fresh expectOperand below others).step token =
        .ok (aboveOpen above' fresh' expectOperand' below others))
  | closes (inner : Expr)
      (steps : ∀ others, (aboveOpen above fresh expectOperand below others).step token =
        .ok ⟨.group inner :: others, below, false⟩)

variable {above : List Pending} {fresh : List Expr}

theorem handles_infix (op : InfixOp) {token : Token} (same : token.symbol = op.symbol)
    (balanced : Balanced above fresh false) (below : List Pending) :
    Handles token above fresh false below := by
  obtain ⟨above', fresh', enough, -, folds⟩ :=
    foldWhile_above (Operator.between op).leftPower balanced below
  refine .stays (.op (.between op) :: above') fresh' true enough ?_
  intro others
  rw [aboveOpen, step_eq_pushOperator op same, pushOperator, folds]
  rfl

theorem handles_close {token : Token} (same : token.symbol = .closeParen)
    (balanced : Balanced above fresh false) (below : List Pending) :
    Handles token above fresh false below := by
  obtain ⟨above', fresh', enough, tighter, folds⟩ := foldWhile_above 0 balanced below
  cases above' with
  | nil =>
      obtain ⟨inner, rfl⟩ := List.length_eq_one_iff.mp enough
      refine .closes inner ?_
      intro others
      rw [aboveOpen, step_eq_closeGroup same, closeGroup, folds]
      rfl
  | cons top rest =>
      cases top with
      | op operator => exact absurd tighter (Nat.not_lt_zero _)
      | openParen =>
          obtain ⟨inner, more, rfl⟩ := List.exists_cons_of_length_eq_add_one enough
          refine .stays rest (.group inner :: more) false enough ?_
          intro others
          rw [aboveOpen, step_eq_closeGroup same, closeGroup, folds]
          rfl

/-- Above an open parenthesis no token looks at the operands below it. -/
theorem step_above (token : Token) {expectOperand : Bool} (balanced : Balanced above fresh expectOperand)
    (below : List Pending) : Handles token above fresh expectOperand below := by
  obtain ⟨symbol, pos⟩ := token
  cases expectOperand with
  | true =>
      cases symbol with
      | const value => exact .stays above (.const value :: fresh) false (congrArg (· + 1) balanced) fun _ => rfl
      | var name => exact .stays above (.var name :: fresh) false (congrArg (· + 1) balanced) fun _ => rfl
      | plus => exact .stays (.op (.sign .plus) :: above) fresh true balanced fun _ => step_sign .plus rfl _ _
      | minus => exact .stays (.op (.sign .minus) :: above) fresh true balanced fun _ => step_sign .minus rfl _ _
      | openParen => exact .stays (.openParen :: above) fresh true balanced fun _ => rfl
      | times | divide | assign | closeParen | unexpected => exact .refused _ fun _ => rfl
  | false =>
      cases symbol with
      | plus => exact handles_infix (.arith .add) rfl balanced below
      | minus => exact handles_infix (.arith .sub) rfl balanced below
      | times => exact handles_infix (.arith .mul) rfl balanced below
      | divide => exact handles_infix (.arith .div) rfl balanced below
      | assign => exact handles_infix .assign rfl balanced below
      | closeParen => exact handles_close rfl balanced below
      | const | var | openParen | unexpected => exact .refused _ fun _ => rfl

/-! ### While a parenthesis is open -/

/-- The parenthesis that `opening` puts on the pending operators of `outer` is still there after each token of
    `inside`. -/
def StaysOpen (outer : Parser) (opening : Token) (inside : List Token) : Prop :=
  ∀ part, part <+: inside →
    ∃ parser, outer.run (opening :: part) = .ok parser ∧ .openParen :: outer.pending <:+ parser.pending

theorem step_open {outer : Parser} {opening : Token} (same : opening.symbol = .openParen)
    {next : Parser} (accepted : outer.step opening = .ok next) :
    next = aboveOpen [] [] true outer.pending outer.operands := by
  obtain ⟨operands, pending, expectOperand⟩ := outer
  cases expectOperand with
  | true =>
      rw [step, if_pos rfl, stepOperand, same] at accepted
      cases accepted
      rfl
  | false =>
      rw [step, if_neg Bool.false_ne_true, stepOperator, same] at accepted
      cases accepted

/-- Tokens that leave the parenthesis open keep the stacks above it balanced and those below it as they are. -/
theorem aboveOpen_of_run {expectOperand : Bool} {below : List Pending} {others : List Expr}
    (balanced : Balanced above fresh expectOperand) {tokens : List Token} {parser : Parser}
    (ran : (aboveOpen above fresh expectOperand below others).run tokens = .ok parser)
    (stays : ∀ part, part <+: tokens → ∃ between,
      (aboveOpen above fresh expectOperand below others).run part = .ok between ∧
        .openParen :: below <:+ between.pending) :
    ∃ above' fresh' expectOperand', Balanced above' fresh' expectOperand' ∧
      parser = aboveOpen above' fresh' expectOperand' below others := by
  induction tokens generalizing above fresh expectOperand with
  | nil =>
      cases ran
      exact ⟨above, fresh, expectOperand, balanced, rfl⟩
  | cons token rest ih =>
      rw [run] at ran
      cases step_above token balanced below with
      | refused cause steps =>
          rw [steps] at ran
          cases ran
      | closes inner steps =>
          obtain ⟨between, alone, open'⟩ := stays [token] (List.prefix_append [token] rest)
          rw [run, steps] at alone
          cases alone
          exact absurd open'.length_le (Nat.not_succ_le_self _)
      | stays above' fresh' expectOperand' balanced' steps =>
          rw [steps] at ran
          apply ih balanced' ran
          intro part within
          have longer := stays (token :: part) (List.cons_prefix_cons.mpr ⟨rfl, within⟩)
          rw [run, steps] at longer
          exact longer

theorem aboveOpen_of_staysOpen {outer : Parser} {opening : Token} (same : opening.symbol = .openParen)
    {inside : List Token} (stays : outer.StaysOpen opening inside) {parser : Parser}
    (ran : outer.run (opening :: inside) = .ok parser) :
    ∃ above fresh expectOperand, Balanced above fresh expectOperand ∧
      parser = aboveOpen above fresh expectOperand outer.pending outer.operands := by
  rw [run] at ran
  cases opened : outer.step opening with
  | error cause =>
      rw [opened] at ran
      cases ran
  | ok next =>
      obtain rfl := step_open same opened
      rw [opened] at ran
      have balanced : Balanced [] [] true := rfl
      apply aboveOpen_of_run balanced ran
      intro part within
      have later := stays part within
      rw [run, opened] at later
      exact later

/-- **Stack invariant.** After any tokens that are accepted the stacks, read together, use up the operands and
    are the symbols of these tokens, and of two pending operators on one another the upper one binds tighter.
    So an operand is found missing only after the last token. And while a parenthesis stays open, the operands
    from before it stay where they are, and the next token is handled alike whatever they are and even if
    there are none: no fold takes one of them. -/
theorem stacks_after_tokens :
    (∀ tokens parser, start.run tokens = .ok parser →
      parser.consumed = some (tokens.map Token.symbol) ∧ Stacked parser.pending) ∧
    (∀ tokens, start.run tokens ≠ .error .missingOperand ∧
      (parseTokens tokens = .error .missingOperand →
        ∃ parser, start.run tokens = .ok parser ∧ parser.finish = .error .missingOperand)) ∧
    ∀ (outer : Parser) opening inside parser, opening.symbol = .openParen →
      outer.StaysOpen opening inside → outer.run (opening :: inside) = .ok parser →
      ∃ fresh, parser.operands = fresh ++ outer.operands ∧
        ∀ token, ∃ fresh', ∀ others,
          step { parser with operands := fresh ++ others } token =
            (parser.step token).map fun next => { next with operands := fresh' ++ others } := by
  refine ⟨?_, ?_, ?_⟩
  · intro tokens parser ran
    obtain ⟨reads, -⟩ := reads_of_run reads_start ran
    exact ⟨consumed_of_reads reads, stacked_of_reads reads⟩
  · intro tokens
    have inTime := run_ne_missingOperand tokens
    refine ⟨inTime, ?_⟩
    intro missing
    rw [parseTokens] at missing
    cases ran : start.run tokens with
    | ok parser =>
        rw [ran] at missing
        exact ⟨parser, rfl, missing⟩
    | error cause =>
        rw [ran] at missing
        cases missing
        exact absurd ran inTime
  · intro outer opening inside parser same stays ran
    obtain ⟨above, fresh, expectOperand, balanced, rfl⟩ := aboveOpen_of_staysOpen same stays ran
    refine ⟨fresh, rfl, ?_⟩
    intro token
    cases step_above token balanced outer.pending with
    | refused cause steps =>
        refine ⟨[], ?_⟩
        intro others
        rw [steps outer.operands]
        exact steps others
    | stays above' fresh' expectOperand' _ steps =>
        refine ⟨fresh', ?_⟩
        intro others
        rw [steps outer.operands]
        exact steps others
    | closes inner steps =>
        refine ⟨[.group inner], ?_⟩
        intro others
        rw [steps outer.operands]
        exact steps others

/-- The closing parenthesis folds the sum, and the product before the parenthesis keeps waiting. -/
theorem stacks_after_tokens_group :
    let outer : Parser := ⟨[.const 2], [.op (.between (.arith .mul))], true⟩
    let inside : List Token := [⟨.const 1, 3⟩, ⟨.plus, 4⟩, ⟨.const 3, 5⟩]
    let parser : Parser := ⟨[.const 3, .const 1, .const 2],
      [.op (.between (.arith .add)), .openParen, .op (.between (.arith .mul))], false⟩
    start.run (tokenize "2*(1+3") = .ok parser ∧
      parser.consumed = some ((tokenize "2*(1+3").map Token.symbol) ∧ Stacked parser.pending ∧
      outer.StaysOpen ⟨.openParen, 2⟩ inside ∧
      ∃ fresh, parser.operands = fresh ++ [.const 2] ∧
        ∀ token, ∃ fresh', ∀ others,
          step { parser with operands := fresh ++ others } token =
            (parser.step token).map fun next => { next with operands := fresh' ++ others } := by
  intro outer inside parser
  have ran : start.run (tokenize "2*(1+3") = .ok parser := by rfl
  obtain ⟨consumed, stacked⟩ := stacks_after_tokens.1 _ parser ran
  have stays : outer.StaysOpen ⟨.openParen, 2⟩ inside := by
    intro part within
    simp only [inside, List.prefix_cons_iff, List.prefix_nil] at within
    obtain rfl | ⟨_, rfl, rfl | ⟨_, rfl, rfl | ⟨_, rfl, rfl⟩⟩⟩ := within <;> exact ⟨_, rfl, by decide⟩
  exact ⟨ran, consumed, stacked, stays, stacks_after_tokens.2.2 outer _ inside parser rfl stays rfl⟩

end Calculator.Parser
