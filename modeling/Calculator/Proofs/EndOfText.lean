/-
Module: Calculator.Proofs.EndOfText
Purpose: What a text comes to whose tokens have all been accepted. Behind an operand, its tree comes out unless a
  parenthesis is still open. Where an operand is missing, the operators above the innermost open parenthesis are one
  operand short; an operator between two operands that waits below this parenthesis lends its left one, so that the
  folding goes through to the parenthesis, and without such an operator it fails before.
Main exports: Parser.innermost, Parser.outside, foldWhile_supplied, foldWhile_short, Parser.endCause,
  finish_awaiting, SyntaxError.eq_of_detail, RefusedWith, end_of_accepted_text
-/
import Calculator.Proofs.Respacing

namespace Calculator

namespace Parser

/-! ### Around the innermost parenthesis -/

/-- The pending operators above the innermost open parenthesis; all of them if none is open. -/
def innermost (pending : List Pending) : List Pending :=
  pending.takeWhile (· != .openParen)

/-- What is pending below the innermost open parenthesis; nothing if none is open. -/
def outside (pending : List Pending) : List Pending :=
  (pending.dropWhile (· != .openParen)).tail

/-- A stack is its innermost part, and below that a parenthesis with what lies outside of it, if one is open. -/
theorem split_at_openParen (pending : List Pending) :
    (pending = innermost pending ∧ outside pending = []) ∨
      pending = innermost pending ++ .openParen :: outside pending := by
  have whole : pending = innermost pending ++ pending.dropWhile (· != .openParen) :=
    List.takeWhile_append_dropWhile.symm
  rw [outside]
  cases rest : pending.dropWhile (· != .openParen) with
  | nil =>
      rw [rest, List.append_nil] at whole
      exact Or.inl ⟨whole, rfl⟩
  | cons top below =>
      have first : top = .openParen := by
        have stops := List.head?_dropWhile_not (· != Pending.openParen) pending
        simpa [rest] using stops
      rw [rest, first] at whole
      exact Or.inr whole

theorem openParen_notMem_innermost (pending : List Pending) : .openParen ∉ innermost pending := by
  intro among
  have other := List.all_eq_true.mp List.all_takeWhile _ among
  simp at other

theorem openParen_mem_of_mem_outside {pending : List Pending} {entry : Pending} (among : entry ∈ outside pending) :
    .openParen ∈ pending := by
  rcases split_at_openParen pending with ⟨-, nothing⟩ | whole
  · rw [nothing] at among
    cases among
  · rw [whole]
    exact List.mem_append_right _ List.mem_cons_self

theorem infixes_append (above below : List Pending) : infixes (above ++ below) = infixes above + infixes below := by
  induction above with
  | nil => rw [List.nil_append, infixes, Nat.zero_add]
  | cons top rest ih =>
      cases top with
      | openParen => exact ih
      | op operator =>
          cases operator with
          | sign => exact ih
          | between => rw [List.cons_append, infixes, infixes, ih, Nat.add_right_comm]

theorem infixes_ne_zero_iff {pending : List Pending} :
    infixes pending ≠ 0 ↔ ∃ op, .op (.between op) ∈ pending := by
  induction pending with
  | nil => simp [infixes]
  | cons top below ih =>
      cases top with
      | openParen => simpa [infixes] using ih
      | op operator =>
          cases operator with
          | sign => simpa [infixes] using ih
          | between => simp [infixes]

theorem infixes_eq (pending : List Pending) :
    infixes pending = infixes (innermost pending) + infixes (outside pending) := by
  rcases split_at_openParen pending with ⟨whole, nothing⟩ | whole
  · rw [nothing, ← whole, infixes, Nat.add_zero]
  · exact (congrArg infixes whole).trans (infixes_append _ _)

/-! ### Folding at the end -/

variable {above : List Pending} {operands : List Expr}

/-- With more operands than operators between two operands, all operators are folded. -/
theorem foldWhile_supplied (operators : .openParen ∉ above) (supplied : infixes above < operands.length)
    {rest : List Pending} (stops : Tighter 0 rest) :
    ∃ operands', foldWhile 0 (above ++ rest) operands = .ok (rest, operands') := by
  induction above generalizing operands with
  | nil => exact ⟨operands, foldWhile_of_tighter stops operands⟩
  | cons top above ih =>
      have others : .openParen ∉ above := fun among => operators (List.mem_cons_of_mem _ among)
      match top, operands, supplied with
      | .openParen, _, _ => exact absurd List.mem_cons_self operators
      | .op (.sign op), operand :: more, supplied => exact @ih (.sign op operand :: more) others supplied
      | .op (.between op), right :: left :: more, supplied =>
          have fewer : infixes above < (Expr.binary op left right :: more).length := Nat.lt_of_succ_lt_succ supplied
          exact ih others fewer

/-- With no more operands than operators between two operands, and an operator to fold, one finds none left. -/
theorem foldWhile_short (operators : .openParen ∉ above) (nonempty : above ≠ [])
    (short : operands.length ≤ infixes above) (rest : List Pending) :
    foldWhile 0 (above ++ rest) operands = .error .missingOperand := by
  induction above generalizing operands with
  | nil => exact absurd rfl nonempty
  | cons top above ih =>
      have others : .openParen ∉ above := fun among => operators (List.mem_cons_of_mem _ among)
      -- as long as there are operands, some operator below has to take them
      have waiting {count : Nat} (enough : count + 1 ≤ infixes above) : above ≠ [] := by
        rintro rfl
        exact Nat.not_succ_le_zero count enough
      match top, operands, short with
      | .openParen, _, _ => exact absurd List.mem_cons_self operators
      | .op (.sign _), [], _ | .op (.between _), [], _ | .op (.between _), [_], _ => rfl
      | .op (.sign op), operand :: more, short =>
          exact @ih (.sign op operand :: more) others (waiting short) short
      | .op (.between op), right :: left :: more, short =>
          have fewer : (Expr.binary op left right :: more).length ≤ infixes above := Nat.le_of_succ_le_succ short
          exact ih others (waiting fewer) fewer

/-- What is missing at the end of a text that stops where an operand has to start. -/
def endCause (pending : List Pending) : SyntaxError :=
  if pending = [] then .emptyExpression
  else if innermost pending = [] ∨ infixes (outside pending) ≠ 0 then .unmatchedOpen
  else .missingOperand

/-- The operands are as many as the operators between two operands, so those below the innermost parenthesis
    decide how far the folding goes. -/
theorem finish_awaiting {pending : List Pending} {symbols : List Symbol}
    (below : Layered pending operands symbols) :
    finish ⟨operands, pending, true⟩ = .error (endCause pending) := by
  have counted := (length_of_layered below).trans (infixes_eq pending)
  have operators := openParen_notMem_innermost pending
  by_cases nothing : pending = []
  · subst nothing
    cases below
    rfl
  rw [endCause, if_neg nothing]
  rcases split_at_openParen pending with ⟨whole, outermost⟩ | whole
  · -- no parenthesis is open: all operators are there and lack one operand
    rw [outermost, infixes, Nat.add_zero] at counted
    have nonempty : innermost pending ≠ [] := whole ▸ nothing
    have folded := foldWhile_short operators nonempty (Nat.le_of_eq counted) []
    rw [List.append_nil, ← whole] at folded
    rw [outermost, if_neg (by simp [nonempty, infixes]), finish, folded]
  · have stops : Tighter 0 (.openParen :: outside pending) := trivial
    by_cases empty : innermost pending = []
    · rw [if_pos (Or.inl empty), whole, empty, List.nil_append, finish, foldWhile_of_tighter stops]
    by_cases lent : infixes (outside pending) = 0
    · rw [lent, Nat.add_zero] at counted
      have folded := foldWhile_short operators empty (Nat.le_of_eq counted) (.openParen :: outside pending)
      rw [← whole] at folded
      rw [if_neg (by simp [empty, lent]), finish, folded]
    · have supplied : infixes (innermost pending) < operands.length := by omega
      obtain ⟨operands', folded⟩ := foldWhile_supplied operators supplied stops
      rw [← whole] at folded
      rw [if_pos (Or.inr lent), finish, folded]

/-! ### What the stacks decide -/

section Ending

variable {parser : Parser} {symbols : List Symbol} (reads : Reads parser symbols)
include reads

theorem finish_of_closed (ended : parser.expectOperand = false) (closed : .openParen ∉ parser.pending) :
    ∃ tree, parser.finish = .ok tree := by
  cases reads with
  | operand below => cases ended
  | operator below bare =>
      obtain ⟨tree, finished, -⟩ := finish_closed (topped_of_bare 0 below bare) (List.count_eq_zero.mpr closed)
      exact ⟨tree, finished⟩

theorem finish_of_opened (ended : parser.expectOperand = false) (opened : .openParen ∈ parser.pending) :
    parser.finish = .error .unmatchedOpen := by
  cases reads with
  | operand below => cases ended
  | operator below bare =>
      apply finish_unclosed (topped_of_bare 0 below bare)
      intro closed
      exact List.count_eq_zero.mp closed opened

theorem finish_of_awaiting (awaits : parser.expectOperand = true) :
    parser.finish = .error (endCause parser.pending) := by
  cases reads with
  | operand below => exact finish_awaiting below
  | operator below bare => cases awaits

/-- In operand position nothing is pending only before the first token. -/
theorem symbols_eq_nil (awaits : parser.expectOperand = true) (nothing : parser.pending = []) : symbols = [] := by
  cases reads with
  | operand below =>
      cases nothing
      cases below
      rfl
  | operator below bare => cases awaits

/-- Of the errors at the end, the one about an empty expression needs that nothing has been read, and the one about
    an operator does not come up. -/
theorem of_finish_error {cause : SyntaxError} (failed : parser.finish = .error cause) :
    (cause = .emptyExpression → symbols = []) ∧ cause ≠ .missingOperator := by
  cases awaits : parser.expectOperand with
  | true =>
      rw [finish_of_awaiting reads awaits, endCause] at failed
      split at failed
      · rename_i nothing
        cases failed
        exact ⟨fun _ => symbols_eq_nil reads awaits nothing, nofun⟩
      · split at failed <;> cases failed <;> exact ⟨nofun, nofun⟩
  | false =>
      by_cases opened : .openParen ∈ parser.pending
      · rw [finish_of_opened reads awaits opened] at failed
        cases failed
        exact ⟨nofun, nofun⟩
      · obtain ⟨tree, finished⟩ := finish_of_closed reads awaits opened
        rw [finished] at failed
        cases failed

end Ending

end Parser

/-! ### The wording of an error -/

/-- A cause that names no place is known by its wording: that of one with a place has a number in it. -/
theorem SyntaxError.eq_of_detail {cause other : SyntaxError} (unplaced : other.pos? = none)
    (same : cause.detail = other.detail) : cause = other := by
  have bothUnplaced : cause.pos? = none := by
    cases named : cause.pos? with
    | none => rfl
    | some pos =>
        obtain ⟨what, worded⟩ := message_of_pos? named
        have message : (EvalError.invalidSyntax other).message = s!"{what} at pos {pos}" :=
          (congrArg ("Invalid syntax: " ++ ·) same.symm).trans worded
        obtain ⟨digit, member⟩ : ∃ digit, digit ∈ (toString pos).toList := by
          apply List.exists_mem_of_ne_nil
          simp
        have isDigit := List.all_eq_true.mp (Literal.all_isDigit_numeral 0 pos) digit member
        refine absurd isDigit (message_of_pos?_none unplaced digit ?_)
        rw [message]
        exact String.toList_append ▸ List.mem_append_right _ member
  cases cause with
  | unexpected | expectedOperand | expectedOperator | unmatchedClose => cases bothUnplaced
  | unmatchedOpen | missingOperand | missingOperator | emptyExpression =>
      cases other with
      | unexpected | expectedOperand | expectedOperator | unmatchedClose => cases unplaced
      | unmatchedOpen | missingOperand | missingOperator | emptyExpression =>
          first
          | rfl
          | exact absurd same (by decide)

/-- The text is refused, and the error is worded so. -/
def RefusedWith (text detail : String) : Prop :=
  ∃ cause, parse text = .error cause ∧ cause.detail = detail

theorem refusedWith_iff {text : String} (cause : SyntaxError) (unplaced : cause.pos? = none) :
    RefusedWith text cause.detail ↔ parse text = .error cause := by
  constructor
  · rintro ⟨other, refused, same⟩
    rwa [SyntaxError.eq_of_detail unplaced same] at refused
  · intro refused
    exact ⟨cause, refused, rfl⟩

/-! ### Texts whose tokens are accepted -/

theorem parse_eq_finish {text : String} {parser : Parser} (ran : Parser.start.run (tokenize text) = .ok parser) :
    parse text = parser.finish := by
  rw [parse, parseTokens, ran]

theorem refusedWith_endCause {text : String} {parser : Parser}
    (ran : Parser.start.run (tokenize text) = .ok parser) (awaits : parser.expectOperand = true) :
    RefusedWith text (Parser.endCause parser.pending).detail := by
  obtain ⟨reads, -⟩ := Parser.reads_of_run Parser.reads_start ran
  exact ⟨_, (parse_eq_finish ran).trans (Parser.finish_of_awaiting reads awaits), rfl⟩

/-- An error that names no place comes up after the last token. -/
theorem finish_of_unplaced {text : String} {cause : SyntaxError} (unplaced : cause.pos? = none)
    (refused : parse text = .error cause) :
    ∃ parser, Parser.Reads parser ((tokenize text).map Token.symbol) ∧ parser.finish = .error cause := by
  rcases stopsAt_or_stopsAtEnd refused with ⟨before, token, stops⟩ | ⟨parser, ran, failed⟩
  · cases unplaced.symm.trans stops.pos?_eq
  · obtain ⟨reads, -⟩ := Parser.reads_of_run Parser.reads_start ran
    exact ⟨parser, reads, failed⟩

theorem refusedWith_emptyExpression_iff (text : String) :
    RefusedWith text "empty expression" ↔ tokenize text = [] := by
  apply (refusedWith_iff .emptyExpression rfl).trans
  constructor
  · intro refused
    obtain ⟨parser, reads, failed⟩ := finish_of_unplaced rfl refused
    exact List.map_eq_nil_iff.mp ((Parser.of_finish_error reads failed).1 rfl)
  · intro nothing
    rw [parse, nothing]
    rfl

theorem not_refusedWith_missingOperator (text : String) : ¬RefusedWith text "missing operator" := by
  intro worded
  have refused := (refusedWith_iff .missingOperator rfl).mp worded
  obtain ⟨parser, reads, failed⟩ := finish_of_unplaced rfl refused
  exact (Parser.of_finish_error reads failed).2 rfl

/-- **End of a text.** Once all tokens of a text are accepted, the pending operators tell what comes of it. Behind
    an operand, a tree if no parenthesis is open. Where an operand has to start, the error is about the parenthesis
    if nothing waits above the innermost open one, or if some operator between two operands waits below it, and
    about the operand otherwise. The expression is empty just for texts without tokens, and no text lacks an
    operator. -/
theorem end_of_accepted_text (text : String) :
    (∀ parser, Parser.start.run (tokenize text) = .ok parser →
      (parser.expectOperand = false →
        (.openParen ∉ parser.pending → ∃ tree, parse text = .ok tree) ∧
        (.openParen ∈ parser.pending → RefusedWith text "unmatched '('")) ∧
      (parser.expectOperand = true →
        (parser.pending = [] → RefusedWith text "empty expression") ∧
        (parser.pending ≠ [] → Parser.innermost parser.pending = [] → RefusedWith text "unmatched '('") ∧
        (Parser.innermost parser.pending ≠ [] →
          (.openParen ∈ parser.pending ∧ (∃ op, .op (.between op) ∈ Parser.outside parser.pending) →
            RefusedWith text "unmatched '('") ∧
          (¬(.openParen ∈ parser.pending ∧ ∃ op, .op (.between op) ∈ Parser.outside parser.pending) →
            RefusedWith text "missing operand")))) ∧
    (RefusedWith text "empty expression" ↔ tokenize text = []) ∧
    ¬RefusedWith text "missing operator" := by
  refine ⟨?_, refusedWith_emptyExpression_iff text, not_refusedWith_missingOperator text⟩
  intro parser ran
  obtain ⟨reads, -⟩ := Parser.reads_of_run Parser.reads_start ran
  have ended := parse_eq_finish ran
  refine ⟨?_, ?_⟩
  · intro behind
    constructor
    · intro closed
      rw [ended]
      exact Parser.finish_of_closed reads behind closed
    · intro opened
      exact ⟨_, ended.trans (Parser.finish_of_opened reads behind opened), rfl⟩
  · intro awaits
    have refused := refusedWith_endCause ran awaits
    rw [Parser.endCause] at refused
    refine ⟨?_, ?_, ?_⟩
    · intro nothing
      rwa [if_pos nothing] at refused
    · intro nonempty empty
      rwa [if_neg nonempty, if_pos (Or.inl empty)] at refused
    · intro waiting
      have nonempty : parser.pending ≠ [] := by
        intro nothing
        exact waiting (congrArg Parser.innermost nothing)
      rw [if_neg nonempty] at refused
      constructor
      · rintro ⟨-, lends⟩
        rwa [if_pos (Or.inr (Parser.infixes_ne_zero_iff.mpr lends))] at refused
      · intro noLender
        have noneLends : ¬Parser.infixes (Parser.outside parser.pending) ≠ 0 := by
          intro lends
          obtain ⟨op, among⟩ := Parser.infixes_ne_zero_iff.mp lends
          exact noLender ⟨Parser.openParen_mem_of_mem_outside among, op, among⟩
        rwa [if_neg (not_or.mpr ⟨waiting, noneLends⟩)] at refused

/-- The product in the parenthesis borrows its left operand from the sum that the parenthesis stands in, and a
    sign has none to lend. -/
theorem end_of_accepted_text_borrowed :
    let inSum : List Pending := [.op (.sign .minus), .op (.between (.arith .mul)), .openParen,
      .op (.between (.arith .add))]
    let inSign : List Pending := [.op (.sign .minus), .op (.between (.arith .mul)), .openParen, .op (.sign .minus)]
    Parser.start.run (tokenize "1 + (2 * -") = .ok ⟨[.const 2, .const 1], inSum, true⟩ ∧
      RefusedWith "1 + (2 * -" "unmatched '('" ∧
      Parser.start.run (tokenize "-(2 * -") = .ok ⟨[.const 2], inSign, true⟩ ∧
      RefusedWith "-(2 * -" "missing operand" := by
  intro inSum inSign
  have sumRan : Parser.start.run (tokenize "1 + (2 * -") = .ok ⟨[.const 2, .const 1], inSum, true⟩ := by rfl
  have signRan : Parser.start.run (tokenize "-(2 * -") = .ok ⟨[.const 2], inSign, true⟩ := by rfl
  obtain ⟨-, -, inside⟩ := ((end_of_accepted_text "1 + (2 * -").1 _ sumRan).2 rfl
  obtain ⟨-, -, inside'⟩ := ((end_of_accepted_text "-(2 * -").1 _ signRan).2 rfl
  have sumLends := (inside (by decide)).1 ⟨by decide, .arith .add, by decide⟩
  refine ⟨sumRan, sumLends, signRan, (inside' (by decide)).2 ?_⟩
  rintro ⟨-, op, among⟩
  have others : .op (.between op) ∈ [Pending.op (.sign .minus)] := among
  simp at others

end Calculator
