/-
Module: Calculator.Proofs.ParserState
Purpose: What holds of the two stacks of a parser after every token it accepts. The pending operators are not
  sorted by power: a sign or an assignment enters without folding, whatever lies below it. So the invariant
  is local. It compares each pending operator with its left operand and with the one entry below it, and ties
  the stacks to the symbols read so far. Whether a token is accepted, on the other hand, depends only on its
  position and on the number of open parentheses (`Shape`).
Main exports: Tighter, Fits, Layered, foldWhile_topped, foldWhile_zero, Reads, Shape, step_of_next,
  step_refused, run_of_after, reads_of_run, exists_refused_of_run, next_of_refused, finish_of_complete,
  finish_of_incomplete, parseTokens_of_after, after_of_parseTokens
-/
import Calculator.Parser.Consumed

namespace Calculator.Parser

/-! ### Trees on a stack of pending operators -/

/-- The operator on top leaves its right operand to one that enters with `power`. An open parenthesis leaves
    it to every operator. -/
def Tighter (power : Nat) : List Pending → Prop
  | .op lower :: _ => lower.rightPower < power
  | _ => True

/-- Every operator whose right operand ends where the tree ends holds it against `power`. -/
def EndsTight (power : Nat) (tree : Expr) : Prop :=
  ∀ inner ∈ tree.rightEdge, power ≤ inner.rightPower

/-- No constant in the tree is negative. -/
def Unsigned : Expr → Prop
  | .const value => 0 ≤ value
  | .sign _ operand | .unknownSign _ operand => Unsigned operand
  | .group inner => Unsigned inner
  | .binary _ left right | .unknownBinary _ left right => Unsigned left ∧ Unsigned right
  | .var _ | .unsupported => True

/-- The tree can stand as it is behind the pending operators: the top one takes no operator away from it. -/
structure Fits (pending : List Pending) (tree : Expr) : Prop where
  grouped : tree.Grouped
  unsigned : Unsigned tree
  tighter : ∀ inner ∈ tree.leftEdge, Tighter inner.leftPower pending

theorem tighter_entering (pending : List Pending) : Tighter Operator.entering pending := by
  unfold Tighter
  split
  · exact Operator.rightPower_lt_entering _
  · trivial

/-- Folding for the power zero stops at parentheses only. -/
theorem eq_nil_or_openParen_of_tighter {pending : List Pending} (tighter : Tighter 0 pending) :
    pending = [] ∨ ∃ below, pending = .openParen :: below := by
  cases pending with
  | nil => exact Or.inl rfl
  | cons top below =>
      cases top with
      | openParen => exact Or.inr ⟨below, rfl⟩
      | op lower => exact absurd tighter (Nat.not_lt_zero _)

theorem fits_sign {op : Sign} {pending : List Pending} {operand : Expr}
    (fits : Fits (.op (.sign op) :: pending) operand) : Fits pending (.sign op operand) := by
  refine ⟨⟨fits.grouped, fits.tighter⟩, fits.unsigned, ?_⟩
  intro inner member
  cases member

theorem fits_binary {op : InfixOp} {pending : List Pending} {left right : Expr}
    (leftFits : Fits pending left) (ends : EndsTight (Operator.between op).leftPower left)
    (tighter : Tighter (Operator.between op).leftPower pending)
    (rightFits : Fits (.op (.between op) :: pending) right) :
    Fits pending (.binary op left right) := by
  refine ⟨⟨leftFits.grouped, rightFits.grouped, ends, rightFits.tighter⟩,
    ⟨leftFits.unsigned, rightFits.unsigned⟩, ?_⟩
  intro inner member
  rcases List.mem_cons.mp member with rfl | member
  · exact tighter
  · exact leftFits.tighter inner member

theorem endsTight_sign {power : Nat} {op : Sign} {operand : Expr}
    (holds : power ≤ (Operator.sign op).rightPower) (ends : EndsTight power operand) :
    EndsTight power (.sign op operand) := by
  intro inner member
  rcases List.mem_cons.mp member with rfl | member
  · exact holds
  · exact ends inner member

theorem endsTight_binary {power : Nat} {op : InfixOp} {left right : Expr}
    (holds : power ≤ (Operator.between op).rightPower) (ends : EndsTight power right) :
    EndsTight power (.binary op left right) := by
  intro inner member
  rcases List.mem_cons.mp member with rfl | member
  · exact holds
  · exact ends inner member

/-! ### The stacks below an operand -/

/-- The stacks in operand position, bottom first, with the symbols that they stand for. An operator between
    two operands lies on its left one, which ends in operators that hold at least as tight as it does. -/
inductive Layered : List Pending → List Expr → List Symbol → Prop where
  | bottom : Layered [] [] []
  | openParen {pending : List Pending} {operands : List Expr} {symbols : List Symbol}
      (below : Layered pending operands symbols) :
      Layered (.openParen :: pending) operands (symbols ++ [.openParen])
  | sign (op : Sign) {pending : List Pending} {operands : List Expr} {symbols : List Symbol}
      (below : Layered pending operands symbols) :
      Layered (.op (.sign op) :: pending) operands (symbols ++ [op.symbol])
  | between (op : InfixOp) {pending : List Pending} {operands : List Expr} {symbols : List Symbol}
      {left : Expr} (below : Layered pending operands symbols) (fits : Fits pending left)
      (ends : EndsTight (Operator.between op).leftPower left)
      (tighter : Tighter (Operator.between op).leftPower pending) :
      Layered (.op (.between op) :: pending) (left :: operands) (symbols ++ left.symbols ++ [op.symbol])

/-- The stacks with one more operand on top, which holds all that it ends in against `power`. -/
inductive Topped (power : Nat) : List Pending → List Expr → List Symbol → Prop where
  | intro {pending : List Pending} {operands : List Expr} {symbols : List Symbol} {last : Expr}
      (below : Layered pending operands symbols) (fits : Fits pending last)
      (ends : EndsTight power last) : Topped power pending (last :: operands) (symbols ++ last.symbols)

/-- How many parentheses are open. -/
def depth (pending : List Pending) : Nat :=
  pending.count .openParen

@[simp] theorem depth_openParen (pending : List Pending) :
    depth (.openParen :: pending) = depth pending + 1 :=
  List.count_cons_self

@[simp] theorem depth_op (operator : Operator) (pending : List Pending) :
    depth (.op operator :: pending) = depth pending :=
  List.count_cons_of_ne (by simp)

theorem foldWhile_of_tighter {power : Nat} {pending : List Pending} (tighter : Tighter power pending)
    (operands : List Expr) : foldWhile power pending operands = .ok (pending, operands) := by
  unfold foldWhile
  split
  · rw [if_neg (Nat.not_le_of_lt tighter)]
  · rfl

/-- With an operand on top no fold fails. The folds keep the symbols, leave every open parenthesis in place
    and stop where the operator that enters with `power` belongs. -/
theorem foldWhile_topped {power : Nat} {pending : List Pending} {operands : List Expr}
    {symbols : List Symbol} (topped : Topped power pending operands symbols) :
    ∃ pending' operands', foldWhile power pending operands = .ok (pending', operands') ∧
      Topped power pending' operands' symbols ∧ Tighter power pending' ∧
      depth pending' = depth pending := by
  obtain ⟨below, fits, ends⟩ := topped
  rename_i operands symbols last
  -- each fold makes the top operand the operand of a layer that is then gone
  induction below generalizing last with
  | bottom => exact ⟨_, _, rfl, .intro .bottom fits ends, trivial, rfl⟩
  | openParen below _ => exact ⟨_, _, rfl, .intro (.openParen below) fits ends, trivial, rfl⟩
  | sign op below ih =>
      rw [foldWhile]
      split
      · rename_i holds
        obtain ⟨pending', operands', folded, topped, tighter, same⟩ :=
          ih (fits_sign fits) (endsTight_sign holds ends)
        refine ⟨pending', operands', folded, ?_, tighter, by rw [same, depth_op]⟩
        rw [List.append_assoc]
        exact topped
      · rename_i stops
        exact ⟨_, _, rfl, .intro (.sign op below) fits ends, Nat.lt_of_not_le stops, rfl⟩
  | between op below leftFits leftEnds tighter ih =>
      rw [foldWhile]
      split
      · rename_i holds
        obtain ⟨pending', operands', folded, topped, tighter', same⟩ :=
          ih (fits_binary leftFits leftEnds tighter fits) (endsTight_binary holds ends)
        refine ⟨pending', operands', folded, ?_, tighter', by rw [same, depth_op]⟩
        rw [List.append_assoc, List.append_assoc]
        exact topped
      · rename_i stops
        exact ⟨_, _, rfl, .intro (.between op below leftFits leftEnds tighter) fits ends,
          Nat.lt_of_not_le stops, rfl⟩

/-- Folding for the power zero leaves one tree, or stops at the innermost parenthesis that is open with the
    tree behind it on top. -/
theorem foldWhile_zero {pending : List Pending} {operands : List Expr} {symbols : List Symbol}
    (topped : Topped 0 pending operands symbols) :
    (depth pending = 0 ∧ ∃ tree, foldWhile 0 pending operands = .ok ([], [tree]) ∧ Fits [] tree ∧
      tree.symbols = symbols) ∨
    ∃ outside below before inner, depth pending = depth outside + 1 ∧
      foldWhile 0 pending operands = .ok (.openParen :: outside, inner :: below) ∧
      Layered outside below before ∧ Fits (.openParen :: outside) inner ∧
      symbols = before ++ .openParen :: inner.symbols := by
  obtain ⟨pending', operands', folded, ⟨below, fits, -⟩, tighter, same⟩ := foldWhile_topped topped
  rcases eq_nil_or_openParen_of_tighter tighter with rfl | ⟨outside, rfl⟩
  · cases below
    exact Or.inl ⟨same.symm, _, folded, fits, rfl⟩
  · cases below with
    | openParen below =>
        rw [depth_openParen] at same
        exact Or.inr ⟨outside, _, _, _, same.symm, folded, below, fits, List.append_assoc ..⟩

/-! ### After a token -/

/-- A value or a group: a tree that neither starts nor ends in an operator. -/
structure Bare (tree : Expr) : Prop where
  grouped : tree.Grouped
  unsigned : Unsigned tree
  starts : tree.leftEdge = []
  ends : tree.rightEdge = []

/-- The parser has read `symbols`. After an operand this operand lies on top, bare: no operator has been
    folded since. -/
inductive Reads : Parser → List Symbol → Prop where
  | operand {pending : List Pending} {operands : List Expr} {symbols : List Symbol}
      (below : Layered pending operands symbols) : Reads ⟨operands, pending, true⟩ symbols
  | operator {pending : List Pending} {operands : List Expr} {symbols : List Symbol} {last : Expr}
      (below : Layered pending operands symbols) (bare : Bare last) :
      Reads ⟨last :: operands, pending, false⟩ (symbols ++ last.symbols)

theorem bare_const (value : Nat) : Bare (.const value) :=
  ⟨trivial, Int.natCast_nonneg value, rfl, rfl⟩

theorem bare_var (name : String) : Bare (.var name) :=
  ⟨trivial, trivial, rfl, rfl⟩

theorem bare_group {pending : List Pending} {inner : Expr} (fits : Fits pending inner) :
    Bare (.group inner) :=
  ⟨fits.grouped, fits.unsigned, rfl, rfl⟩

theorem reads_start : Reads start [] :=
  .operand .bottom

theorem topped_of_bare (power : Nat) {pending : List Pending} {operands : List Expr}
    {symbols : List Symbol} {last : Expr} (below : Layered pending operands symbols) (bare : Bare last) :
    Topped power pending (last :: operands) (symbols ++ last.symbols) := by
  refine .intro below ⟨bare.grouped, bare.unsigned, ?_⟩ ?_
  · simp [bare.starts]
  · simp [EndsTight, bare.ends]

/-- What decides which tokens may come next. -/
structure Shape where
  expectOperand : Bool
  depth : Nat
deriving DecidableEq, Repr

/-- The shape of a parser. -/
def shape (parser : Parser) : Shape :=
  ⟨parser.expectOperand, depth parser.pending⟩

namespace Shape

/-- The shape after one more symbol, if that symbol may come. -/
def next? : Shape → Symbol → Option Shape
  | ⟨true, depth⟩, .const _ | ⟨true, depth⟩, .var _ => some ⟨false, depth⟩
  | ⟨true, depth⟩, .plus | ⟨true, depth⟩, .minus => some ⟨true, depth⟩
  | ⟨true, depth⟩, .openParen => some ⟨true, depth + 1⟩
  | ⟨false, depth⟩, .plus | ⟨false, depth⟩, .minus | ⟨false, depth⟩, .times | ⟨false, depth⟩, .divide
  | ⟨false, depth⟩, .assign => some ⟨true, depth⟩
  | ⟨false, depth + 1⟩, .closeParen => some ⟨false, depth⟩
  | _, _ => none

/-- The shape after all symbols of a list, if they may come. -/
def after? (shape : Shape) : List Symbol → Option Shape
  | [] => some shape
  | symbol :: rest => (shape.next? symbol).bind (·.after? rest)

/-- Nothing read yet. -/
def start : Shape :=
  ⟨true, 0⟩

/-- An expression is complete: an operand has ended and no parenthesis is open. -/
def complete : Shape :=
  ⟨false, 0⟩

theorem after?_append (shape : Shape) (first second : List Symbol) :
    shape.after? (first ++ second) = (shape.after? first).bind (·.after? second) := by
  induction first generalizing shape with
  | nil => rfl
  | cons symbol rest ih =>
      rw [List.cons_append, after?, after?]
      cases shape.next? symbol with
      | none => rfl
      | some next => exact ih next

end Shape

/-- A sign enters without folding. -/
theorem pushOperator_enters (op : Sign) (operands : List Expr) (pending : List Pending) :
    pushOperator ⟨operands, pending, true⟩ (.sign op) = .ok ⟨operands, .op (.sign op) :: pending, true⟩ := by
  have stays : foldWhile (Operator.sign op).leftPower pending operands = .ok (pending, operands) :=
    foldWhile_of_tighter (tighter_entering pending) operands
  rw [pushOperator, stays]

theorem pushOperator_sign (op : Sign) {pending : List Pending} {operands : List Expr}
    {symbols : List Symbol} (below : Layered pending operands symbols) :
    ∃ next, pushOperator ⟨operands, pending, true⟩ (.sign op) = .ok next ∧
      Reads next (symbols ++ [op.symbol]) ∧ next.shape = ⟨true, depth pending⟩ := by
  refine ⟨_, pushOperator_enters op operands pending, .operand (.sign op below), ?_⟩
  rw [shape, depth_op]

theorem pushOperator_between (op : InfixOp) {pending : List Pending} {operands : List Expr}
    {symbols : List Symbol} (topped : Topped (Operator.between op).leftPower pending operands symbols) :
    ∃ next, pushOperator ⟨operands, pending, false⟩ (.between op) = .ok next ∧
      Reads next (symbols ++ [op.symbol]) ∧ next.shape = ⟨true, depth pending⟩ := by
  obtain ⟨pending', operands', folded, ⟨below, fits, ends⟩, tighter, same⟩ := foldWhile_topped topped
  refine ⟨_, by rw [pushOperator, folded], .operand (.between op below fits ends tighter), ?_⟩
  rw [shape, depth_op, same]

theorem closeGroup_open (pos : Nat) {pending : List Pending} {operands : List Expr}
    {symbols : List Symbol} (topped : Topped 0 pending operands symbols) {outer : Nat}
    (opened : depth pending = outer + 1) :
    ∃ next, closeGroup ⟨operands, pending, false⟩ pos = .ok next ∧
      Reads next (symbols ++ [.closeParen]) ∧ next.shape = ⟨false, outer⟩ := by
  rcases foldWhile_zero topped with ⟨closed, -⟩ | ⟨outside, _, _, inner, same, folded, below, fits, rfl⟩
  · rw [opened] at closed
    cases closed
  · rw [opened] at same
    refine ⟨_, by rw [closeGroup, folded], ?_, ?_⟩
    · simpa [Expr.symbols] using Reads.operator below (bare_group fits)
    · rw [shape, Nat.succ.inj same]

theorem closeGroup_unmatched (pos : Nat) {pending : List Pending} {operands : List Expr}
    {symbols : List Symbol} (topped : Topped 0 pending operands symbols) (closed : depth pending = 0) :
    closeGroup ⟨operands, pending, false⟩ pos = .error (.unmatchedClose pos) := by
  rcases foldWhile_zero topped with ⟨-, tree, folded, -⟩ | ⟨outside, _, _, _, same, -⟩
  · rw [closeGroup, folded]
  · rw [closed] at same
    cases same

theorem step_sign (op : Sign) {token : Token} (same : token.symbol = op.symbol) (operands : List Expr)
    (pending : List Pending) :
    step ⟨operands, pending, true⟩ token = .ok ⟨operands, .op (.sign op) :: pending, true⟩ := by
  have pushed := pushOperator_enters op operands pending
  rw [step, if_pos rfl, stepOperand, same]
  cases op <;> exact pushed

theorem step_eq_pushOperator (op : InfixOp) {token : Token} (same : token.symbol = op.symbol)
    (operands : List Expr) (pending : List Pending) :
    step ⟨operands, pending, false⟩ token = pushOperator ⟨operands, pending, false⟩ (.between op) := by
  rw [step, if_neg Bool.false_ne_true, stepOperator, same]
  rcases op with (_ | _ | _ | _) | _ <;> rfl

theorem step_eq_closeGroup {token : Token} (same : token.symbol = .closeParen) (operands : List Expr)
    (pending : List Pending) :
    step ⟨operands, pending, false⟩ token = closeGroup ⟨operands, pending, false⟩ token.pos := by
  rw [step, if_neg Bool.false_ne_true, stepOperator, same]

/-- A token that may come is accepted, whatever lies on the stacks. -/
theorem step_of_next {parser : Parser} {symbols : List Symbol} {token : Token} {after : Shape}
    (reads : Reads parser symbols) (next : parser.shape.next? token.symbol = some after) :
    ∃ parser', parser.step token = .ok parser' ∧ Reads parser' (symbols ++ [token.symbol]) ∧
      parser'.shape = after := by
  obtain ⟨symbol, pos⟩ := token
  cases reads with
  | operand below =>
      cases symbol with
      | const value =>
          cases next
          exact ⟨_, rfl, .operator below (bare_const value), rfl⟩
      | var name =>
          cases next
          exact ⟨_, rfl, .operator below (bare_var name), rfl⟩
      | plus =>
          cases next
          exact pushOperator_sign .plus below
      | minus =>
          cases next
          exact pushOperator_sign .minus below
      | openParen =>
          cases next
          exact ⟨_, rfl, .operand (.openParen below), congrArg (Shape.mk true) (depth_openParen _)⟩
      | times | divide | assign | closeParen | unexpected => cases next
  | operator below bare =>
      have topped := fun power => topped_of_bare power below bare
      cases symbol with
      | plus =>
          cases next
          exact pushOperator_between (.arith .add) (topped _)
      | minus =>
          cases next
          exact pushOperator_between (.arith .sub) (topped _)
      | times =>
          cases next
          exact pushOperator_between (.arith .mul) (topped _)
      | divide =>
          cases next
          exact pushOperator_between (.arith .div) (topped _)
      | assign =>
          cases next
          exact pushOperator_between .assign (topped _)
      | closeParen =>
          rename_i pending operands symbols last
          rw [shape] at next
          cases opened : depth pending with
          | zero =>
              rw [opened] at next
              cases next
          | succ outer =>
              rw [opened] at next
              cases next
              exact closeGroup_open pos (topped 0) opened
      | const | var | openParen | unexpected => cases next

/-- A token that may not come is refused with an error that names its place. -/
theorem step_refused {parser : Parser} {symbols : List Symbol} {token : Token}
    (reads : Reads parser symbols) (next : parser.shape.next? token.symbol = none) :
    ∃ cause, parser.step token = .error cause ∧ cause.pos? = some token.pos := by
  obtain ⟨symbol, pos⟩ := token
  cases reads with
  | operand below =>
      cases symbol with
      | times | divide | assign | closeParen | unexpected => exact ⟨_, rfl, rfl⟩
      | const | var | plus | minus | openParen => cases next
  | operator below bare =>
      cases symbol with
      | const | var | openParen | unexpected => exact ⟨_, rfl, rfl⟩
      | closeParen =>
          rename_i pending operands symbols last
          have topped := topped_of_bare 0 below bare
          rw [shape] at next
          cases opened : depth pending with
          | zero => exact ⟨_, closeGroup_unmatched pos topped opened, rfl⟩
          | succ outer =>
              rw [opened] at next
              cases next
      | plus | minus | times | divide | assign => cases next

/-- A list of tokens that may come is accepted as a whole. -/
theorem run_of_after {parser : Parser} {symbols : List Symbol} {tokens : List Token} {after : Shape}
    (reads : Reads parser symbols)
    (may : parser.shape.after? (tokens.map Token.symbol) = some after) :
    ∃ parser', parser.run tokens = .ok parser' ∧ Reads parser' (symbols ++ tokens.map Token.symbol) ∧
      parser'.shape = after := by
  induction tokens generalizing parser symbols with
  | nil =>
      cases may
      exact ⟨parser, rfl, by rwa [List.map_nil, List.append_nil], rfl⟩
  | cons token rest ih =>
      obtain ⟨between, next, may⟩ := Option.bind_eq_some_iff.mp may
      obtain ⟨parser₁, stepped, reads₁, rfl⟩ := step_of_next reads next
      obtain ⟨parser₂, ran, reads₂, reached⟩ := ih reads₁ may
      refine ⟨parser₂, by rw [run, stepped]; exact ran, ?_, reached⟩
      rw [List.append_assoc] at reads₂
      exact reads₂

/-- A list of tokens that may not come is refused at one of them. -/
theorem run_refused {parser : Parser} {symbols : List Symbol} {tokens : List Token}
    (reads : Reads parser symbols) (may : parser.shape.after? (tokens.map Token.symbol) = none) :
    ∃ cause, parser.run tokens = .error cause := by
  induction tokens generalizing parser symbols with
  | nil => cases may
  | cons token rest ih =>
      cases next : parser.shape.next? token.symbol with
      | none =>
          obtain ⟨cause, refused, -⟩ := step_refused reads next
          exact ⟨cause, by rw [run, refused]⟩
      | some between =>
          obtain ⟨parser₁, stepped, reads₁, rfl⟩ := step_of_next reads next
          rw [List.map_cons, Shape.after?, next] at may
          obtain ⟨cause, refused⟩ := ih reads₁ may
          exact ⟨cause, by rw [run, stepped]; exact refused⟩

/-- What a run has read: the tokens in order. Whether it could read them shows in the shapes alone. -/
theorem reads_of_run {parser parser' : Parser} {symbols : List Symbol} {tokens : List Token}
    (reads : Reads parser symbols) (ran : parser.run tokens = .ok parser') :
    Reads parser' (symbols ++ tokens.map Token.symbol) ∧
      parser.shape.after? (tokens.map Token.symbol) = some parser'.shape := by
  cases may : parser.shape.after? (tokens.map Token.symbol) with
  | none =>
      obtain ⟨cause, refused⟩ := run_refused reads may
      rw [ran] at refused
      cases refused
  | some after =>
      obtain ⟨parser'', ran', reads', reached⟩ := run_of_after reads may
      rw [ran] at ran'
      cases ran'
      exact ⟨reads', congrArg some reached.symm⟩

/-- A run that fails stops at one token, after those before it were accepted. -/
theorem exists_refused_of_run {parser : Parser} {tokens : List Token} {cause : SyntaxError}
    (failed : parser.run tokens = .error cause) :
    ∃ before token rest between, tokens = before ++ token :: rest ∧ parser.run before = .ok between ∧
      between.step token = .error cause := by
  induction tokens generalizing parser with
  | nil => cases failed
  | cons token rest ih =>
      rw [run] at failed
      cases stepped : parser.step token with
      | error other =>
          rw [stepped] at failed
          cases failed
          exact ⟨[], token, rest, parser, rfl, rfl, stepped⟩
      | ok next =>
          rw [stepped] at failed
          obtain ⟨before, last, more, between, rfl, ran, refused⟩ := ih failed
          refine ⟨token :: before, last, more, between, rfl, ?_, refused⟩
          rw [run, stepped]
          exact ran

/-- A token that is refused may not come, and its error names its place. -/
theorem next_of_refused {parser : Parser} {symbols : List Symbol} {token : Token} {cause : SyntaxError}
    (reads : Reads parser symbols) (refused : parser.step token = .error cause) :
    parser.shape.next? token.symbol = none ∧ cause.pos? = some token.pos := by
  cases next : parser.shape.next? token.symbol with
  | some after =>
      obtain ⟨parser', stepped, -⟩ := step_of_next reads next
      rw [refused] at stepped
      cases stepped
  | none =>
      obtain ⟨other, refused', named⟩ := step_refused reads next
      rw [refused] at refused'
      cases refused'
      exact ⟨rfl, named⟩

/-! ### After the last token -/

/-- How many operators between two operands are waiting. -/
def infixes : List Pending → Nat
  | [] => 0
  | .op (.between _) :: below => infixes below + 1
  | _ :: below => infixes below

/-- Each of them lies on one operand. -/
theorem length_of_layered {pending : List Pending} {operands : List Expr} {symbols : List Symbol}
    (layered : Layered pending operands symbols) : operands.length = infixes pending := by
  induction layered with
  | bottom => rfl
  | openParen _ ih => exact ih
  | sign op _ ih => exact ih
  | between op _ _ _ _ ih => rw [List.length_cons, infixes, ih]

/-- Folding an operator between two operands takes one operand away, folding a sign takes none. -/
theorem length_of_foldWhile {power : Nat} {pending pending' : List Pending} {operands operands' : List Expr}
    (folded : foldWhile power pending operands = .ok (pending', operands')) :
    operands'.length + infixes pending = operands.length + infixes pending' := by
  induction pending generalizing operands with
  | nil =>
      cases folded
      rfl
  | cons top below ih =>
      cases top with
      | openParen =>
          cases folded
          rfl
      | op operator =>
          rw [foldWhile] at folded
          split at folded
          · match operator, operands, folded with
            | .sign op, operand :: more, folded => exact @ih (.sign op operand :: more) folded
            | .between op, right :: left :: more, folded =>
                have rest := @ih (.binary op left right :: more) folded
                simp only [List.length_cons, infixes] at rest ⊢
                omega
          · cases folded
            rfl

theorem finish_closed {pending : List Pending} {operands : List Expr} {symbols : List Symbol}
    (topped : Topped 0 pending operands symbols) (closed : depth pending = 0) :
    ∃ tree, finish ⟨operands, pending, false⟩ = .ok tree ∧ tree.Grouped ∧ Unsigned tree ∧
      tree.symbols = symbols := by
  rcases foldWhile_zero topped with ⟨-, tree, folded, fits, reads⟩ | ⟨outside, _, _, _, same, -⟩
  · exact ⟨tree, by rw [finish, folded], fits.grouped, fits.unsigned, reads⟩
  · rw [closed] at same
    cases same

theorem finish_unclosed {pending : List Pending} {operands : List Expr} {symbols : List Symbol}
    (topped : Topped 0 pending operands symbols) (opened : depth pending ≠ 0) :
    finish ⟨operands, pending, false⟩ = .error .unmatchedOpen := by
  rcases foldWhile_zero topped with ⟨closed, -⟩ | ⟨outside, _, _, _, -, folded, -⟩
  · exact absurd closed opened
  · rw [finish, folded]

/-- Where an operand is missing no tree comes out: the operands are as many as the operators that each need
    one more, so the folds run out of them. -/
theorem finish_truncated {pending : List Pending} {operands : List Expr} {symbols : List Symbol}
    (below : Layered pending operands symbols) :
    ∃ cause, finish ⟨operands, pending, true⟩ = .error cause := by
  cases folded : foldWhile 0 pending operands with
  | error cause => exact ⟨cause, by rw [finish, folded]⟩
  | ok folds =>
      obtain ⟨pending', operands'⟩ := folds
      cases pending' with
      | cons top rest => exact ⟨_, by rw [finish, folded]⟩
      | nil =>
          have balance := length_of_foldWhile folded
          rw [length_of_layered below, infixes, Nat.add_comm, Nat.add_left_cancel_iff] at balance
          obtain rfl := List.eq_nil_of_length_eq_zero balance
          exact ⟨_, by rw [finish, folded]⟩

/-- Once an expression is complete its tree comes out: it is grouped and reads as the symbols. -/
theorem finish_of_complete {parser : Parser} {symbols : List Symbol} (reads : Reads parser symbols)
    (complete : parser.shape = Shape.complete) :
    ∃ tree, parser.finish = .ok tree ∧ tree.Grouped ∧ Unsigned tree ∧ tree.symbols = symbols := by
  cases reads with
  | operand below => cases complete
  | operator below bare =>
      have topped := topped_of_bare 0 below bare
      exact finish_closed topped (congrArg Shape.depth complete)

/-- Without an operand at the end, or with a parenthesis open, there is no tree. -/
theorem finish_of_incomplete {parser : Parser} {symbols : List Symbol} (reads : Reads parser symbols)
    (incomplete : parser.shape ≠ Shape.complete) : ∃ cause, parser.finish = .error cause := by
  cases reads with
  | operand below => exact finish_truncated below
  | operator below bare =>
      have topped := topped_of_bare 0 below bare
      refine ⟨_, finish_unclosed topped ?_⟩
      intro closed
      exact incomplete (congrArg (Shape.mk false) closed)

/-! ### Whole parses -/

/-- Tokens that may come and complete an expression are parsed to a grouped tree that reads as they do. -/
theorem parseTokens_of_after {tokens : List Token}
    (may : Shape.start.after? (tokens.map Token.symbol) = some Shape.complete) :
    ∃ tree, parseTokens tokens = .ok tree ∧ tree.Grouped ∧ Unsigned tree ∧
      tree.symbols = tokens.map Token.symbol := by
  obtain ⟨parser, ran, reads, complete⟩ := run_of_after reads_start may
  obtain ⟨tree, finished, result⟩ := finish_of_complete reads complete
  exact ⟨tree, by rw [parseTokens, ran]; exact finished, result⟩

/-- All other tokens are refused. -/
theorem parseTokens_refused {tokens : List Token}
    (mayNot : Shape.start.after? (tokens.map Token.symbol) ≠ some Shape.complete) :
    ∃ cause, parseTokens tokens = .error cause := by
  cases may : Shape.start.after? (tokens.map Token.symbol) with
  | none =>
      obtain ⟨cause, refused⟩ := run_refused reads_start may
      exact ⟨cause, by rw [parseTokens, refused]⟩
  | some shape =>
      obtain ⟨parser, ran, reads, reached⟩ := run_of_after reads_start may
      have incomplete : parser.shape ≠ Shape.complete := by
        intro complete
        exact mayNot (by rw [may, ← reached, complete])
      obtain ⟨cause, refused⟩ := finish_of_incomplete reads incomplete
      exact ⟨cause, by rw [parseTokens, ran]; exact refused⟩

theorem after_of_parseTokens {tokens : List Token} {tree : Expr} (accepted : parseTokens tokens = .ok tree) :
    Shape.start.after? (tokens.map Token.symbol) = some Shape.complete := by
  apply Decidable.byContradiction
  intro mayNot
  obtain ⟨cause, refused⟩ := parseTokens_refused mayNot
  rw [accepted] at refused
  cases refused

end Calculator.Parser
