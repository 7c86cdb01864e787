/-
Module: Calculator.Proofs.GroupContext
Purpose: What stands in parentheses is read by itself. The tokens of an expression, put in parentheses where an
  operand has to start, leave nothing behind but one operand: the operators that waited before still wait, and no
  token behind can tell the group from a variable in its place. So two texts that differ only in that place have
  trees that differ only in that place. A place in a tree is a tree with one part left open, together with the
  symbols that stand before and behind it.
Main exports: Expr.Context, Expr.Context.fill, exists_context_of_var, grouped_fill, run_parenthesised,
  parenthesised_tokens_are_one_operand
-/
import Calculator.Proofs.AssignmentTargets
import Calculator.Proofs.ParserCompleteness

namespace Calculator

/-! ### Places in a tree -/

/-- A tree with one part left open. Only operators that the language knows have parts. -/
inductive Expr.Context where
  | hole
  | operand (op : Sign) (inside : Context)
  | left (op : InfixOp) (inside : Context) (right : Expr)
  | right (op : InfixOp) (left : Expr) (inside : Context)
  | inner (inside : Context)

namespace Expr.Context

/-- The tree with a part put in. -/
def fill : Context → Expr → Expr
  | .hole, part => part
  | .operand op inside, part => .sign op (inside.fill part)
  | .left op inside behind, part => .binary op (inside.fill part) behind
  | .right op front inside, part => .binary op front (inside.fill part)
  | .inner inside, part => .group (inside.fill part)

/-- The symbols before the open part. -/
def before : Context → List Symbol
  | .hole => []
  | .operand op inside => op.symbol :: inside.before
  | .left _ inside _ => inside.before
  | .right op front inside => front.symbols ++ op.symbol :: inside.before
  | .inner inside => .openParen :: inside.before

/-- The symbols behind the open part. -/
def after : Context → List Symbol
  | .hole => []
  | .operand _ inside => inside.after
  | .left op inside behind => inside.after ++ op.symbol :: behind.symbols
  | .right _ _ inside => inside.after
  | .inner inside => inside.after ++ [.closeParen]

variable {context : Context} {part other : Expr}

theorem hasPart_fill (context : Context) (part : Expr) :
    (context.fill part).HasPart context.before part context.after := by
  induction context with
  | hole => exact .here part
  | operand op inside ih => exact .operand op ih
  | left op inside behind ih => exact .left op behind ih
  | right op front inside ih => exact .right op front ih
  | inner inside ih => exact .inner ih

theorem symbols_fill (context : Context) (part : Expr) :
    (context.fill part).symbols = context.before ++ part.symbols ++ context.after :=
  (hasPart_fill context part).symbols_eq

/-! ### Other parts in the same place -/

/-- Parts without an operator at either end show no operator there in any tree. -/
theorem leftEdge_fill (context : Context) (first : part.leftEdge = []) (second : other.leftEdge = []) :
    (context.fill part).leftEdge = (context.fill other).leftEdge := by
  induction context with
  | hole => rw [fill, fill, first, second]
  | operand | inner => rfl
  | left op inside behind ih => rw [fill, fill, leftEdge, leftEdge, ih]
  | right => rfl

theorem rightEdge_fill (context : Context) (first : part.rightEdge = []) (second : other.rightEdge = []) :
    (context.fill part).rightEdge = (context.fill other).rightEdge := by
  induction context with
  | hole => rw [fill, fill, first, second]
  | left | inner => rfl
  | operand op inside ih => rw [fill, fill, rightEdge, rightEdge, ih]
  | right op front inside ih => rw [fill, fill, rightEdge, rightEdge, ih]

/-- A value or group can be replaced by another one: the operators around it hold the operands that they held. -/
theorem grouped_fill (old : Parser.Bare part) (new : Parser.Bare other) (grouped : (context.fill part).Grouped) :
    (context.fill other).Grouped := by
  induction context with
  | hole => exact new.grouped
  | inner inside ih => exact ih grouped
  | operand op inside ih =>
      obtain ⟨inner, starts⟩ := grouped
      refine ⟨ih inner, ?_⟩
      rw [leftEdge_fill inside new.starts old.starts]
      exact starts
  | left op inside behind ih =>
      obtain ⟨inner, rest, ends, starts⟩ := grouped
      refine ⟨ih inner, rest, ?_, starts⟩
      rw [rightEdge_fill inside new.ends old.ends]
      exact ends
  | right op front inside ih =>
      obtain ⟨rest, inner, ends, starts⟩ := grouped
      refine ⟨rest, ih inner, ends, ?_⟩
      rw [leftEdge_fill inside new.starts old.starts]
      exact starts

theorem unsigned_fill (new : Parser.Unsigned other) (unsigned : Parser.Unsigned (context.fill part)) :
    Parser.Unsigned (context.fill other) := by
  induction context with
  | hole => exact new
  | operand op inside ih => exact ih unsigned
  | inner inside ih => exact ih unsigned
  | left op inside behind ih => exact ⟨ih unsigned.1, unsigned.2⟩
  | right op front inside ih => exact ⟨unsigned.1, ih unsigned.2⟩

end Expr.Context

open Calculator.Expr (Context)

theorem infix_ne_var (op : InfixOp) (name : String) : op.symbol ≠ .var name := by
  rcases op with (_ | _ | _ | _) | _ <;> nofun

/-- Each variable among the symbols of a tree is a leaf of it, in one place. -/
theorem exists_context_of_var {tree : Expr} (grouped : tree.Grouped) {before after : List Symbol} {name : String}
    (split : tree.symbols = before ++ .var name :: after) :
    ∃ context : Context, context.before = before ∧ context.after = after ∧ tree = context.fill (.var name) := by
  induction tree generalizing before after with
  | const value => simp [Expr.symbols, List.singleton_eq_append_iff] at split
  | var other =>
      obtain ⟨rfl, rfl, rfl⟩ : before = [] ∧ name = other ∧ after = [] := by
        simpa [Expr.symbols, List.singleton_eq_append_iff] using split
      exact ⟨.hole, rfl, rfl, rfl⟩
  | sign op operand ih =>
      rcases List.cons_eq_append_iff.mp split with ⟨-, first⟩ | ⟨before, rfl, inside⟩
      · cases op <;> cases first
      · obtain ⟨context, rfl, rfl, rfl⟩ := ih grouped.1 inside
        exact ⟨.operand op context, rfl, rfl, rfl⟩
  | group inner ih =>
      rcases List.cons_eq_append_iff.mp split with ⟨-, first⟩ | ⟨before, rfl, inside⟩
      · cases first
      · rcases append_eq_append_cons inside with ⟨rest, within, rfl⟩ | ⟨rest, -, close⟩
        · obtain ⟨context, rfl, rfl, rfl⟩ := ih grouped within
          exact ⟨.inner context, rfl, rfl, rfl⟩
        · simp [List.singleton_eq_append_iff] at close
  | binary op left right leftIh rightIh =>
      obtain ⟨leftGrouped, rightGrouped, -⟩ := grouped
      rcases append_eq_append_cons split with ⟨rest, inside, rfl⟩ | ⟨rest, rfl, behind⟩
      · obtain ⟨context, rfl, rfl, rfl⟩ := leftIh leftGrouped inside
        exact ⟨.left op context right, rfl, rfl, rfl⟩
      · rcases List.cons_eq_append_iff.mp behind with ⟨rfl, own⟩ | ⟨rest, rfl, inside⟩
        · obtain ⟨same, -⟩ := List.cons.inj own
          exact absurd same.symm (infix_ne_var op name)
        · obtain ⟨context, rfl, rfl, rfl⟩ := rightIh rightGrouped inside
          exact ⟨.right op left context, rfl, rfl, rfl⟩
  | unknownSign | unknownBinary | unsupported => exact grouped.elim

/-! ### Tokens in parentheses -/

variable {inside : List Token} {inner : Expr} {opening closing : Token}

theorem symbols_of_parenthesised (parsed : parseTokens inside = .ok inner) (opens : opening.symbol = .openParen)
    (closes : closing.symbol = .closeParen) :
    (opening :: (inside ++ [closing])).map Token.symbol = (Expr.group inner).symbols := by
  simp [opens, closes, Expr.symbols, (parseTokens_grouped parsed).2.2]

theorem bare_of_parsed (parsed : parseTokens inside = .ok inner) : Parser.Bare (.group inner) := by
  obtain ⟨grouped, unsigned, -⟩ := parseTokens_grouped parsed
  exact ⟨grouped, unsigned, rfl, rfl⟩

/-- An expression in parentheses becomes one operand, whatever lies on the stacks. -/
theorem run_parenthesised (parsed : parseTokens inside = .ok inner) (opens : opening.symbol = .openParen)
    (closes : closing.symbol = .closeParen) (operands : List Expr) (pending : List Pending) :
    Parser.run ⟨operands, pending, true⟩ (opening :: (inside ++ [closing])) =
      .ok ⟨.group inner :: operands, pending, false⟩ := by
  have bare := bare_of_parsed parsed
  have fits : Parser.Fits pending (.group inner) := ⟨bare.grouped, bare.unsigned, by simp [bare.starts]⟩
  exact Parser.run_symbols fits operands (symbols_of_parenthesised parsed opens closes)

/-- Behind an operand only its place counts for what may come. -/
theorem accepted_behind_operand {before operand after : List Token} {parser : Parser}
    (ran : Parser.start.run before = .ok parser) (starts : parser.expectOperand = true)
    (sentence : Sentence (operand.map Token.symbol)) :
    (∃ tree, parseTokens (before ++ operand ++ after) = .ok tree) ↔
      (Parser.Shape.mk false (Parser.depth parser.pending)).after? (after.map Token.symbol) =
        some Parser.Shape.complete := by
  have reached := (Parser.reads_of_run Parser.reads_start ran).2
  have shape : parser.shape = ⟨true, Parser.depth parser.pending⟩ := by rw [Parser.shape, starts]
  have whole : Parser.Shape.start.after? ((before ++ operand ++ after).map Token.symbol) =
      (Parser.Shape.mk false (Parser.depth parser.pending)).after? (after.map Token.symbol) := by
    rw [List.map_append, List.map_append, Parser.Shape.after?_append, Parser.Shape.after?_append]
    change ((Parser.start.shape.after? _).bind _).bind _ = _
    rw [reached, shape, Option.bind_some, Parser.Shape.after?_of_sentence sentence, Option.bind_some]
  rw [← whole]
  constructor
  · rintro ⟨tree, accepted⟩
    exact Parser.after_of_parseTokens accepted
  · intro may
    obtain ⟨tree, accepted, -⟩ := Parser.parseTokens_of_after may
    exact ⟨tree, accepted⟩

/-- A variable of an expression can be replaced by a group in its place. -/
theorem parseTokens_of_var {before after : List Token} {name : String} {leaf : Token}
    (names : leaf.symbol = .var name) (parsed : parseTokens inside = .ok inner)
    (opens : opening.symbol = .openParen) (closes : closing.symbol = .closeParen) {tree : Expr}
    (accepted : parseTokens (before ++ [leaf] ++ after) = .ok tree) :
    ∃ context : Context, context.before = before.map Token.symbol ∧ context.after = after.map Token.symbol ∧
      tree = context.fill (.var name) ∧
      parseTokens (before ++ opening :: (inside ++ [closing]) ++ after) = .ok (context.fill (.group inner)) := by
  obtain ⟨grouped, unsigned, reads⟩ := parseTokens_grouped accepted
  have split : tree.symbols = before.map Token.symbol ++ .var name :: after.map Token.symbol := by
    simp [reads, names]
  obtain ⟨context, front, back, rfl⟩ := exists_context_of_var grouped split
  have bare := bare_of_parsed parsed
  refine ⟨context, front, back, rfl, ?_⟩
  apply parseTokens_of_symbols
  · exact Context.grouped_fill (Parser.bare_var name) bare grouped
  · exact Context.unsigned_fill bare.unsigned unsigned
  · rw [List.map_append, List.map_append, symbols_of_parenthesised parsed opens closes, Context.symbols_fill,
      front, back]

/-- **Groups.** Where an operand has to start, an expression in parentheses leaves one operand, its group, and
    everything else as it was. With these tokens in the place of a variable a text is an expression just if it is
    one with the variable there, and then the two trees are the same but for that place. -/
theorem parenthesised_tokens_are_one_operand {before : List Token} {parser : Parser}
    (ran : Parser.start.run before = .ok parser) (starts : parser.expectOperand = true)
    (parsed : parseTokens inside = .ok inner) (opens : opening.symbol = .openParen)
    (closes : closing.symbol = .closeParen) :
    Parser.start.run (before ++ opening :: (inside ++ [closing])) =
      .ok ⟨.group inner :: parser.operands, parser.pending, false⟩ ∧
    ∀ (name : String) (leaf : Token) (after : List Token), leaf.symbol = .var name →
      ((∃ tree, parseTokens (before ++ opening :: (inside ++ [closing]) ++ after) = .ok tree) ↔
        ∃ tree, parseTokens (before ++ [leaf] ++ after) = .ok tree) ∧
      ∀ tree, parseTokens (before ++ [leaf] ++ after) = .ok tree →
        ∃ context : Context, context.before = before.map Token.symbol ∧
          context.after = after.map Token.symbol ∧ tree = context.fill (.var name) ∧
          parseTokens (before ++ opening :: (inside ++ [closing]) ++ after) =
            .ok (context.fill (.group inner)) := by
  constructor
  · obtain ⟨operands, pending, expectOperand⟩ := parser
    cases starts
    rw [Parser.run_append, ran]
    exact run_parenthesised parsed opens closes operands pending
  · intro name leaf after names
    have group : Sentence ((opening :: (inside ++ [closing])).map Token.symbol) := by
      rw [symbols_of_parenthesised parsed opens closes]
      exact (bare_of_parsed parsed).grouped.sentence
    have single : Sentence ([leaf].map Token.symbol) := by
      rw [List.map_singleton, names]
      exact .var name
    refine ⟨?_, fun _ => parseTokens_of_var names parsed opens closes⟩
    rw [accepted_behind_operand ran starts group, accepted_behind_operand ran starts single]

/-- An assignment and a sum in parentheses keep to themselves behind a product and a sign, and of the three places
    where the variable stands only one is taken by the group. -/
theorem parenthesised_tokens_are_one_operand_between :
    let before := tokenize "v * -"
    let inside := tokenize "a = 1 + v"
    let inner := Expr.binary .assign (.var "a") (.binary (.arith .add) (.const 1) (.var "v"))
    let group : List Token := ⟨.openParen, 5⟩ :: (inside ++ [⟨.closeParen, 15⟩])
    let after := tokenize "* v"
    parseTokens inside = .ok inner ∧
      Parser.start.run (before ++ group) =
        .ok ⟨[.group inner, .var "v"], [.op (.sign .minus), .op (.between (.arith .mul))], false⟩ ∧
      ∃ context : Context, context.before = before.map Token.symbol ∧
        context.fill (.var "v") = .binary (.arith .mul) (.var "v")
          (.sign .minus (.binary (.arith .mul) (.var "v") (.var "v"))) ∧
        parseTokens (before ++ group ++ after) = .ok (context.fill (.group inner)) := by
  intro before inside inner group after
  have ran : Parser.start.run before =
      .ok ⟨[.var "v"], [.op (.sign .minus), .op (.between (.arith .mul))], true⟩ := by rfl
  have parsed : parseTokens inside = .ok inner := by rfl
  have opens : (Token.mk .openParen 5).symbol = .openParen := rfl
  have closes : (Token.mk .closeParen 15).symbol = .closeParen := rfl
  obtain ⟨reached, places⟩ := parenthesised_tokens_are_one_operand ran rfl parsed opens closes
  obtain ⟨context, front, -, same, replaced⟩ := (places "v" ⟨.var "v", 5⟩ after rfl).2 _ rfl
  exact ⟨parsed, reached, context, front, same.symm, replaced⟩

end Calculator
