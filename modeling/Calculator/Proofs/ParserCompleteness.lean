/-
Module: Calculator.Proofs.ParserCompleteness
Purpose: Every grouped tree is read back from its symbols. The parser folds late: when the last token of a
  tree has come, the operators at its right edge still wait, and their left operands lie below the last one.
  `run_symbols` states this for a tree behind any stacks that let it stand as it is. The next token that
  does not bind tighter, or the end, folds what waits into the tree (`foldWhile_waiting`).
Main exports: Parser.waiting, Parser.leaving, Parser.foldWhile_waiting, Parser.run_symbols,
  parseTokens_of_symbols, WritesLoosely, writes_of_writesLoosely, parse_of_writesLoosely
-/
import Calculator.Proofs.AcceptedLanguage

namespace Calculator

namespace Parser

/-! ### The stacks behind a tree -/

/-- The operators that wait when the last token of a tree has come, innermost first. -/
def waiting (tree : Expr) : List Pending :=
  (tree.rightEdge.map Pending.op).reverse

/-- The operands that lie there then: the last value or group, and the left operands of those operators. -/
def leaving : Expr → List Expr
  | .sign _ operand => leaving operand
  | .binary _ left right => leaving right ++ [left]
  | tree => [tree]

@[simp] theorem waiting_sign (op : Sign) (operand : Expr) :
    waiting (.sign op operand) = waiting operand ++ [.op (.sign op)] :=
  List.reverse_cons

@[simp] theorem waiting_binary (op : InfixOp) (left right : Expr) :
    waiting (.binary op left right) = waiting right ++ [.op (.between op)] :=
  List.reverse_cons

/-- A tree that holds all it ends in is put together before anything below it is looked at. -/
theorem foldWhile_waiting {power : Nat} {tree : Expr} (ends : EndsTight power tree)
    (pending : List Pending) (operands : List Expr) :
    foldWhile power (waiting tree ++ pending) (leaving tree ++ operands) =
      foldWhile power pending (tree :: operands) := by
  induction tree generalizing pending operands with
  | const | var | group | unknownSign | unknownBinary | unsupported => rfl
  | sign op operand ih =>
      have holds := ends _ List.mem_cons_self
      have inner : EndsTight power operand := fun op member => ends op (List.mem_cons_of_mem _ member)
      rw [waiting_sign, leaving, List.append_assoc, ih inner, List.singleton_append, foldWhile, if_pos holds]
      rfl
  | binary op left right _ ih =>
      have holds := ends _ List.mem_cons_self
      have inner : EndsTight power right := fun op member => ends op (List.mem_cons_of_mem _ member)
      rw [waiting_binary, leaving, List.append_assoc, List.append_assoc, ih inner, List.singleton_append,
        List.singleton_append, foldWhile, if_pos holds]
      rfl

theorem endsTight_zero (tree : Expr) : EndsTight 0 tree :=
  fun _ _ => Nat.zero_le _

/-! ### Reading a tree -/

theorem step_infix (op : InfixOp) {token : Token} (same : token.symbol = op.symbol) {left : Expr}
    (ends : EndsTight (Operator.between op).leftPower left) {pending : List Pending}
    (tighter : Tighter (Operator.between op).leftPower pending) (operands : List Expr) :
    step ⟨leaving left ++ operands, waiting left ++ pending, false⟩ token =
      .ok ⟨left :: operands, .op (.between op) :: pending, true⟩ := by
  rw [step_eq_pushOperator op same, pushOperator, foldWhile_waiting ends, foldWhile_of_tighter tighter]

theorem step_close {token : Token} (same : token.symbol = .closeParen) (inner : Expr)
    (operands : List Expr) (pending : List Pending) :
    step ⟨leaving inner ++ operands, waiting inner ++ .openParen :: pending, false⟩ token =
      .ok ⟨.group inner :: operands, pending, false⟩ := by
  rw [step_eq_closeGroup same, closeGroup, foldWhile_waiting (endsTight_zero inner)]
  rfl

/-- Reading the symbols of a tree where an operand has to start leaves its edge waiting on top of what lay
    there before, if the operators there let the tree stand. -/
theorem run_symbols {tree : Expr} {pending : List Pending} (fits : Fits pending tree)
    (operands : List Expr) {tokens : List Token} (reads : tokens.map Token.symbol = tree.symbols) :
    run ⟨operands, pending, true⟩ tokens = .ok ⟨leaving tree ++ operands, waiting tree ++ pending, false⟩ := by
  induction tree generalizing pending operands tokens with
  | const value =>
      obtain ⟨token, rfl, same⟩ := List.map_eq_singleton_iff.mp reads
      have positive : ((value.toNat : Nat) : Int) = value := Int.toNat_of_nonneg fits.unsigned
      rw [run, step, if_pos rfl, stepOperand, same]
      dsimp only
      rw [positive]
      rfl
  | var name =>
      obtain ⟨token, rfl, same⟩ := List.map_eq_singleton_iff.mp reads
      rw [run, step, if_pos rfl, stepOperand, same]
      rfl
  | sign op operand ih =>
      obtain ⟨token, rest, rfl, same, reads⟩ := List.map_eq_cons_iff.mp reads
      have inner : Fits (.op (.sign op) :: pending) operand :=
        ⟨fits.grouped.1, fits.unsigned, fits.grouped.2⟩
      rw [run, step_sign op same, waiting_sign, leaving, List.append_assoc]
      exact ih inner operands reads
  | binary op left right ihl ihr =>
      obtain ⟨first, others, rfl, readsLeft, reads⟩ := List.map_eq_append_iff.mp reads
      obtain ⟨token, rest, rfl, same, readsRight⟩ := List.map_eq_cons_iff.mp reads
      obtain ⟨groupedLeft, groupedRight, ends, starts⟩ := fits.grouped
      have before : Fits pending left :=
        ⟨groupedLeft, fits.unsigned.1, fun op member => fits.tighter op (List.mem_cons_of_mem _ member)⟩
      have behind : Fits (.op (.between op) :: pending) right := ⟨groupedRight, fits.unsigned.2, starts⟩
      rw [run_append, ihl before operands readsLeft]
      dsimp only
      rw [run, step_infix op same ends (fits.tighter _ List.mem_cons_self), waiting_binary, leaving,
        List.append_assoc, List.append_assoc]
      exact ihr behind (left :: operands) readsRight
  | group inner ih =>
      obtain ⟨opening, others, rfl, sameOpening, reads⟩ := List.map_eq_cons_iff.mp reads
      obtain ⟨middle, last, rfl, readsInner, reads⟩ := List.map_eq_append_iff.mp reads
      obtain ⟨closing, rfl, sameClosing⟩ := List.map_eq_singleton_iff.mp reads
      have inside : Fits (.openParen :: pending) inner :=
        ⟨fits.grouped, fits.unsigned, fun _ _ => trivial⟩
      have opened : step ⟨operands, pending, true⟩ opening = .ok ⟨operands, .openParen :: pending, true⟩ := by
        rw [step, if_pos rfl, stepOperand, sameOpening]
        rfl
      rw [run, opened]
      dsimp only
      rw [run_append, ih inside operands readsInner]
      dsimp only
      rw [run, step_close sameClosing]
      rfl
  | unknownSign => exact fits.grouped.elim
  | unknownBinary => exact fits.grouped.elim
  | unsupported => exact fits.grouped.elim

end Parser

/-- A grouped tree comes out of every list of tokens that reads as it does. -/
theorem parseTokens_of_symbols {tree : Expr} (grouped : tree.Grouped) (unsigned : Parser.Unsigned tree)
    {tokens : List Token} (reads : tokens.map Token.symbol = tree.symbols) :
    parseTokens tokens = .ok tree := by
  have fits : Parser.Fits [] tree := ⟨grouped, unsigned, fun _ _ => trivial⟩
  have folded := Parser.foldWhile_waiting (Parser.endsTight_zero tree) [] []
  rw [parseTokens, Parser.start, Parser.run_symbols fits [] reads]
  dsimp only
  rw [Parser.finish, folded]
  rfl

/-! ### The texts of a tree -/

/-- `text` writes the symbols with any spacing behind each of them, whether or not some is needed. -/
inductive WritesLoosely : List Symbol → List Char → Prop where
  | nil : WritesLoosely [] []
  | cons {symbol : Symbol} {rest : List Symbol} {word gap text : List Char} (spells : Spells symbol word)
      (spacing : Spacing gap) (tail : WritesLoosely rest text) :
      WritesLoosely (symbol :: rest) (word ++ gap ++ text)

/-- A symbol that is written with letters or digits comes where an operand has to start, and ends it. -/
theorem operand_of_spells {symbol : Symbol} {word : List Char} (spells : Spells symbol word) {c : Char}
    (member : c ∈ word) (inRun : isWordChar c = true) {shape after : Parser.Shape}
    (next : shape.next? symbol = some after) : shape.expectOperand = true ∧ after.expectOperand = false := by
  obtain ⟨position, depth⟩ := shape
  have absurdMark : ∀ mark, isWordChar mark = false → c ∉ [mark] := by
    intro mark notWord only
    rw [List.mem_singleton.mp only, notWord] at inRun
    cases inRun
  cases spells with
  | const zeros value =>
      cases position with
      | true => cases next; exact ⟨rfl, rfl⟩
      | false => cases next
  | other notConst =>
      cases symbol with
      | const value => exact absurd rfl (notConst value)
      | var name =>
          cases position with
          | true => cases next; exact ⟨rfl, rfl⟩
          | false => cases next
      | unexpected text => cases position <;> cases next
      | plus => exact absurd member (absurdMark '+' rfl)
      | minus => exact absurd member (absurdMark '-' rfl)
      | times => exact absurd member (absurdMark '*' rfl)
      | divide => exact absurd member (absurdMark '/' rfl)
      | assign => exact absurd member (absurdMark '=' rfl)
      | openParen => exact absurd member (absurdMark '(' rfl)
      | closeParen => exact absurd member (absurdMark ')' rfl)

/-- The first character of what is written belongs to the first symbol. -/
theorem head?_of_writesLoosely {symbol : Symbol} {rest : List Symbol} {text : List Char}
    (loosely : WritesLoosely (symbol :: rest) text) (lexical : symbol.Lexical) :
    ∃ word c, Spells symbol word ∧ c ∈ word ∧ text.head? = some c := by
  cases loosely with
  | @cons _ _ word gap text spells spacing tail =>
      have nonempty : word ≠ [] := by
        cases (ofPiece?_of_spells spells lexical).1 with
        | run nonempty _ => exact nonempty
        | mark _ => exact List.cons_ne_nil _ _
      obtain ⟨c, more, rfl⟩ := List.exists_cons_of_ne_nil nonempty
      exact ⟨_, c, spells, List.mem_cons_self, rfl⟩

/-- Symbols that may come one after the other need no spacing: two runs cannot meet. -/
theorem writes_of_writesLoosely {symbols : List Symbol} {text : List Char}
    (loosely : WritesLoosely symbols text) (lexical : ∀ symbol ∈ symbols, symbol.Lexical)
    {shape after : Parser.Shape} (may : shape.after? symbols = some after) : Writes symbols text := by
  induction loosely generalizing shape with
  | nil => exact .nil
  | @cons symbol rest word gap text spells spacing tail ih =>
      obtain ⟨between, next, may⟩ := Option.bind_eq_some_iff.mp may
      have known : ∀ other ∈ rest, other.Lexical :=
        fun other member => lexical other (List.mem_cons_of_mem symbol member)
      refine .cons spells spacing ?_ (ih known may)
      rintro ⟨ends, starts⟩
      -- a run before ends an operand, so the run behind would have to come where none may start
      obtain ⟨c, last, inRun⟩ := (Option.any_eq_true _ _).mp ends
      obtain ⟨d, first, inRun'⟩ := (Option.any_eq_true _ _).mp starts
      have ended := (operand_of_spells spells (List.mem_of_getLast? last) inRun next).2
      cases rest with
      | nil =>
          cases tail
          cases first
      | cons other more =>
          obtain ⟨between', next', -⟩ := Option.bind_eq_some_iff.mp may
          obtain ⟨word', e, spells', member, first'⟩ :=
            head?_of_writesLoosely tail (known other List.mem_cons_self)
          obtain rfl : e = d := Option.some.inj (first'.symm.trans first)
          have begun := (operand_of_spells spells' member inRun' next').1
          rw [ended] at begun
          cases begun

theorem unsigned_of_writable {tree : Expr} (writable : tree.Writable) : Parser.Unsigned tree := by
  induction tree with
  | const value => exact writable.1
  | var name => trivial
  | sign op operand ih => exact ih writable
  | binary op left right ihl ihr => exact ⟨ihl writable.1, ihr writable.2⟩
  | group inner ih => exact ih writable
  | unknownSign => exact writable.elim
  | unknownBinary => exact writable.elim
  | unsupported => exact writable.elim

theorem lexical_of_writable {tree : Expr} (writable : tree.Writable) :
    ∀ symbol ∈ tree.symbols, symbol.Lexical := by
  induction tree with
  | const value =>
      intro symbol member
      obtain ⟨positive, fits⟩ := writable
      rw [List.mem_singleton.mp member]
      exact Int.toNat_le.mpr fits
  | var name =>
      intro symbol member
      rw [List.mem_singleton.mp member]
      exact writable
  | sign op operand ih =>
      intro symbol member
      rcases List.mem_cons.mp member with rfl | member
      · cases op <;> trivial
      · exact ih writable symbol member
  | binary op left right ihl ihr =>
      intro symbol member
      rcases List.mem_append.mp member with member | member
      · exact ihl writable.1 symbol member
      · rcases List.mem_cons.mp member with rfl | member
        · rcases op with (_ | _ | _ | _) | _ <;> trivial
        · exact ihr writable.2 symbol member
  | group inner ih =>
      intro symbol member
      rcases List.mem_cons.mp member with rfl | member
      · trivial
      · rcases List.mem_append.mp member with member | member
        · exact ih writable symbol member
        · rw [List.mem_singleton.mp member]
          trivial
  | unknownSign => exact writable.elim
  | unknownBinary => exact writable.elim
  | unsupported => exact writable.elim

theorem writesText_of_writesLoosely {tree : Expr} (grouped : tree.Grouped) (writable : tree.Writable)
    {text : String} {gap written : List Char} (spacing : Spacing gap)
    (loosely : WritesLoosely tree.symbols written) (same : text.toList = gap ++ written) :
    WritesText tree.symbols text := by
  have may := Parser.Shape.after?_of_sentence grouped.sentence 0
  exact ⟨gap, written, spacing, writes_of_writesLoosely loosely (lexical_of_writable writable) may, same⟩

/-- **Completeness.** A grouped tree of literals and names comes out of every text that writes its symbols
    in order, with any spacing before, between and behind them. So no two such trees read the same. -/
theorem parse_of_writesLoosely {tree : Expr} (grouped : tree.Grouped) (writable : tree.Writable) :
    (∀ (text : String) (gap written : List Char), Spacing gap → WritesLoosely tree.symbols written →
      text.toList = gap ++ written → parse text = .ok tree) ∧
    ∀ other : Expr, other.Grouped → other.Writable → other.symbols = tree.symbols → other = tree := by
  have unsigned := unsigned_of_writable writable
  constructor
  · intro text gap written spacing loosely same
    have writes := writesText_of_writesLoosely grouped writable spacing loosely same
    exact parseTokens_of_symbols grouped unsigned
      (symbols_of_writesText writes (lexical_of_writable writable))
  · intro other grouped' writable' same
    have reads : (tree.symbols.map (Token.mk · 0)).map Token.symbol = tree.symbols := by
      rw [List.map_map]
      exact List.map_id _
    have first := parseTokens_of_symbols grouped unsigned reads
    have second := parseTokens_of_symbols grouped' (unsigned_of_writable writable') (reads.trans same.symm)
    exact Except.ok.inj (second.symm.trans first)

/-- No spacing at all, spacing on both sides, and zeros before a constant. -/
theorem parse_of_writesLoosely_zeros :
    let tree := Expr.binary (.arith .mul) (.const 7) (.sign .minus (.var "x1"))
    tree.Grouped ∧ tree.Writable ∧ parse " 007*\t- x1" = .ok tree := by
  intro tree
  have grouped : tree.Grouped := by decide
  have writable : tree.Writable := by decide
  have written : WritesLoosely tree.symbols "007*\t- x1".toList :=
    @WritesLoosely.cons (.const 7) _ _ [] _ (.const 2 7) (by decide)
      (@WritesLoosely.cons .times _ _ ['\t'] _ (.other nofun) (by decide)
        (@WritesLoosely.cons .minus _ _ [' '] _ (.other nofun) (by decide)
          (@WritesLoosely.cons (.var "x1") _ _ [] _ (.other nofun) (by decide) .nil)))
  exact ⟨grouped, writable,
    (parse_of_writesLoosely grouped writable).1 _ [' '] _ (by decide) written rfl⟩

end Calculator
