/-
Module: Calculator.Proofs.AssignmentTargets
Purpose: What an `=` assigns to. In a tree that comes out of a text, the left operand of each `=` is the variable,
  constant or group that ends right before it, as an assignment takes nothing larger from the operators on its
  left. An evaluation that succeeds has carried out every assignment of the tree, so whether one of them can
  fail for its target shows in the tokens: it can just if some `=` does not directly follow a variable.
Main exports: Expr.HasPart, Expr.IsPrimary, isPrimary_of_grouped, exists_part_of_assign, exists_part_of_visit,
  var_of_part, var_of_ok, assignments_take_operand_before
-/
import Calculator.Proofs.ErrorKinds

namespace Calculator

/-! ### Parts of a tree -/

/-- A part of a tree, with the symbols before its own and those behind them. Only operators that the language
    knows have parts. -/
inductive Expr.HasPart : Expr → List Symbol → Expr → List Symbol → Prop where
  | here (tree : Expr) : HasPart tree [] tree []
  | operand (op : Sign) {operand part : Expr} {before after : List Symbol}
      (inside : HasPart operand before part after) :
      HasPart (.sign op operand) (op.symbol :: before) part after
  | left (op : InfixOp) {left part : Expr} (right : Expr) {before after : List Symbol}
      (inside : HasPart left before part after) :
      HasPart (.binary op left right) before part (after ++ op.symbol :: right.symbols)
  | right (op : InfixOp) {right part : Expr} (left : Expr) {before after : List Symbol}
      (inside : HasPart right before part after) :
      HasPart (.binary op left right) (left.symbols ++ op.symbol :: before) part after
  | inner {inner part : Expr} {before after : List Symbol} (inside : HasPart inner before part after) :
      HasPart (.group inner) (.openParen :: before) part (after ++ [.closeParen])

namespace Expr.HasPart

variable {tree part : Expr} {before after : List Symbol}

theorem symbols_eq (h : tree.HasPart before part after) : tree.symbols = before ++ part.symbols ++ after := by
  induction h with
  | here => simp
  | operand op _ ih => simp [Expr.symbols, ih]
  | left op right _ ih => simp [Expr.symbols, ih]
  | right op left _ ih => simp [Expr.symbols, ih]
  | inner _ ih => simp [Expr.symbols, ih]

theorem grouped (h : tree.HasPart before part after) (whole : tree.Grouped) : part.Grouped := by
  induction h with
  | here => exact whole
  | operand op _ ih => exact ih whole.1
  | left op right _ ih => exact ih whole.1
  | right op left _ ih => exact ih whole.2.1
  | inner _ ih => exact ih whole

end Expr.HasPart

/-! ### The left operand of an assignment -/

/-- A variable, a constant or a group: an operand of which no operator can take a part. -/
def Expr.IsPrimary : Expr → Prop
  | const _ | var _ | group _ => True
  | _ => False

/-- An assignment binds tighter on its left than any operator does on its right, so its left operand ends in
    none. -/
theorem isPrimary_of_grouped {left right : Expr} (grouped : (Expr.binary .assign left right).Grouped) :
    left.IsPrimary := by
  obtain ⟨leftGrouped, -, ends, -⟩ := grouped
  have noEdge : ∀ inner, inner ∉ left.rightEdge := by
    intro inner member
    exact Nat.not_lt_of_le (ends inner member) (Operator.rightPower_lt_entering inner)
  cases left with
  | const | var | group => trivial
  | sign op operand => exact noEdge _ List.mem_cons_self
  | binary op first second => exact noEdge _ List.mem_cons_self
  | unknownSign | unknownBinary | unsupported => exact leftGrouped.elim

/-- A primary operand ends in the name of a variable only if it is this variable. -/
theorem eq_var_of_getLast? {left : Expr} (primary : left.IsPrimary) {before : List Symbol} {name : String}
    (last : (before ++ left.symbols).getLast? = some (.var name)) : left = .var name := by
  cases left with
  | const value => simp [Expr.symbols] at last
  | var other => simpa [Expr.symbols] using last
  | group inner =>
      have ends : before ++ (Expr.group inner).symbols =
          (before ++ .openParen :: inner.symbols) ++ [.closeParen] := by simp [Expr.symbols]
      rw [ends, List.getLast?_concat] at last
      cases last
  | _ => exact primary.elim

/-! ### Assignments and their tokens -/

theorem append_eq_append_cons {first second before after : List Symbol} {symbol : Symbol}
    (same : first ++ second = before ++ symbol :: after) :
    (∃ rest, first = before ++ symbol :: rest ∧ after = rest ++ second) ∨
      ∃ rest, before = first ++ rest ∧ second = rest ++ symbol :: after := by
  rcases List.append_eq_append_iff.mp same with behind | ⟨rest, inFirst, split⟩
  · exact Or.inr behind
  · rcases List.cons_eq_append_iff.mp split with ⟨rfl, rfl⟩ | ⟨rest, rfl, rfl⟩
    · exact Or.inr ⟨[], by simpa using inFirst.symm, rfl⟩
    · exact Or.inl ⟨rest, inFirst, rfl⟩

theorem assign_of_symbol {op : InfixOp} (same : op.symbol = .assign) : op = .assign := by
  cases op with
  | assign => rfl
  | arith op => cases op <;> cases same

/-- Each `=` of the symbols is that of one assignment, whose operands stand around it. -/
theorem exists_part_of_assign {tree : Expr} (grouped : tree.Grouped) {before after : List Symbol}
    (split : tree.symbols = before ++ .assign :: after) :
    ∃ front left right back, tree.HasPart front (.binary .assign left right) back ∧
      before = front ++ left.symbols ∧ after = right.symbols ++ back := by
  induction tree generalizing before after with
  | const value => simp [Expr.symbols, List.singleton_eq_append_iff] at split
  | var name => simp [Expr.symbols, List.singleton_eq_append_iff] at split
  | sign op operand ih =>
      rcases List.cons_eq_append_iff.mp split with ⟨-, first⟩ | ⟨before, rfl, inside⟩
      · cases op <;> cases first
      · obtain ⟨front, left, right, back, part, rfl, rfl⟩ := ih grouped.1 inside
        exact ⟨_, left, right, back, .operand op part, rfl, rfl⟩
  | group inner ih =>
      rcases List.cons_eq_append_iff.mp split with ⟨-, first⟩ | ⟨before, rfl, inside⟩
      · cases first
      · rcases append_eq_append_cons inside with ⟨rest, within, rfl⟩ | ⟨rest, -, close⟩
        · obtain ⟨front, left, right, back, part, rfl, rfl⟩ := ih grouped within
          exact ⟨_, left, right, _, .inner part, rfl, List.append_assoc ..⟩
        · simp [List.singleton_eq_append_iff] at close
  | binary op left right leftIh rightIh =>
      obtain ⟨leftGrouped, rightGrouped, -⟩ := grouped
      rcases append_eq_append_cons split with ⟨rest, inside, rfl⟩ | ⟨rest, rfl, behind⟩
      · obtain ⟨front, target, value, back, part, rfl, rfl⟩ := leftIh leftGrouped inside
        exact ⟨front, target, value, _, .left op right part, rfl, List.append_assoc ..⟩
      · rcases List.cons_eq_append_iff.mp behind with ⟨rfl, own⟩ | ⟨rest, rfl, inside⟩
        · obtain ⟨same, rfl⟩ := List.cons.inj own
          obtain rfl := assign_of_symbol same.symm
          exact ⟨[], left, right, [], .here _, by simp, by simp⟩
        · obtain ⟨front, target, value, back, part, rfl, rfl⟩ := rightIh rightGrouped inside
          exact ⟨_, target, value, back, .right op left part, by simp, rfl⟩
  | unknownSign | unknownBinary | unsupported => exact grouped.elim

/-! ### Assignments that are carried out -/

theorem exists_part_of_visit {tree target : Expr} (grouped : tree.Grouped)
    (among : Visit.assign target ∈ tree.visits) :
    ∃ front right back, tree.HasPart front (.binary .assign target right) back := by
  induction tree with
  | const | var => simp [Expr.visits] at among
  | sign op operand ih =>
      have inside : Visit.assign target ∈ operand.visits := by simpa [Expr.visits] using among
      obtain ⟨front, right, back, part⟩ := ih grouped.1 inside
      exact ⟨_, right, back, .operand op part⟩
  | group inner ih =>
      have inside : Visit.assign target ∈ inner.visits := by simpa [Expr.visits] using among
      obtain ⟨front, right, back, part⟩ := ih grouped inside
      exact ⟨_, right, _, .inner part⟩
  | binary op left right leftIh rightIh =>
      obtain ⟨leftGrouped, rightGrouped, -⟩ := grouped
      cases op with
      | arith op =>
          have inside : Visit.assign target ∈ left.visits ∨ Visit.assign target ∈ right.visits := by
            simpa [Expr.visits] using among
          rcases inside with inside | inside
          · obtain ⟨front, value, back, part⟩ := leftIh leftGrouped inside
            exact ⟨front, value, _, .left _ right part⟩
          · obtain ⟨front, value, back, part⟩ := rightIh rightGrouped inside
            exact ⟨_, value, back, .right _ left part⟩
      | assign =>
          have inside : Visit.assign target ∈ right.visits ∨ target = left := by
            simpa [Expr.visits] using among
          rcases inside with inside | rfl
          · obtain ⟨front, value, back, part⟩ := rightIh rightGrouped inside
            exact ⟨_, value, back, .right _ left part⟩
          · exact ⟨[], right, [], .here _⟩
  | unknownSign | unknownBinary | unsupported => exact grouped.elim

/-- If the assignments that are visited have variables for targets, none is left out: no assignment stands in the
    target of another. -/
theorem var_of_part {tree left right : Expr} {front back : List Symbol}
    (part : tree.HasPart front (.binary .assign left right) back)
    (named : ∀ target, Visit.assign target ∈ tree.visits → ∃ name, target = .var name) :
    ∃ name, left = .var name := by
  generalize whole : Expr.binary .assign left right = assignment at part
  induction part with
  | here =>
      subst whole
      exact named left (by simp [Expr.visits])
  | operand op _ ih => exact ih (fun target among => named target (by simp [Expr.visits, among])) whole
  | inner _ ih => exact ih (fun target among => named target (by simp [Expr.visits, among])) whole
  | right op _ _ ih =>
      refine ih (fun target among => named target ?_) whole
      cases op <;> simp [Expr.visits, among]
  | @left op target _ right _ _ inside ih =>
      cases op with
      | arith op => exact ih (fun target among => named target (by simp [Expr.visits, among])) whole
      | assign =>
          -- targets are not visited, but this one is a variable, and no assignment is part of a variable
          obtain ⟨name, rfl⟩ := named target (by simp [Expr.visits])
          cases inside
          cases whole

/-- An evaluation that has a value has carried out every assignment visited, and none of them has failed. -/
theorem var_of_ok {limit : Nat} {tree target : Expr} {store : Store} {value : Int}
    (ended : (tree.evalWithin limit store).result = .ok value) (among : Visit.assign target ∈ tree.visits) :
    ∃ name, target = .var name := by
  have notTooDeep : (tree.evalWithin limit store).result ≠ .error .nestedTooDeeply := by simp [ended]
  obtain ⟨course, ends⟩ := exists_course_of_evalWithin notTooDeep
  rw [ended] at ends
  cases left : course.rest with
  | cons failing others => simp [Course.EndsIn, left] at ends
  | nil =>
      have all : tree.visits = course.done := by simpa [left] using course.visits_eq
      have supplied : Supplied ([] : List Int).length course.done := all ▸ supplied_visits tree
      have written : target ∈ course.done.filterMap Visit.target? :=
        List.mem_filterMap.mpr ⟨_, all ▸ among, rfl⟩
      rw [← targets_of_performAll supplied course.carried] at written
      obtain ⟨write, -, same⟩ := List.mem_map.mp written
      exact ⟨write.1, same.symm⟩

/-! ### Texts -/

variable {text : String} {tree left right : Expr}

/-- What stands around an assignment of a text. -/
theorem symbols_of_part {front back : List Symbol} (parsed : parse text = .ok tree)
    (part : tree.HasPart front (.binary .assign left right) back) :
    (tokenize text).map Token.symbol = front ++ left.symbols ++ .assign :: (right.symbols ++ back) := by
  rw [← (parseTokens_grouped parsed).2.2, part.symbols_eq]
  simp [Expr.symbols, InfixOp.symbol]

theorem exists_error_of_target {before after : List Symbol}
    (split : (tokenize text).map Token.symbol = before ++ .assign :: after)
    (noVariable : ∀ name, before.getLast? ≠ some (.var name)) (limit : Nat) (store : Store) :
    ∃ error, (evaluate limit text store).result = .error error := by
  cases ended : (evaluate limit text store).result with
  | error error => exact ⟨error, rfl⟩
  | ok value =>
      obtain ⟨tree, parsed, ended⟩ | ⟨_, -, syntactic⟩ := parse_of_evaluate ended
      · obtain ⟨grouped, -, reads⟩ := parseTokens_grouped parsed
        rw [← reads] at split
        obtain ⟨front, left, right, back, part, rfl, rfl⟩ := exists_part_of_assign grouped split
        obtain ⟨name, rfl⟩ := var_of_part part fun _ => var_of_ok ended
        have last : (front ++ (Expr.var name).symbols).getLast? = some (.var name) := by simp [Expr.symbols]
        exact absurd last (noVariable name)
      · cases syntactic

theorem ne_notAssignable_of_variables
    (named : ∀ before after, (tokenize text).map Token.symbol = before ++ .assign :: after →
      ∃ name, before.getLast? = some (.var name)) (limit : Nat) (store : Store) :
    (evaluate limit text store).result ≠ .error .notAssignable := by
  intro failed
  obtain ⟨tree, parsed, failed⟩ | ⟨_, -, syntactic⟩ := parse_of_evaluate failed
  · have grouped := (parseTokens_grouped parsed).1
    obtain ⟨visit, among, _, _, fails⟩ := exists_fails_of_evalWithin failed (by simp)
    cases fails with
    | @target left _ _ notVar =>
        obtain ⟨front, right, back, part⟩ := exists_part_of_visit grouped among
        obtain ⟨name, last⟩ := named _ _ (symbols_of_part parsed part)
        have primary := isPrimary_of_grouped (part.grouped grouped)
        exact notVar name (eq_var_of_getLast? primary last)
  · cases syntactic

/-- **Targets.** In a tree that comes out of a text each `=` of the text is one assignment and each assignment one
    `=`; its left operand is what stands right before the `=`: a variable, a constant or a group. If some `=` does
    not directly follow a variable, the text has no value on any store; if each does, evaluation never fails
    because of a target. -/
theorem assignments_take_operand_before (text : String) :
    (∀ tree, parse text = .ok tree →
      (∀ before after, (tokenize text).map Token.symbol = before ++ .assign :: after →
        ∃ front left right back, tree.HasPart front (.binary .assign left right) back ∧
          before = front ++ left.symbols ∧ after = right.symbols ++ back) ∧
      ∀ front left right back, tree.HasPart front (.binary .assign left right) back →
        left.IsPrimary ∧
        (tokenize text).map Token.symbol = front ++ left.symbols ++ .assign :: (right.symbols ++ back)) ∧
    (∀ before after, (tokenize text).map Token.symbol = before ++ .assign :: after →
      (∀ name, before.getLast? ≠ some (.var name)) →
      ∀ limit store, ∃ error, (evaluate limit text store).result = .error error) ∧
    ((∀ before after, (tokenize text).map Token.symbol = before ++ .assign :: after →
      ∃ name, before.getLast? = some (.var name)) →
      ∀ limit store, (evaluate limit text store).result ≠ .error .notAssignable) := by
  refine ⟨?_, fun _ _ => exists_error_of_target, ne_notAssignable_of_variables⟩
  intro tree parsed
  obtain ⟨grouped, -, reads⟩ := parseTokens_grouped parsed
  constructor
  · intro before after split
    rw [← reads] at split
    exact exists_part_of_assign grouped split
  · intro front left right back part
    exact ⟨isPrimary_of_grouped (part.grouped grouped), symbols_of_part parsed part⟩

/-- A group in parentheses is no target even if it holds a variable only; a chain of assignments inside a sum and
    behind a sign has variables for targets. -/
theorem assignments_take_operand_before_group :
    let text := "a = 2 * (b) = 3"
    let tree := Expr.binary .assign (.var "a") (.binary (.arith .mul) (.const 2)
      (.binary .assign (.group (.var "b")) (.const 3)))
    parse text = .ok tree ∧
      tree.HasPart [.var "a", .assign, .const 2, .times] (.binary .assign (.group (.var "b")) (.const 3)) [] ∧
      (Expr.group (.var "b")).IsPrimary ∧
      (∀ limit store, ∃ error, (evaluate limit text store).result = .error error) ∧
      ∀ limit store, (evaluate limit "x = 1 + -y = 2" store).result ≠ .error .notAssignable := by
  intro text tree
  have parsed : parse "a = 2 * (b) = 3" = .ok tree := by rfl
  have part : tree.HasPart [.var "a", .assign, .const 2, .times]
      (.binary .assign (.group (.var "b")) (.const 3)) [] :=
    .right .assign (.var "a") (.right (.arith .mul) (.const 2) (.here _))
  obtain ⟨shapes, valueless, -⟩ := assignments_take_operand_before text
  have named : ∀ before after, (tokenize "x = 1 + -y = 2").map Token.symbol = before ++ .assign :: after →
      ∃ name, before.getLast? = some (.var name) := by
    intro before after split
    have symbols : (tokenize "x = 1 + -y = 2").map Token.symbol =
        [.var "x", .assign, .const 1, .plus, .minus, .var "y", .assign, .const 2] := by rfl
    simp only [symbols, List.cons_eq_append_iff, List.cons.injEq, reduceCtorEq, false_and, and_false, true_and,
      List.nil_eq, List.append_eq_nil_iff, exists_const, or_self, or_false, false_or] at split
    obtain ⟨_, rfl, ⟨rfl, -⟩ | ⟨_, rfl, _, rfl, _, rfl, _, rfl, _, rfl, rfl, -⟩⟩ := split
    · exact ⟨"x", rfl⟩
    · exact ⟨"y", rfl⟩
  refine ⟨parsed, part, ((shapes tree parsed).2 _ _ _ _ part).1, ?_,
    (assignments_take_operand_before "x = 1 + -y = 2").2.2 named⟩
  have split : (tokenize "a = 2 * (b) = 3").map Token.symbol =
      [.var "a", .assign, .const 2, .times, .openParen, .var "b", .closeParen] ++ .assign :: [.const 3] := by rfl
  exact valueless _ _ split (by simp)

end Calculator
