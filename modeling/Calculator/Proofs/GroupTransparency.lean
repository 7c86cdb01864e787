/-
Module: Calculator.Proofs.GroupTransparency
Purpose: Where parentheses matter to evaluation: around the target of an assignment and nowhere else. Two trees that
  are the same without their parentheses have the same outcome on every store, the errors and the writes included, if
  each assignment has a bare variable for its target in both of them or in neither. A whole text can be put in
  parentheses.
Main exports: Expr.bareTargets, eval_of_ungroup_eq, pieces_concat_mark, symbols_parenthesised, parse_parenthesised,
  Expr.evalWithin_group, groups_are_transparent
-/
import Calculator.Proofs.NestingLimit
import Calculator.Proofs.ParserCompleteness

namespace Calculator

/-! ### Trees without their parentheses -/

namespace Expr

/-- For each assignment in a tree, an outer one before those in it, whether its target is a bare variable. -/
def bareTargets : Expr → List Bool
  | const _ | var _ | unsupported => []
  | sign _ operand | unknownSign _ operand => operand.bareTargets
  | group inner => inner.bareTargets
  | binary .assign target right => target.isVar :: (target.bareTargets ++ right.bareTargets)
  | binary (.arith _) left right | unknownBinary _ left right => left.bareTargets ++ right.bareTargets

/-- Parentheses make no difference to how many assignments there are. -/
theorem length_bareTargets_ungroup (tree : Expr) : tree.ungroup.bareTargets.length = tree.bareTargets.length := by
  induction tree with
  | const | var | unsupported => rfl
  | sign _ _ ih | group _ ih | unknownSign _ _ ih => exact ih
  | unknownBinary _ left right leftIh rightIh => simp [ungroup, bareTargets, leftIh, rightIh]
  | binary op left right leftIh rightIh => cases op <;> simp [ungroup, bareTargets, leftIh, rightIh]

variable {first second left right left' right' : Expr}

/-- Of two trees that are the same without their parentheses, the assignments in their left operands are as many. -/
theorem bareTargets_append_inj (same : left.ungroup = left'.ungroup)
    (targets : left.bareTargets ++ right.bareTargets = left'.bareTargets ++ right'.bareTargets) :
    left.bareTargets = left'.bareTargets ∧ right.bareTargets = right'.bareTargets := by
  apply List.append_inj targets
  rw [← length_bareTargets_ungroup left, same, length_bareTargets_ungroup]

theorem assignTo_of_ungroup_eq (same : left.ungroup = left'.ungroup) (bare : left.isVar = left'.isVar) (value : Int)
    (store : Store) : left.assignTo value store = left'.assignTo value store := by
  cases left with
  | var name =>
      cases left' with
      | var other =>
          cases same
          rfl
      | _ => cases bare
  | _ =>
      cases left' with
      | var other => cases bare
      | _ => rfl

/-- Parentheses that are not around a target make no difference to evaluation. -/
theorem eval_of_ungroup_eq (same : first.ungroup = second.ungroup) (targets : first.bareTargets = second.bareTargets)
    (store : Store) : first.eval store = second.eval store := by
  -- the parentheses of the first tree are passed by the outer induction, those of the second by an inner one
  induction first generalizing second store with
  | group inner ih => exact ih same targets store
  | const | var | unsupported =>
      induction second with
      | group inner again => exact again same targets
      | _ => cases same <;> rfl
  | sign op operand ih =>
      induction second with
      | group inner again => exact again same targets
      | sign other operand' _ =>
          obtain ⟨rfl, inside⟩ := Expr.sign.inj same
          rw [eval, eval, ih inside targets]
      | _ => cases same
  | unknownSign symbol operand ih =>
      induction second with
      | group inner again => exact again same targets
      | unknownSign other operand' _ =>
          obtain ⟨rfl, inside⟩ := Expr.unknownSign.inj same
          rw [eval, eval, ih inside targets]
      | _ => cases same
  | unknownBinary symbol left right leftIh rightIh =>
      induction second with
      | group inner again => exact again same targets
      | unknownBinary other left' right' _ _ =>
          obtain ⟨rfl, sameLeft, sameRight⟩ := Expr.unknownBinary.inj same
          obtain ⟨leftTargets, rightTargets⟩ := bareTargets_append_inj sameLeft targets
          simp only [eval, leftIh sameLeft leftTargets, rightIh sameRight rightTargets]
      | _ => cases same
  | binary op left right leftIh rightIh =>
      induction second with
      | group inner again => exact again same targets
      | binary other left' right' _ _ =>
          obtain ⟨rfl, sameLeft, sameRight⟩ := Expr.binary.inj same
          cases op with
          | arith op =>
              obtain ⟨leftTargets, rightTargets⟩ := bareTargets_append_inj sameLeft targets
              simp only [eval, leftIh sameLeft leftTargets, rightIh sameRight rightTargets]
          | assign =>
              obtain ⟨bare, operands⟩ := List.cons.inj targets
              obtain ⟨-, rightTargets⟩ := bareTargets_append_inj sameLeft operands
              simp only [eval, rightIh sameRight rightTargets, assignTo_of_ungroup_eq sameLeft bare]
      | _ => cases same

end Expr

/-! ### A text in parentheses -/

theorem pieces_concat_mark {c : Char} (notWord : isWordChar c = false) (text : List Char) :
    pieces (text ++ [c]) = pieces text ++ [[c]] := by
  have apart : ¬Touch text [c] := by
    rintro ⟨-, starts⟩
    rw [List.head?_cons, Option.any_some, notWord] at starts
    cases starts
  rw [pieces_append apart, pieces_of_mark notWord]
  rfl

theorem symbols_parenthesised (text : String) :
    (tokenize ("(" ++ text ++ ")")).map Token.symbol =
      .openParen :: ((tokenize text).map Token.symbol ++ [.closeParen]) := by
  have written : ("(" ++ text ++ ")").toList = '(' :: (text.toList ++ [')']) := by simp
  rw [symbols_tokenize, symbols_tokenize, written, pieces_of_mark (by decide), pieces_concat_mark (by decide),
    List.filterMap_cons, List.filterMap_append]
  rfl

theorem parse_parenthesised {text : String} {tree : Expr} (parsed : parse text = .ok tree) :
    parse ("(" ++ text ++ ")") = .ok (.group tree) := by
  obtain ⟨grouped, unsigned, reads⟩ := parseTokens_grouped parsed
  have whole : (Expr.group tree).Grouped := grouped
  apply parseTokens_of_symbols whole unsigned
  rw [symbols_parenthesised, Expr.symbols, reads]

/-- A group takes one more nested evaluation than what is in it. If that does not hit the limit, nothing changes. -/
theorem Expr.evalWithin_group {limit : Nat} {inner : Expr} {store : Store}
    (inLimit : ((group inner).evalWithin limit store).result ≠ .error .nestedTooDeeply) :
    (group inner).evalWithin limit store = inner.evalWithin limit store := by
  have innerInLimit : (inner.evalWithin limit store).result ≠ .error .nestedTooDeeply := by
    rw [Ne, nestedTooDeeply_iff] at inLimit ⊢
    rintro ⟨length, path, longer⟩
    exact inLimit ⟨length + 1, .first rfl path, Nat.lt_succ_of_lt longer⟩
  rw [evalWithin_eq_eval inLimit, evalWithin_eq_eval innerInLimit, eval]

/-- **Parentheses.** Two trees that are the same without their parentheses have the same outcome on every store, up to
    the nesting limit, if each assignment has a bare variable for its target in both of them or in neither. A text
    that is an expression is one in parentheses too, and comes to the same outcome there. -/
theorem groups_are_transparent :
    (∀ (limit : Nat) (first second : Expr) (store : Store), first.ungroup = second.ungroup →
      first.bareTargets = second.bareTargets →
      (first.evalWithin limit store).result ≠ .error .nestedTooDeeply →
      (second.evalWithin limit store).result ≠ .error .nestedTooDeeply →
      first.evalWithin limit store = second.evalWithin limit store) ∧
    ∀ (text : String) (tree : Expr), parse text = .ok tree →
      parse ("(" ++ text ++ ")") = .ok (.group tree) ∧
      ∀ limit store, (evaluate limit ("(" ++ text ++ ")") store).result ≠ .error .nestedTooDeeply →
        evaluate limit ("(" ++ text ++ ")") store = evaluate limit text store := by
  constructor
  · intro limit first second store same targets firstInLimit secondInLimit
    rw [Expr.evalWithin_eq_eval firstInLimit, Expr.evalWithin_eq_eval secondInLimit]
    exact Expr.eval_of_ungroup_eq same targets store
  · intro text tree parsed
    have whole := parse_parenthesised parsed
    refine ⟨whole, ?_⟩
    intro limit store inLimit
    rw [evaluate, whole] at inLimit ⊢
    rw [evaluate, parsed]
    exact Expr.evalWithin_group inLimit

/-- Parentheses come and go around an operand, a whole assignment, a target that has some already and a right side;
    the first assignment writes and the second one fails in both trees. -/
theorem groups_are_transparent_targets :
    let first := Expr.binary (.arith .add) (.group (.binary .assign (.var "a") (.group (.var "x"))))
      (.binary .assign (.group (.var "b")) (.const 2))
    let second := Expr.binary (.arith .add) (.group (.group (.binary .assign (.var "a") (.var "x"))))
      (.group (.binary .assign (.group (.group (.var "b"))) (.group (.const 2))))
    let store := Store.ofList [("x", 7)]
    parse "(a = (x)) + (b) = 2" = .ok first ∧ parse "((a = x)) + (((b)) = (2))" = .ok second ∧
      (first.evalWithin 20 store).result = .error .notAssignable ∧
      (first.evalWithin 20 store).store.get? "a" = some 7 ∧
      second.evalWithin 20 store = first.evalWithin 20 store ∧
      evaluate 20 "((a = (x)) + (b) = 2)" store = evaluate 20 "(a = (x)) + (b) = 2" store := by
  intro first second store
  have parsed : parse "(a = (x)) + (b) = 2" = .ok first := by rfl
  have firstFails : (first.evalWithin 20 store).result = .error .notAssignable := by rfl
  have secondFails : (second.evalWithin 20 store).result = .error .notAssignable := by rfl
  have wholeFails : (evaluate 20 "((a = (x)) + (b) = 2)" store).result = .error .notAssignable := by rfl
  obtain ⟨trees, texts⟩ := groups_are_transparent
  have written : "(" ++ "(a = (x)) + (b) = 2" ++ ")" = "((a = (x)) + (b) = 2)" := by decide
  have whole := (texts "(a = (x)) + (b) = 2" first parsed).2 20 store
  rw [written] at whole
  refine ⟨parsed, by rfl, firstFails, rfl, ?_, whole (by simp [wholeFails])⟩
  exact trees 20 second first store rfl rfl (by simp [secondFails]) (by simp [firstFails])

end Calculator
