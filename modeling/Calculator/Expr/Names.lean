/-
Module: Calculator.Expr.Names
Purpose: Which variables a tree mentions, which of them it may write, which constants it holds, and two
  measures of its shape: what is left without parentheses, and how deep its evaluation nests. The target of an
  assignment is not evaluated, so it counts for neither reading nor nesting.
Main exports: Expr.targets, Expr.names, Expr.constants, Expr.ungroup, Expr.isVar, Expr.nesting
-/
import Calculator.Expr

namespace Calculator.Expr

/-- Whether a tree is a bare variable, the only thing that can be assigned to. -/
def isVar : Expr → Bool
  | var _ => true
  | _ => false

/-- The name of a bare variable. -/
def varName? : Expr → Option String
  | var name => some name
  | _ => none

/-- The bare targets of all assignments in a tree. -/
def targets : Expr → List String
  | const _ | var _ | unsupported => []
  | sign _ operand | unknownSign _ operand => operand.targets
  | group inner => inner.targets
  | binary .assign target right => target.varName?.toList ++ target.targets ++ right.targets
  | binary (.arith _) left right | unknownBinary _ left right => left.targets ++ right.targets

/-- All names in a tree, read or written. -/
def names : Expr → List String
  | const _ | unsupported => []
  | var name => [name]
  | sign _ operand | unknownSign _ operand => operand.names
  | group inner => inner.names
  | binary _ left right | unknownBinary _ left right => left.names ++ right.names

/-- The values of all constants in a tree. -/
def constants : Expr → List Int
  | const value => [value]
  | var _ | unsupported => []
  | sign _ operand | unknownSign _ operand => operand.constants
  | group inner => inner.constants
  | binary _ left right | unknownBinary _ left right => left.constants ++ right.constants

/-- A tree without its parentheses. -/
def ungroup : Expr → Expr
  | const value => const value
  | var name => var name
  | sign op operand => sign op operand.ungroup
  | binary op left right => binary op left.ungroup right.ungroup
  | group inner => inner.ungroup
  | unknownSign symbol operand => unknownSign symbol operand.ungroup
  | unknownBinary symbol left right => unknownBinary symbol left.ungroup right.ungroup
  | unsupported => unsupported

/-- The largest number of nodes on a path that evaluation can follow. -/
def nesting : Expr → Nat
  | const _ | var _ | unsupported => 1
  | sign _ operand | unknownSign _ operand => operand.nesting + 1
  | group inner => inner.nesting + 1
  | binary .assign _ right => right.nesting + 1
  | binary (.arith _) left right | unknownBinary _ left right => max left.nesting right.nesting + 1

/-- What is written is mentioned. -/
theorem targets_subset_names (tree : Expr) : ∀ name ∈ tree.targets, name ∈ tree.names := by
  induction tree with
  | const => simp [targets]
  | var => simp [targets]
  | sign _ _ ih => simpa [targets, names] using ih
  | group _ ih => simpa [targets, names] using ih
  | unknownSign _ _ ih => simpa [targets, names] using ih
  | unsupported => simp [targets]
  | unknownBinary _ _ _ ihl ihr =>
    intro name h
    simp only [targets, names, List.mem_append] at h ⊢
    exact h.imp (ihl name) (ihr name)
  | binary op left right ihl ihr =>
    intro name h
    cases op with
    | arith =>
      simp only [targets, names, List.mem_append] at h ⊢
      exact h.imp (ihl name) (ihr name)
    | assign =>
      simp only [targets, names, List.mem_append] at h ⊢
      rcases h with (h | h) | h
      · cases left <;> simp_all [varName?, names]
      · exact Or.inl (ihl name h)
      · exact Or.inr (ihr name h)

end Calculator.Expr
