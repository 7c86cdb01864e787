/-
Module: Calculator.Proofs.SessionStore
Purpose: What a session can do to its store. An evaluation changes a store by single writes, and a property of
  stores that no write breaks outlives the evaluation however it ends: with a value, an error, or at the
  nesting limit (`Expr.keeps_evalWithin`). Two such properties run through a session: every value is a word,
  and names are only added, each of them one that a text assigns to.
Main exports: Outcome.Keeps, Stable, Expr.keeps_evalWithin, Store.HoldsWords, Store.Extends, AssignedIn,
  assigned_of_mem_targets, keeps_evaluate, extends_evaluate, evaluateAll_keeps_words_and_names
-/
import Calculator.Eval
import Calculator.Expr.Names
import Calculator.Proofs.ParserSoundness

namespace Calculator

/-! ### Properties that outlive an evaluation -/

/-- An outcome leaves a store of one kind behind, and its value, if it has one, is of another kind. -/
structure Outcome.Keeps (holds : Store → Prop) (fits : Int → Prop) (outcome : Outcome) : Prop where
  store : holds outcome.store
  value : ∀ value, outcome.result = .ok value → fits value

/-- A property of stores and one of values that no node breaks, as long as only some names are written to. -/
structure Stable (mayWrite : String → Prop) (holds : Store → Prop) (fits : Int → Prop) : Prop where
  read : ∀ {store name value}, holds store → store.get? name = some value → fits value
  sign : ∀ (op : Sign) {value}, fits value → fits (op.apply value)
  arith : ∀ (op : ArithOp) {left right value}, fits left → fits right →
    op.apply left right = .ok value → fits value
  write : ∀ {store name value}, mayWrite name → holds store → fits value → holds (store.set name value)

variable {mayWrite : String → Prop} {holds : Store → Prop} {fits : Int → Prop} {store : Store}

namespace Outcome

theorem keeps_value {v : Int} (good : holds store) (fit : fits v) : (value v store).Keeps holds fits := by
  refine ⟨good, ?_⟩
  rintro _ ⟨⟩
  exact fit

theorem keeps_fail (good : holds store) (error : EvalError) : (fail error store).Keeps holds fits :=
  ⟨good, nofun⟩

theorem Keeps.andThen {outcome : Outcome} {next : Int → Store → Outcome} (start : outcome.Keeps holds fits)
    (follow : ∀ value, fits value → holds outcome.store → (next value outcome.store).Keeps holds fits) :
    (outcome.andThen next).Keeps holds fits := by
  unfold Outcome.andThen
  cases ended : outcome.result with
  | ok value => exact follow value (start.value value ended) start.store
  | error error => exact start

end Outcome

namespace Expr

theorem keeps_readVar (stable : Stable mayWrite holds fits) (good : holds store) (name : String) :
    (readVar name store).Keeps holds fits := by
  unfold readVar
  cases found : store.get? name with
  | some value => exact Outcome.keeps_value good (stable.read good found)
  | none => exact Outcome.keeps_fail good (.uninitialized name)

theorem keeps_assignTo (stable : Stable mayWrite holds fits) (good : holds store) {target right : Expr}
    (targets : ∀ name ∈ (binary .assign target right).targets, mayWrite name) {value : Int}
    (fit : fits value) : (target.assignTo value store).Keeps holds fits := by
  cases target with
  | var name =>
      have may : mayWrite name := targets name List.mem_cons_self
      exact Outcome.keeps_value (stable.write may good fit) fit
  | _ => exact Outcome.keeps_fail good .notAssignable

/-- Whatever an evaluation comes to, it keeps what no node breaks. -/
theorem keeps_evalWithin (stable : Stable mayWrite holds fits) (limit : Nat) {tree : Expr}
    (constants : ∀ value ∈ tree.constants, fits value) (targets : ∀ name ∈ tree.targets, mayWrite name)
    (good : holds store) : (tree.evalWithin limit store).Keeps holds fits := by
  induction limit generalizing tree store with
  | zero => exact Outcome.keeps_fail good .nestedTooDeeply
  | succ limit ih =>
      cases tree with
      | const value => exact Outcome.keeps_value good (constants value List.mem_cons_self)
      | var name => exact keeps_readVar stable good name
      | unsupported => exact Outcome.keeps_fail good .unsupported
      | group inner => exact ih constants targets good
      | sign op operand =>
          have inner : (operand.evalWithin limit store).Keeps holds fits := ih constants targets good
          apply inner.andThen
          intro value fit after
          exact Outcome.keeps_value after (stable.sign op fit)
      | unknownSign symbol operand =>
          have inner : (operand.evalWithin limit store).Keeps holds fits := ih constants targets good
          apply inner.andThen
          intro value _ after
          exact Outcome.keeps_fail after (.unknownSign symbol)
      | unknownBinary symbol left right =>
          obtain ⟨leftConstants, rightConstants⟩ := List.forall_mem_append.mp constants
          obtain ⟨leftTargets, rightTargets⟩ := List.forall_mem_append.mp targets
          apply (ih leftConstants leftTargets good).andThen
          intro _ _ between
          apply (ih rightConstants rightTargets between).andThen
          intro _ _ after
          exact Outcome.keeps_fail after (.unknownBinary symbol)
      | binary op left right =>
          obtain ⟨leftConstants, rightConstants⟩ := List.forall_mem_append.mp constants
          cases op with
          | assign =>
              have rightTargets := (List.forall_mem_append.mp targets).2
              apply (ih rightConstants rightTargets good).andThen
              intro value fit after
              exact keeps_assignTo stable after targets fit
          | arith op =>
              obtain ⟨leftTargets, rightTargets⟩ := List.forall_mem_append.mp targets
              apply (ih leftConstants leftTargets good).andThen
              intro a leftFit between
              apply (ih rightConstants rightTargets between).andThen
              intro b rightFit after
              exact ⟨after, fun _ => stable.arith op leftFit rightFit⟩

end Expr

/-! ### Stores of words -/

/-- Every value in a store is a word. -/
def Store.HoldsWords (store : Store) : Prop :=
  ∀ name value, store.get? name = some value → Word.InRange value

theorem Sign.inRange_apply (op : Sign) {value : Int} (fit : Word.InRange value) :
    Word.InRange (op.apply value) := by
  cases op with
  | plus => exact fit
  | minus => exact Word.wrap_inRange _

theorem ArithOp.inRange_of_apply {op : ArithOp} {left right value : Int}
    (applied : op.apply left right = .ok value) : Word.InRange value := by
  cases op with
  | add | sub | mul =>
      cases applied
      exact Word.wrap_inRange _
  | div =>
      rw [apply, Word.divide?_eq] at applied
      by_cases zero : right = 0
      · rw [if_pos zero] at applied
        cases applied
      · rw [if_neg zero] at applied
        cases applied
        exact Word.wrap_inRange _

/-- Words stay words: a sign or an operator makes one of them, and everything else passes values on. -/
theorem stable_words : Stable mayWrite Store.HoldsWords Word.InRange where
  read words found := words _ _ found
  sign := Sign.inRange_apply
  arith _ _ _ _ _ _ applied := ArithOp.inRange_of_apply applied
  write := by
    intro store name value _ words fit other found result
    rw [Store.get?_set] at result
    by_cases same : other = name
    · rw [if_pos same] at result
      cases result
      exact fit
    · rw [if_neg same] at result
      exact words other found result

/-! ### Stores that only gain names -/

/-- What some writes make of a store: every name that was there still is, and names other than those that may
    be written to are as they were. -/
structure Store.Extends (mayWrite : String → Prop) (before after : Store) : Prop where
  keeps : ∀ name, before.contains name → after.contains name
  untouched : ∀ name, ¬mayWrite name → after.get? name = before.get? name

namespace Store

theorem Extends.refl (mayWrite : String → Prop) (store : Store) : Extends mayWrite store store :=
  ⟨fun _ => id, fun _ _ => rfl⟩

theorem Extends.trans {before between after : Store} (first : Extends mayWrite before between)
    (second : Extends mayWrite between after) : Extends mayWrite before after := by
  constructor
  · intro name present
    exact second.keeps name (first.keeps name present)
  · intro name mayNot
    rw [second.untouched name mayNot, first.untouched name mayNot]

theorem Extends.mono {others : String → Prop} {before after : Store}
    (more : ∀ name, mayWrite name → others name) (extended : Extends mayWrite before after) :
    Extends others before after :=
  ⟨extended.keeps, fun name mayNot => extended.untouched name fun may => mayNot (more name may)⟩

/-- A name that is new is one of those that may be written to. -/
theorem Extends.mayWrite_of_new {before after : Store} (extended : Extends mayWrite before after)
    {name : String} (present : after.contains name) (absent : ¬before.contains name) : mayWrite name := by
  apply Classical.byContradiction
  intro mayNot
  rw [contains, extended.untouched name mayNot] at present
  exact absent present

theorem extends_set {name : String} (may : mayWrite name) (store : Store) (value : Int) :
    Extends mayWrite store (store.set name value) := by
  constructor
  · intro other present
    rw [contains, get?_set]
    by_cases same : other = name
    · rw [if_pos same]
      rfl
    · rw [if_neg same]
      exact present
  · intro other mayNot
    have differs : other ≠ name := fun same => mayNot (same ▸ may)
    rw [get?_set, if_neg differs]

end Store

theorem stable_extends (before : Store) : Stable mayWrite (Store.Extends mayWrite before) fun _ => True where
  read _ _ := trivial
  sign _ _ _ := trivial
  arith _ _ _ _ _ _ _ := trivial
  write may extended _ := extended.trans (Store.extends_set may _ _)

/-! ### From stores to tokens -/

/-- A name is assigned to in a text: one of its tokens is the name, and the next one is `=`. -/
def AssignedIn (text : String) (name : String) : Prop :=
  [Symbol.var name, .assign] <:+: (tokenize text).map Token.symbol

/-- A target is written right before its `=`. -/
theorem assigned_of_mem_targets {tree : Expr} {name : String} (member : name ∈ tree.targets) :
    [Symbol.var name, .assign] <:+: tree.symbols := by
  induction tree with
  | const | var | unsupported => cases member
  | sign op operand ih => exact List.infix_cons (ih member)
  | unknownSign symbol operand ih => exact List.infix_cons (ih member)
  | group inner ih => exact List.infix_cons (List.infix_append_of_infix_left (ih member))
  | unknownBinary symbol left right leftIh rightIh =>
      rcases List.mem_append.mp member with member | member
      · exact List.infix_append_of_infix_left (leftIh member)
      · exact List.infix_append_of_infix_right (List.infix_cons (rightIh member))
  | binary op left right leftIh rightIh =>
      cases op with
      | arith op =>
          rcases List.mem_append.mp member with member | member
          · exact List.infix_append_of_infix_left (leftIh member)
          · exact List.infix_append_of_infix_right (List.infix_cons (rightIh member))
      | assign =>
          rcases List.mem_append.mp member with member | member
          · rcases List.mem_append.mp member with own | member
            · cases left with
              | var other =>
                  obtain rfl := List.mem_singleton.mp own
                  exact (List.prefix_append [Symbol.var name, .assign] right.symbols).isInfix
              | _ => cases own
            · exact List.infix_append_of_infix_left (leftIh member)
          · exact List.infix_append_of_infix_right (List.infix_cons (rightIh member))

theorem isName_of_assignedIn {text name : String} (assigned : AssignedIn text name) : Expr.IsName name :=
  lexical_of_mem_symbols (assigned.subset List.mem_cons_self)

theorem assignedIn_of_mem_targets {text : String} {tree : Expr} (parsed : parse text = .ok tree)
    {name : String} (member : name ∈ tree.targets) : AssignedIn text name := by
  rw [AssignedIn, ← (parseTokens_grouped parsed).2.2]
  exact assigned_of_mem_targets member

theorem inRange_of_writable {tree : Expr} (writable : tree.Writable) :
    ∀ value ∈ tree.constants, Word.InRange value := by
  induction tree with
  | const value =>
      intro other member
      obtain rfl := List.mem_singleton.mp member
      exact ⟨Int.le_trans (by decide) writable.1, writable.2⟩
  | var => nofun
  | sign op operand ih => exact ih writable
  | group inner ih => exact ih writable
  | binary op left right leftIh rightIh =>
      exact List.forall_mem_append.mpr ⟨leftIh writable.1, rightIh writable.2⟩
  | unknownSign | unknownBinary | unsupported => exact writable.elim

/-- The constants of a text are words. -/
theorem inRange_of_parse {text : String} {tree : Expr} (parsed : parse text = .ok tree) :
    ∀ value ∈ tree.constants, Word.InRange value := by
  obtain ⟨grouped, unsigned, reads⟩ := parseTokens_grouped parsed
  apply inRange_of_writable
  apply writable_of_lexical grouped unsigned
  rw [reads]
  exact fun _ => lexical_of_mem_symbols

/-! ### Sessions -/

/-- One text: what no node breaks outlives it. -/
theorem keeps_evaluate {text : String} (stable : Stable (AssignedIn text) holds fits) (limit : Nat)
    (constants : ∀ tree, parse text = .ok tree → ∀ value ∈ tree.constants, fits value) (good : holds store) :
    (evaluate limit text store).Keeps holds fits := by
  unfold evaluate
  cases parsed : parse text with
  | ok tree =>
      exact Expr.keeps_evalWithin stable limit (constants tree parsed)
        (fun _ => assignedIn_of_mem_targets parsed) good
  | error cause => exact Outcome.keeps_fail good (.invalidSyntax cause)

theorem keepsWords_evaluate (limit : Nat) (text : String) (words : store.HoldsWords) :
    (evaluate limit text store).Keeps Store.HoldsWords Word.InRange :=
  keeps_evaluate stable_words limit (fun _ => inRange_of_parse) words

theorem extends_evaluate (limit : Nat) (text : String) (store : Store) :
    store.Extends (AssignedIn text) (evaluate limit text store).store :=
  (keeps_evaluate (stable_extends store) limit (fun _ _ _ _ => trivial) (.refl _ store)).store

/-- A session keeps what each of its texts keeps. -/
theorem keeps_evaluateAll {limit : Nat} {texts : List String}
    (each : ∀ text ∈ texts, ∀ {store}, holds store → (evaluate limit text store).Keeps holds fits)
    (good : holds store) : ∀ outcome ∈ evaluateAll limit texts store, outcome.Keeps holds fits := by
  induction texts generalizing store with
  | nil => nofun
  | cons text rest ih =>
      have first := each text List.mem_cons_self good
      intro outcome among
      rcases List.mem_cons.mp among with rfl | among
      · exact first
      · exact ih (fun text later => each text (List.mem_cons_of_mem _ later)) first.store outcome among

theorem extends_evaluateAll (limit : Nat) (texts : List String) (store : Store) :
    ∀ outcome ∈ evaluateAll limit texts store,
      store.Extends (fun name => ∃ text ∈ texts, AssignedIn text name) outcome.store := by
  have each : ∀ text ∈ texts, ∀ {between : Store},
      store.Extends (fun name => ∃ text ∈ texts, AssignedIn text name) between →
        (evaluate limit text between).Keeps (store.Extends fun name => ∃ text ∈ texts, AssignedIn text name)
          fun _ => True := by
    intro text member between extended
    refine ⟨extended.trans ?_, fun _ _ => trivial⟩
    exact (extends_evaluate limit text between).mono fun name assigned => ⟨text, member, assigned⟩
  intro outcome among
  exact (keeps_evaluateAll each (.refl _ store) outcome among).store

/-- The store at each point of a session has all the names that it had before. -/
theorem pairwise_evaluateAll (limit : Nat) (texts : List String) (store : Store) :
    (store :: (evaluateAll limit texts store).map Outcome.store).Pairwise fun earlier later =>
      ∀ name, earlier.contains name → later.contains name := by
  induction texts generalizing store with
  | nil => exact List.pairwise_singleton _ _
  | cons text rest ih =>
      refine List.Pairwise.cons ?_ (ih (evaluate limit text store).store)
      intro later member
      obtain ⟨outcome, among, rfl⟩ := List.mem_map.mp member
      exact (extends_evaluateAll limit (text :: rest) store outcome among).keeps

/-- **Session store.** From a store of words, whatever texts are evaluated one after the other and whatever
    becomes of each, all values returned and all values stored after any of them are words; a name that is
    new is a letter followed by letters and digits, and some text has it right before an `=`; and no name is
    ever lost. -/
theorem evaluateAll_keeps_words_and_names (words : store.HoldsWords) (limit : Nat) (texts : List String) :
    (∀ outcome ∈ evaluateAll limit texts store,
      outcome.store.HoldsWords ∧ ∀ value, outcome.result = .ok value → Word.InRange value) ∧
    (∀ outcome ∈ evaluateAll limit texts store, ∀ name, outcome.store.contains name → ¬store.contains name →
      Expr.IsName name ∧ ∃ text ∈ texts, AssignedIn text name) ∧
    (store :: (evaluateAll limit texts store).map Outcome.store).Pairwise fun earlier later =>
      ∀ name, earlier.contains name → later.contains name := by
  refine ⟨?_, ?_, pairwise_evaluateAll limit texts store⟩
  · intro outcome among
    obtain ⟨after, value⟩ := keeps_evaluateAll (fun text _ _ => keepsWords_evaluate limit text) words outcome among
    exact ⟨after, value⟩
  · intro outcome among name present absent
    have extended := extends_evaluateAll limit texts store outcome among
    obtain ⟨text, member, assigned⟩ := extended.mayWrite_of_new present absent
    exact ⟨isName_of_assignedIn assigned, text, member, assigned⟩

/-- A negation that leaves the words, a division that fails after a write, and a text that is no expression. -/
theorem evaluateAll_keeps_words_and_names_failures :
    let store := Store.ofList [("x", -2147483648)]
    let texts := ["y1 = -x", "(z = y1) / 0", "w = (v = 1"]
    store.HoldsWords ∧
      (∀ outcome ∈ evaluateAll 20 texts store, outcome.store.HoldsWords) ∧
      (evaluateAll 20 texts store).map Outcome.result =
        [.ok (-2147483648), .error .divisionByZero, .error (.invalidSyntax .unmatchedOpen)] ∧
      ∃ text ∈ texts, AssignedIn text "z" := by
  intro store texts
  have words : store.HoldsWords := by
    intro name value found
    simp only [store, Store.ofList, List.foldl, Store.get?_set, Store.get?_empty] at found
    split at found
    · cases found
      decide
    · cases found
  obtain ⟨kept, new, -⟩ := evaluateAll_keeps_words_and_names words 20 texts
  let second := evaluate 20 "(z = y1) / 0" (evaluate 20 "y1 = -x" store).store
  have among : second ∈ evaluateAll 20 texts store := List.mem_cons_of_mem _ List.mem_cons_self
  have present : second.store.contains "z" = true := by rfl
  have absent : ¬store.contains "z" = true := by decide
  have assigned : ∃ text ∈ texts, AssignedIn text "z" := (new second among "z" present absent).2
  have results : (evaluateAll 20 texts store).map Outcome.result =
      [.ok (-2147483648), .error .divisionByZero, .error (.invalidSyntax .unmatchedOpen)] := by rfl
  refine ⟨words, ?_, results, assigned⟩
  intro outcome among
  exact (kept outcome among).1

end Calculator
