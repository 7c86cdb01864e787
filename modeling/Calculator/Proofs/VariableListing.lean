/-
Module: Calculator.Proofs.VariableListing
Purpose: The list of the variables as input. Each of its lines is an assignment of a decimal value to a name, and reads
  back as such in any session, with two exceptions that change no store: the least word, whose digits are no literal,
  and a name that is the word `help`, because such a line asks for help. So the lines of a list without these rebuild
  the variables that it was made of.
Main exports: entryLine, linesOf, linesOf_listVariables, valueTree, parse_entryLine, evaluate_entryLine,
  Help.text_ne_toString, LineOutcome.Assigns, assigns_entryLine_iff, afterLines_entryLines, listed_variables_read_back
-/
import Calculator.Proofs.ExpressionLines
import Calculator.Proofs.Noninterference
import Calculator.Proofs.ParserCompleteness
import Calculator.Proofs.SilentLines
import Calculator.Proofs.StoreViews

namespace Calculator

/-! ### The lines of the list -/

/-- The line that lists a variable. -/
def entryLine (name : String) (value : Int) : String :=
  s!"{name} = {value}"

/-- The lines of an answer. -/
def linesOf (answer : String) : List String :=
  (answer.toList.splitOn '\n').map String.ofList

theorem toList_toString (value : Int) :
    (toString value).toList = (if value < 0 then ['-'] else []) ++ (toString value.natAbs).toList := by
  cases value with
  | ofNat n => rfl
  | negSucc n =>
      have sign : Int.negSucc n < 0 := Int.negSucc_lt_zero n
      have written : toString (Int.negSucc n) = "-" ++ toString (Int.negSucc n).natAbs := rfl
      rw [if_pos sign, written, String.toList_append]
      rfl

theorem toList_entryLine (name : String) (value : Int) :
    (entryLine name value).toList = name.toList ++ ' ' :: '=' :: ' ' :: (toString value).toList := by
  simp [entryLine, toString]

theorem isDigit_of_mem_toString {n : Nat} {c : Char} (member : c ∈ (toString n).toList) : c.isDigit = true :=
  List.all_eq_true.mp (Literal.all_isDigit_numeral 0 n) c member

/-- A value is written with digits, behind a sign if it is negative. -/
theorem isDigit_or_eq_minus {value : Int} {c : Char} (member : c ∈ (toString value).toList) :
    c.isDigit = true ∨ c = '-' := by
  rw [toList_toString, List.mem_append] at member
  rcases member with sign | digit
  · split at sign
    · exact Or.inr (List.mem_singleton.mp sign)
    · cases sign
  · exact Or.inl (isDigit_of_mem_toString digit)

theorem noFeed_entryLine {name : String} (proper : Expr.IsName name) (value : Int) :
    '\n' ∉ (entryLine name value).toList := by
  rw [toList_entryLine]
  intro member
  rcases List.mem_append.mp member with inName | behind
  · exact absurd (proper.2 _ inName) (by decide)
  · have inValue : '\n' ∈ (toString value).toList := by simpa using behind
    exact absurd (isDigit_or_eq_minus inValue) (by decide)

/-- A store of words can be listed. -/
theorem exists_listVariables_eq_ok (limits : Limits) {store : Store} (words : store.HoldsWords) :
    ∃ listed, listVariables limits store = .ok listed := by
  cases shown : listVariables limits store with
  | ok listed => exact ⟨listed, rfl⟩
  | error failure =>
      obtain ⟨⟨name, value, held, tooLong⟩, -⟩ := listVariables_eq_error_iff.mp shown
      exact absurd (limits.canWrite_of_inRange (words name value held)) tooLong

/-- The list has one line for each variable, in order of name. -/
theorem linesOf_listVariables {limits : Limits} {store : Store} {listed : String}
    (names : ∀ name ∈ store.names, Expr.IsName name) (nonempty : store.names ≠ [])
    (shown : listVariables limits store = .ok listed) :
    linesOf listed = store.items.map fun item => entryLine item.1 item.2 := by
  have some : store.items ≠ [] := fun none => nonempty (by rw [Store.names, none]; rfl)
  have shown : listed = "\n".intercalate (store.items.map fun item => entryLine item.1 item.2) := by
    unfold listVariables at shown
    split at shown
    · rename_i none
      exact absurd none some
    · rw [Limits.writeEntries_eq] at shown
      split at shown
      · exact (Except.ok.inj shown).symm
      · cases shown
  have noFeed : ∀ line ∈ (store.items.map fun item => entryLine item.1 item.2).map String.toList, '\n' ∉ line := by
    intro line member
    obtain ⟨_, listed, rfl⟩ := List.mem_map.mp member
    obtain ⟨item, among, rfl⟩ := List.mem_map.mp listed
    exact noFeed_entryLine (names item.1 (List.mem_map_of_mem among)) item.2
  have feed : "\n".toList = ['\n'] := rfl
  rw [linesOf, shown, String.toList_intercalate, feed, List.splitOn_intercalate '\n' noFeed (by simpa using some)]
  simp [Function.comp_def]

/-! ### Reading a line back -/

/-- The right side of the line of a value. -/
def valueTree (value : Int) : Expr :=
  if value < 0 then .sign .minus (.const value.natAbs) else .const value.natAbs

/-- A line writes a name, the assignment sign, the sign of a negative value, and the digits. -/
theorem writesText_entryLine (name : String) {value : Int} {digits : Symbol}
    (spells : Spells digits (toString value.natAbs).toList) :
    WritesText (.var name :: .assign :: ((if value < 0 then [.minus] else []) ++ [digits]))
      (entryLine name value) := by
  have last : Writes [digits] ((toString value.natAbs).toList ++ [] ++ []) :=
    .cons spells nofun (fun touch => absurd touch.2 Bool.false_ne_true) .nil
  have right : Writes ((if value < 0 then [Symbol.minus] else []) ++ [digits]) (toString value).toList := by
    rw [List.append_nil, List.append_nil] at last
    rw [toList_toString]
    split
    · have apart : Touch ['-'] (toString value.natAbs).toList → ([] : List Char) ≠ [] :=
        fun touch => absurd touch.1 (by decide)
      have sign : Spells .minus ['-'] := .other nofun
      exact .cons sign nofun apart last
    · exact last
  have space : Spacing [' '] := by decide
  refine ⟨[], _, nofun, .cons (.other nofun) space (fun _ => List.cons_ne_nil _ _)
    (.cons (.other nofun) space (fun _ => List.cons_ne_nil _ _) right), ?_⟩
  rw [toList_entryLine]
  simp [Symbol.text]

theorem symbols_entryLine {name : String} (proper : Expr.IsName name) {value : Int} {digits : Symbol}
    (spells : Spells digits (toString value.natAbs).toList) (lexical : digits.Lexical) :
    (tokenize (entryLine name value)).map Token.symbol =
      .var name :: .assign :: ((if value < 0 then [.minus] else []) ++ [digits]) := by
  refine symbols_of_writesText (writesText_entryLine name spells) ?_
  intro symbol member
  rcases List.mem_cons.mp member with rfl | member
  · exact proper
  · rcases List.mem_cons.mp member with rfl | member
    · trivial
    · rcases List.mem_append.mp member with sign | last
      · split at sign
        · rw [List.mem_singleton.mp sign]
          trivial
        · cases sign
      · rwa [List.mem_singleton.mp last]

section Entries

variable {name : String} (proper : Expr.IsName name) {value : Int}
include proper

/-- A value that is written with a literal is read as an assignment of it. -/
theorem parse_entryLine (fits : value.natAbs ≤ Literal.maxValue) :
    parse (entryLine name value) = .ok (.binary .assign (.var name) (valueTree value)) := by
  have symbols := symbols_entryLine proper (Spells.const 0 value.natAbs) fits
  have grouped : (Expr.binary .assign (.var name) (valueTree value)).Grouped := by
    unfold valueTree
    split <;> simp [Expr.Grouped, Expr.leftEdge, Expr.rightEdge]
  have unsigned : Parser.Unsigned (.binary .assign (.var name) (valueTree value)) := by
    unfold valueTree
    split <;> simp [Parser.Unsigned]
  apply parseTokens_of_symbols grouped unsigned
  rw [symbols]
  unfold valueTree
  split <;> rfl

/-- The least word is written with digits that are no literal. -/
theorem isOk_parse_entryLine_least : (parse (entryLine name (-2 ^ 31))).isOk = false := by
  have written : toString (-2 ^ 31 : Int).natAbs = "2147483648" := by decide
  have spells : Spells (.unexpected "2147483648") (toString (-2 ^ 31 : Int).natAbs).toList := by
    rw [written]
    exact .other nofun
  have digits : "2147483648".toList.all isWordChar = true := by decide
  have lexical : (Symbol.unexpected "2147483648").Lexical :=
    ⟨.run (List.cons_ne_nil _ _) (List.all_eq_true.mp digits), by decide⟩
  have symbols := symbols_entryLine proper spells lexical
  cases parsed : parse (entryLine name (-2 ^ 31)) with
  | error cause => rfl
  | ok tree =>
      have member : Symbol.unexpected "2147483648" ∈ (tokenize (entryLine name (-2 ^ 31))).map Token.symbol := by
        rw [symbols]
        simp
      exact absurd member (unexpected_notMem_of_sentence (sentence_of_parseTokens parsed) _)

theorem evaluate_entryLine {limit : Nat} (deep : 3 ≤ limit) (word : Word.InRange value) (notLeast : value ≠ -2 ^ 31)
    (store : Store) :
    evaluate limit (entryLine name value) store = .value value (store.set name value) := by
  have fits : value.natAbs ≤ Literal.maxValue := by
    unfold Word.InRange at word
    unfold Literal.maxValue
    omega
  have right : ∀ limit, (valueTree value).evalWithin (limit + 2) store = .value value store := by
    intro limit
    unfold valueTree
    split
    · have negated : -(value.natAbs : Int) = value := by omega
      simp only [Expr.evalWithin, Outcome.value_andThen, Sign.apply, negated, Word.wrap_of_inRange word]
    · have same : (value.natAbs : Int) = value := by omega
      simp only [Expr.evalWithin, same]
  obtain ⟨rest, rfl⟩ := Nat.exists_eq_add_of_le' deep
  rw [evaluate, parse_entryLine proper fits]
  dsimp only
  rw [Expr.evalWithin, right]
  rfl

/-! ### The word `help` -/

omit proper in
/-- The two letters that are lower-cased to others of ASCII are not of ASCII themselves. -/
theorem Text.lower_of_word {word : List Char} (inWord : ∀ c ∈ word, isWordChar c = true) :
    Text.lower word = word.map Char.toLower := by
  induction word with
  | nil => rfl
  | cons c word ih =>
      obtain ⟨first, others⟩ := List.forall_mem_cons.mp inWord
      have notDotted : c ≠ '\u0130' := by
        rintro rfl
        exact absurd first (by decide)
      have notKelvin : c ≠ '\u212A' := by
        rintro rfl
        exact absurd first (by decide)
      have lowered : Text.lowerChar c = [c.toLower] := by rw [Text.lowerChar, if_neg notDotted, if_neg notKelvin]
      rw [Text.lower, List.flatMap_cons, lowered, List.map_cons, ← ih others]
      rfl

theorem lower_eq_help_iff : Text.lower name.toList = "help".toList ↔ name.toLower = "help" := by
  rw [Text.lower_of_word proper.2, ← String.toList_inj]
  simp [String.toLower]

/-- A name starts with a letter, and no letter is blank. -/
theorem Expr.IsName.exists_first : ∃ c, name.toList.head? = some c ∧ c.isAlpha = true ∧ Text.isBlank c = false := by
  obtain ⟨c, starts, letter⟩ := (Option.any_eq_true _ _).mp proper.1
  exact ⟨c, starts, letter, not_isBlank_of_isWordChar (proper.2 c (List.mem_of_mem_head? starts))⟩

omit proper in
theorem takeWhile_before_space {word : List Char} (inWord : ∀ c ∈ word, isWordChar c = true) (rest : List Char) :
    (word ++ ' ' :: rest).takeWhile isWordChar = word := by
  rw [List.takeWhile_append_of_pos inWord, List.takeWhile_cons_of_neg (by decide), List.append_nil]

theorem helpBeforeSpace_entryLine_iff : HelpBeforeSpace (entryLine name value) ↔ name.toLower = "help" := by
  rw [← lower_eq_help_iff proper]
  constructor
  · rintro ⟨gap, word, rest, blank, help, split⟩
    rw [toList_entryLine] at split
    have inWord : ∀ c ∈ word, isWordChar c = true :=
      fun c member => Bool.or_eq_true_iff.mpr (Or.inl (isAlpha_of_lower_help help member))
    have noGap : gap = [] := by
      obtain ⟨c, starts, -, visible⟩ := proper.exists_first
      cases gap with
      | nil => rfl
      | cons d gap =>
          have first := congrArg List.head? split
          rw [List.head?_append, starts] at first
          obtain rfl : c = d := Option.some.inj first
          rw [blank c List.mem_cons_self] at visible
          cases visible
    -- both words reach up to the first space
    have same := congrArg (List.takeWhile isWordChar) split
    rw [noGap, List.nil_append, takeWhile_before_space proper.2, takeWhile_before_space inWord] at same
    rw [same, help]
  · intro help
    exact ⟨[], name.toList, _, nofun, help, toList_entryLine name value⟩

omit proper in
theorem not_isBlank_of_mem_toString {c : Char} (member : c ∈ (toString value).toList) : Text.isBlank c = false := by
  rcases isDigit_or_eq_minus member with digit | rfl
  · exact not_isBlank_of_isWordChar (isWordChar_of_isDigit digit)
  · decide

/-- Nothing is stripped from a line of the list. -/
theorem strip_entryLine : Text.strip (entryLine name value).toList = (entryLine name value).toList := by
  have starts : (entryLine name value).toList.head?.any Text.isBlank = false := by
    obtain ⟨c, starts, -, visible⟩ := proper.exists_first
    rw [toList_entryLine, List.head?_append, starts]
    exact visible
  have ends : (entryLine name value).toList.getLast?.any Text.isBlank = false := by
    cases last : (entryLine name value).toList.getLast? with
    | none => rfl
    | some c =>
        have nonempty : (toString value).toList ≠ [] := by
          rw [toList_toString]
          exact List.append_ne_nil_of_right_ne_nil _ (by simp [Nat.toDigits_ne_nil])
        rw [toList_entryLine, List.append_cons, List.append_cons, List.append_cons,
          List.getLast?_append_of_ne_nil _ nonempty] at last
        exact not_isBlank_of_mem_toString (List.mem_of_mem_getLast? last)
  have kept := @Text.strip_around [] _ [] nofun starts ends nofun
  rwa [List.nil_append, List.append_nil] at kept

/-- The line asks for help if the name is the word, and is no command otherwise. -/
theorem ofLine?_entryLine :
    Command.ofLine? (entryLine name value) =
      if name.toLower = "help" then some (.help (Command.helpTopic? (entryLine name value).toList)) else none := by
  have strip := @strip_entryLine name proper value
  have space : ' ' ∈ (entryLine name value).toList := by
    rw [toList_entryLine]
    simp
  have noColon : (Text.strip (entryLine name value).toList).head? ≠ some ':' := by
    obtain ⟨c, starts, letter, -⟩ := proper.exists_first
    rw [strip, toList_entryLine, List.head?_append, starts]
    rintro ⟨⟩
    exact absurd letter (by decide)
  have noWord : String.ofList (entryLine name value).toList ∉ Command.exitWords := by
    rw [Command.ofList_mem_exitWords_iff]
    rintro (same | same)
    · exact absurd (same ▸ space) (by decide)
    · exact absurd (same ▸ space) (by decide)
  have asks : Command.asksForHelp (entryLine name value).toList = true ↔ name.toLower = "help" := by
    have notAlone : Text.lower (entryLine name value).toList ≠ "help".toList :=
      fun help => absurd (isAlpha_of_lower_help help space) (by decide)
    rw [← @helpBeforeSpace_entryLine_iff name proper value, ← strip, asksForHelp_strip_iff, strip]
    exact or_iff_right notAlone
  rw [Command.ofLine?_of_noColon noColon, strip, if_neg noWord]
  by_cases help : name.toLower = "help"
  · rw [if_pos help, if_pos (asks.mpr help)]
  · rw [if_neg help, if_neg (asks.not.mpr help)]

end Entries

namespace Help

theorem letter_append {first : String} (letter : first.toList.head?.any Char.isAlpha = true) (second : String) :
    (first ++ second).toList.head?.any Char.isAlpha = true := by
  obtain ⟨c, starts, letter⟩ := (Option.any_eq_true _ _).mp letter
  rw [String.toList_append, List.head?_append, starts]
  exact letter

/-- Every help text starts with a letter. -/
theorem letter_text (topic : Option String) : (text topic).toList.head?.any Char.isAlpha = true := by
  have letterGeneral : general.toList.head?.any Char.isAlpha = true := by
    unfold general
    repeat apply letter_append
    decide
  have letterOperators : operators.toList.head?.any Char.isAlpha = true := by
    unfold operators
    repeat apply letter_append
    decide
  unfold text
  split
  · exact letterGeneral
  · exact letterGeneral
  · split
    · rename_i found
      simp only [topics, List.lookup_cons, List.lookup_nil] at found
      split at found
      · rw [← Option.some.inj found]
        exact letterGeneral
      · split at found
        · rw [← Option.some.inj found]
          exact letterOperators
        · cases found
    · exact letter_append (letter_append (by decide) _) _

/-- So it is no number. -/
theorem text_ne_toString (topic : Option String) (value : Int) : text topic ≠ toString value := by
  intro same
  obtain ⟨c, starts, letter⟩ := (Option.any_eq_true _ _).mp (letter_text topic)
  rw [same] at starts
  rcases isDigit_or_eq_minus (List.mem_of_mem_head? starts) with digit | rfl
  · rw [not_isAlpha_of_isDigit digit] at letter
    cases letter
  · exact absurd letter (by decide)

end Help

/-! ### Answers to the lines -/

/-- What comes of a line that assigns: the value is the answer, the name has it, and the other names are as before. -/
structure LineOutcome.Assigns (outcome : LineOutcome) (before : Store) (name : String) (value : Int) : Prop where
  reply : outcome.reply = .answer true (toString value)
  written : outcome.store.get? name = some value
  others : ∀ other, other ≠ name → outcome.store.get? other = before.get? other

section Answers

variable {limits : Limits} {files : Files} {historyFile name : String} (proper : Expr.IsName name) {value : Int}
  (word : Word.InRange value) {store : Store}
include proper word

theorem answerLine_entryLine (deep : 3 ≤ limits.nesting) (notLeast : value ≠ -2 ^ 31) (noHelp : name.toLower ≠ "help") :
    answerLine limits files historyFile (entryLine name value) store =
      ⟨.answer true (toString value), store.set name value, recordsOf (entryLine name value) (.ok value)⟩ := by
  rw [answerLine, ofLine?_entryLine proper, if_neg noHelp]
  dsimp only
  rw [evaluate_entryLine proper deep word notLeast]
  dsimp only [Outcome.value]
  rw [replyTo_ok_of_canWrite (limits.canWrite_of_inRange word)]

omit word in
/-- A line that asks for help changes no store, and is not answered with a number. -/
theorem answerLine_entryLine_help (help : name.toLower = "help") :
    (answerLine limits files historyFile (entryLine name value) store).reply ≠ .answer true (toString value) ∧
      (answerLine limits files historyFile (entryLine name value) store).store = store := by
  rw [answerLine, ofLine?_entryLine proper, if_pos help]
  refine ⟨?_, rfl⟩
  intro same
  exact Help.text_ne_toString _ value (Reply.answer.inj same).2

omit word in
/-- The line of the least word is no expression. -/
theorem answerLine_entryLine_least (noHelp : name.toLower ≠ "help") :
    (∃ text, (answerLine limits files historyFile (entryLine name (-2 ^ 31)) store).reply = .answer false text) ∧
      (answerLine limits files historyFile (entryLine name (-2 ^ 31)) store).store = store := by
  have refused := isOk_parse_entryLine_least proper
  rw [answerLine, ofLine?_entryLine proper, if_neg noHelp]
  dsimp only
  rw [evaluate]
  cases parsed : parse (entryLine name (-2 ^ 31)) with
  | ok tree =>
      rw [parsed] at refused
      cases refused
  | error cause => exact ⟨⟨_, rfl⟩, rfl⟩

/-- A line of the list assigns, but for the two exceptions, which change nothing. -/
theorem assigns_entryLine_iff (deep : 3 ≤ limits.nesting) :
    ((answerLine limits files historyFile (entryLine name value) store).Assigns store name value ↔
        value ≠ -2 ^ 31 ∧ name.toLower ≠ "help") ∧
      (value = -2 ^ 31 ∨ name.toLower = "help" →
        (answerLine limits files historyFile (entryLine name value) store).store = store) := by
  have set : (store.set name value).get? name = some value := by rw [Store.get?_set, if_pos rfl]
  have others : ∀ other, other ≠ name → (store.set name value).get? other = store.get? other := by
    intro other differs
    rw [Store.get?_set, if_neg differs]
  by_cases help : name.toLower = "help"
  · obtain ⟨noNumber, same⟩ := @answerLine_entryLine_help limits files historyFile name proper value store help
    exact ⟨⟨fun assigns => absurd assigns.reply noNumber, fun both => absurd help both.2⟩, fun _ => same⟩
  · by_cases least : value = -2 ^ 31
    · subst least
      obtain ⟨⟨text, refused⟩, same⟩ := @answerLine_entryLine_least limits files historyFile name proper store help
      refine ⟨⟨fun assigns => ?_, fun both => absurd rfl both.1⟩, fun _ => same⟩
      have reply := assigns.reply
      rw [refused] at reply
      cases reply
    · rw [answerLine_entryLine proper word deep least help]
      exact ⟨⟨fun _ => ⟨least, help⟩, fun _ => ⟨rfl, set, others⟩⟩,
        fun either => absurd either (not_or.mpr ⟨least, help⟩)⟩

end Answers

/-! ### The whole list -/

/-- The lines of variables without the exceptions write them one after the other. -/
theorem afterLines_entryLines {limits : Limits} (deep : 3 ≤ limits.nesting) (files : Files)
    (historyFile : String) {items : List (String × Int)}
    (each : ∀ item ∈ items, Expr.IsName item.1 ∧ Word.InRange item.2 ∧ item.2 ≠ -2 ^ 31 ∧ item.1.toLower ≠ "help")
    (store : Store) :
    store.afterLines (answerLines limits files historyFile (items.map fun item => entryLine item.1 item.2) store) =
      store.overwrite items := by
  induction items generalizing store with
  | nil => rfl
  | cons item items ih =>
      obtain ⟨⟨proper, word, notLeast, noHelp⟩, others⟩ := List.forall_mem_cons.mp each
      rw [List.map_cons, afterLines_cons, answerLine_entryLine proper word deep notLeast noHelp, ih others]
      rfl

/-- The listed pairs, written to no variables, are the variables again. -/
theorem Store.get?_overwrite_items (store : Store) (name : String) :
    (Store.empty.overwrite store.items).get? name = store.get? name := by
  have apart := store.nodup_map_fst_items
  have apart' : (store.items.reverse.map Prod.fst).Nodup := by
    rw [List.map_reverse]
    exact List.nodup_reverse.mpr apart
  rw [Store.get?_overwrite, Store.get?_empty, Option.or_none, lastWrite?]
  ext value
  rw [lookup_eq_some_iff_mem apart', List.mem_reverse, Store.mem_items_iff]

/-- **Replaying the list.** The answer to `:vars` has one line for each variable. Given to any session that can
    evaluate three levels deep, the line of a variable assigns its value to it, just if the value is not the least
    word and the name is not `help` in some letter case; otherwise it changes no store. So the lines of variables
    without these exceptions, given to a session without variables, rebuild the variables, and are listed again. -/
theorem listed_variables_read_back (limits : Limits) (deep : 3 ≤ limits.nesting) (store : Store)
    (names : ∀ name ∈ store.names, Expr.IsName name) (words : store.HoldsWords) :
    ∃ listed : String,
    (∀ files historyFile,
      (answerLine limits files historyFile ":vars" store).reply = .answer true listed) ∧
    (store.names ≠ [] → linesOf listed = store.items.map fun item => entryLine item.1 item.2) ∧
    (∀ name value, (name, value) ∈ store.items → ∀ files historyFile before,
      let outcome := answerLine limits files historyFile (entryLine name value) before
      (outcome.Assigns before name value ↔ value ≠ -2 ^ 31 ∧ name.toLower ≠ "help") ∧
        (value = -2 ^ 31 ∨ name.toLower = "help" → outcome.store = before)) ∧
    (store.names ≠ [] →
      (∀ name value, (name, value) ∈ store.items → value ≠ -2 ^ 31 ∧ name.toLower ≠ "help") →
      ∀ files historyFile,
      let rebuilt := Store.empty.afterLines (answerLines limits files historyFile (linesOf listed) Store.empty)
      (∀ name, rebuilt.get? name = store.get? name) ∧
        (answerLine limits files historyFile ":vars" rebuilt).reply =
          (answerLine limits files historyFile ":vars" store).reply) := by
  have vars : Command.ofLine? ":vars" = some .vars := by decide
  have replied : ∀ files historyFile store,
      (answerLine limits files historyFile ":vars" store).reply = .showing (listVariables limits store) := by
    intro files historyFile store
    rw [reply_of_command vars, Command.reply]
  have known : ∀ {name value}, (name, value) ∈ store.items → Expr.IsName name ∧ Word.InRange value := by
    intro name value among
    exact ⟨names name (List.mem_map_of_mem among), words name value (Store.mem_items_iff.mp among)⟩
  obtain ⟨listed, shown⟩ := exists_listVariables_eq_ok limits words
  refine ⟨listed, ?_, fun nonempty => linesOf_listVariables names nonempty shown, ?_, ?_⟩
  · intro files historyFile
    rw [replied, shown, Reply.showing]
  · intro name value among files historyFile before
    exact assigns_entryLine_iff (known among).1 (known among).2 deep
  · intro nonempty plain files historyFile rebuilt
    have each : ∀ item ∈ store.items,
        Expr.IsName item.1 ∧ Word.InRange item.2 ∧ item.2 ≠ -2 ^ 31 ∧ item.1.toLower ≠ "help" := by
      rintro ⟨name, value⟩ among
      exact ⟨(known among).1, (known among).2, plain name value among⟩
    have same : rebuilt = Store.empty.overwrite store.items := by
      rw [← afterLines_entryLines deep files historyFile each, ← linesOf_listVariables names nonempty shown]
    have values : ∀ name, rebuilt.get? name = store.get? name := by
      rw [same]
      exact store.get?_overwrite_items
    refine ⟨values, ?_⟩
    rw [replied, replied, listVariables, listVariables, Store.items_eq_of_get?_eq values]

/-- The least word and a name that is `Help` are listed but not read back; a sign and a word for leaving are no
    hindrance. -/
theorem listed_variables_read_back_exceptions :
    let limits : Limits := ⟨20, 640, Or.inr (Nat.le_refl 640)⟩
    let store := Store.ofList [("x1", -2147483648), ("Help", 7), ("b", 3)]
    let plain := Store.ofList [("x1", -5), ("exit", 0)]
    (answerLine limits [] "h" "b = 3" plain).Assigns plain "b" 3 ∧
      ¬(answerLine limits [] "h" "Help = 7" store).Assigns store "Help" 7 ∧
      (answerLine limits [] "h" "Help = 7" plain).store = plain ∧
      (answerLine limits [] "h" "x1 = -2147483648" plain).store = plain ∧
      ∃ listed, (answerLine limits [] "h" ":vars" plain).reply = .answer true listed ∧
        let rebuilt := Store.empty.afterLines (answerLines limits [] "h" (linesOf listed) Store.empty)
        rebuilt.get? "x1" = some (-5) ∧ rebuilt.get? "exit" = some 0 ∧ rebuilt.get? "b" = none := by
  intro limits store plain
  have known : ∀ listed : Store, (∀ entry ∈ listed.entries, Expr.IsName entry.1 ∧ Word.InRange entry.2) →
      (∀ name ∈ listed.names, Expr.IsName name) ∧ listed.HoldsWords := by
    intro listed each
    refine ⟨?_, fun name value given => (each _ (Store.mem_entries_iff.mpr given)).2⟩
    intro name member
    obtain ⟨item, among, rfl⟩ := List.mem_map.mp member
    exact (each item (listed.items_perm.mem_iff.mp among)).1
  have deep : 3 ≤ limits.nesting := by decide
  obtain ⟨names, words⟩ := known store (by decide)
  obtain ⟨-, -, -, lines, -⟩ := listed_variables_read_back limits deep store names words
  obtain ⟨names, words⟩ := known plain (by decide)
  obtain ⟨listed, replied, -, -, rebuild⟩ := listed_variables_read_back limits deep plain names words
  have nonempty : plain.names ≠ [] := List.ne_nil_of_mem (Store.mem_names_iff.mpr (by decide : plain.contains "x1"))
  have noException : ∀ entry ∈ plain.entries, entry.2 ≠ -2 ^ 31 ∧ entry.1.toLower ≠ "help" := by decide +kernel
  obtain ⟨values, -⟩ := rebuild nonempty
    (fun name value among => noException _ (plain.items_perm.mem_iff.mp among)) [] "h"
  have helps : "Help".toLower = "help" := by decide +kernel
  refine ⟨?_, ?_, ?_, ?_, listed, replied [] "h", ?_⟩
  · exact (lines "b" 3 (Store.mem_items_iff.mpr rfl) [] "h" plain).1.mpr (by decide +kernel)
  · intro assigns
    exact ((lines "Help" 7 (Store.mem_items_iff.mpr rfl) [] "h" store).1.mp assigns).2 helps
  · exact (lines "Help" 7 (Store.mem_items_iff.mpr rfl) [] "h" plain).2 (Or.inr helps)
  · exact (lines "x1" (-2147483648) (Store.mem_items_iff.mpr rfl) [] "h" plain).2 (Or.inl (by decide))
  · exact ⟨values "x1", values "exit", values "b"⟩

end Calculator
