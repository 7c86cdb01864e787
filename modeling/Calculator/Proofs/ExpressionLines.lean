/-
Module: Calculator.Proofs.ExpressionLines
Purpose: Which expressions a session takes for commands. An accepted text consists of letters, digits, marks and
  spacing, so no expression stands behind a colon, and stripping one takes nothing away but spacing. What is left
  are words: `exit` or `quit` as the only token, `help` as the only token in any letter case, and `help` before a
  space, whatever follows. Every other expression is evaluated.
Main exports: char_of_accepted, strip_eq_iff_onlyToken, ExitAlone, HelpAlone, HelpBeforeSpace, asksForHelp_strip_iff,
  Command.ofLine?_of_accepted, expressions_evaluated_unless_words
-/
import Mathlib
import Calculator.Proofs.AcceptedLanguage
import Calculator.Proofs.Respacing
import Calculator.Proofs.SessionReplies

namespace Calculator

/-! ### The characters of an accepted text -/

section Accepted

variable {line : String} {tree : Expr} (accepted : parse line = .ok tree) {c : Char}
include accepted

/-- Any other character would be a token on its own, and an unexpected one. -/
theorem char_of_accepted (member : c ∈ line.toList) :
    isSpacing c = true ∨ isWordChar c = true ∨ c ∈ ['+', '-', '*', '/', '=', '(', ')'] := by
  by_contra foreign
  obtain ⟨notSpacing, notWord, noMark⟩ : isSpacing c = false ∧ isWordChar c = false ∧
      c ∉ ['+', '-', '*', '/', '=', '(', ')'] := by simpa only [not_or, Bool.not_eq_true] using foreign
  rw [← flatten_pieces line.toList] at member
  obtain ⟨piece, cut, inside⟩ := List.mem_flatten.mp member
  have denotes : Denotes piece (.unexpected (String.singleton c)) := by
    cases isPiece_of_mem_pieces cut with
    | run _ word => simp [word c inside] at notWord
    | mark _ =>
        obtain rfl := List.mem_singleton.mp inside
        exact .other notWord notSpacing noMark
  have malformed : Symbol.unexpected (String.singleton c) ∈ (tokenize line).map Token.symbol := by
    rw [symbols_tokenize]
    exact List.mem_filterMap.mpr ⟨piece, cut, ofPiece?_of_denotes denotes⟩
  exact unexpected_notMem_of_sentence (sentence_of_parseTokens accepted) _ malformed

/-- The blanks of an accepted text are spacing. -/
theorem isSpacing_of_accepted (member : c ∈ line.toList) (blank : Text.isBlank c = true) : isSpacing c = true := by
  have visible : ['+', '-', '*', '/', '=', '(', ')'].all (fun mark => !Text.isBlank mark) = true := by decide
  rcases char_of_accepted accepted member with spacing | word | mark
  · exact spacing
  · simp [not_isBlank_of_isWordChar word] at blank
  · simpa [blank] using List.all_eq_true.mp visible c mark

theorem spacing_of_accepted {gap : List Char} (within : gap ⊆ line.toList)
    (blank : ∀ c ∈ gap, Text.isBlank c = true) : Spacing gap := by
  intro c member
  exact isSpacing_of_accepted accepted (within member) (blank c member)

/-- No accepted text stands behind a colon. -/
theorem noColon_of_accepted : (Text.strip line.toList).head? ≠ some ':' := by
  intro colon
  obtain ⟨front, back, -, -, split⟩ := Text.exists_blanks_around line.toList
  have member : ':' ∈ line.toList := by
    rw [split]
    simp [List.mem_of_mem_head? colon]
  exact absurd (char_of_accepted accepted member) (by decide)

end Accepted

/-! ### Lines of one word -/

/-- The line has one token, a variable of the given name. -/
def OnlyToken (line name : String) : Prop :=
  (tokenize line).map Token.symbol = [.var name]

/-- The line has one token, and it is a word for leaving. -/
def ExitAlone (line : String) : Prop :=
  OnlyToken line "exit" ∨ OnlyToken line "quit"

theorem strip_of_onlyToken {line name : String} (only : OnlyToken line name) :
    Text.strip line.toList = name.toList := by
  have lexical : (Symbol.var name).Lexical := by
    apply lexical_of_mem_symbols
    rw [only]
    exact List.mem_singleton_self _
  obtain ⟨-, inWord⟩ : Expr.IsName name := lexical
  obtain ⟨starts, ends⟩ := ends_of_word inWord
  obtain ⟨front, written, before, writes, split⟩ := writesText_tokenize line
  rw [only] at writes
  cases writes with
  | cons spells behind _ tail =>
      cases tail
      cases spells
      rw [split, List.append_nil, ← List.append_assoc]
      exact Text.strip_around (fun c member => isBlank_of_isSpacing (before c member)) starts ends
        fun c member => isBlank_of_isSpacing (behind c member)

/-- What is left of an accepted line is a name just if the name is its only token. -/
theorem strip_eq_iff_onlyToken {line name : String} {tree : Expr} (accepted : parse line = .ok tree)
    (proper : Expr.IsName name) : Text.strip line.toList = name.toList ↔ OnlyToken line name := by
  constructor
  · intro left
    obtain ⟨front, back, before, behind, split⟩ := Text.exists_blanks_around line.toList
    rw [left] at split
    have spacingBefore := spacing_of_accepted accepted (by simp [split]) before
    have spacingBehind := spacing_of_accepted accepted (by simp [split]) behind
    have apart : Touch name.toList [] → back ≠ [] := by
      rintro ⟨-, goesOn⟩
      cases goesOn
    have writes : WritesText [.var name] line :=
      ⟨front, name.toList ++ back ++ [], spacingBefore, .cons (.other nofun) spacingBehind apart .nil,
        by simp [split]⟩
    exact symbols_of_writesText writes (by simpa [Symbol.Lexical] using proper)
  · exact strip_of_onlyToken

/-! ### The word `help` -/

theorem lowerChar_cases (c : Char) :
    Text.lowerChar c = ['i', '\u0307'] ∨ Text.lowerChar c = ['k'] ∨ Text.lowerChar c = [c.toLower] := by
  unfold Text.lowerChar
  grind

/-- Nothing but letters is lower-cased to `help`. -/
theorem isAlpha_of_lower_help {word : List Char} (help : Text.lower word = "help".toList) {c : Char}
    (member : c ∈ word) : c.isAlpha = true := by
  have within : ∀ d ∈ Text.lowerChar c, d ∈ "help".toList := by
    intro d lowered
    rw [← help]
    exact List.mem_flatMap.mpr ⟨c, member, lowered⟩
  have letters : "help".toList.all Char.isAlpha = true := by decide
  rcases lowerChar_cases c with dotted | kelvin | plain
  · exact absurd (within 'i' (by simp [dotted])) (by decide)
  · exact absurd (within 'k' (by simp [kelvin])) (by decide)
  · have letter := List.all_eq_true.mp letters _ (within c.toLower (by simp [plain]))
    rwa [Char.isAlpha_toLower_eq_isAlpha] at letter

theorem isName_of_lower_help {word : List Char} (help : Text.lower word = "help".toList) :
    Expr.IsName (String.ofList word) := by
  have letters : ∀ c ∈ word, c.isAlpha = true := fun c => isAlpha_of_lower_help help
  have nonempty : word ≠ [] := by
    rintro rfl
    cases help
  unfold Expr.IsName
  rw [String.toList_ofList]
  exact ⟨head?_any_of_forall nonempty letters, fun c member => Bool.or_eq_true_iff.mpr (Or.inl (letters c member))⟩

/-- The line has one token, the word `help` in some letter case. -/
def HelpAlone (line : String) : Prop :=
  ∃ word, Text.lower word = "help".toList ∧ OnlyToken line (String.ofList word)

/-- The line starts with the word `help` in some letter case and a space. Blanks before it do not count. -/
def HelpBeforeSpace (line : String) : Prop :=
  ∃ gap word rest, (∀ c ∈ gap, Text.isBlank c = true) ∧ Text.lower word = "help".toList ∧
    line.toList = gap ++ word ++ ' ' :: rest

/-- Only one character is lower-cased to more than one, and the first of them is `i`. -/
theorem exists_of_lower_eq_cons {text rest : List Char} {a : Char} (plain : a ≠ 'i')
    (lowered : Text.lower text = a :: rest) :
    ∃ c more, text = c :: more ∧ Text.lowerChar c = [a] ∧ Text.lower more = rest := by
  cases text with
  | nil => cases lowered
  | cons c more =>
      rw [Text.lower, List.flatMap_cons] at lowered
      rcases lowerChar_cases c with same | same | same
      · rw [same] at lowered
        exact absurd (List.cons.inj lowered).1.symm plain
      · rw [same] at lowered
        obtain ⟨rfl, behind⟩ := List.cons.inj lowered
        exact ⟨c, more, rfl, same, behind⟩
      · rw [same] at lowered
        obtain ⟨rfl, behind⟩ := List.cons.inj lowered
        exact ⟨c, more, rfl, same, behind⟩

theorem exists_of_lower_eq_append {text front rest : List Char} (plain : 'i' ∉ front)
    (lowered : Text.lower text = front ++ rest) :
    ∃ word more, text = word ++ more ∧ Text.lower word = front ∧ Text.lower more = rest := by
  induction front generalizing text with
  | nil => exact ⟨[], text, rfl, rfl, lowered⟩
  | cons a front ih =>
      obtain ⟨notFirst, later⟩ := List.ne_and_not_mem_of_not_mem_cons plain
      obtain ⟨c, more, rfl, first, behind⟩ := exists_of_lower_eq_cons notFirst.symm lowered
      obtain ⟨word, more, rfl, lowered, behind⟩ := ih later behind
      exact ⟨c :: word, more, rfl, by simp_all [Text.lower], behind⟩

theorem eq_space_of_lowerChar {c : Char} (lowered : Text.lowerChar c = [' ']) : c = ' ' := by
  rcases lowerChar_cases c with same | same | same
  · simp [same] at lowered
  · simp [same] at lowered
  · have space : c.toLower = ' ' := by simpa [same] using lowered
    have noLetter : c.isAlpha = false := by
      rw [← Char.isAlpha_toLower_eq_isAlpha, space]
      decide
    have noCapital : ¬c.isUpper = true := by
      intro upper
      simp [Char.isAlpha, upper] at noLetter
    rwa [Char.toLower_eq_of_not_isUpper noCapital] at space

/-- A line asks for help if the word is all that is left of it, or stands before a space. -/
theorem asksForHelp_strip_iff {line : String} :
    Command.asksForHelp (Text.strip line.toList) = true ↔
      Text.lower (Text.strip line.toList) = "help".toList ∨ HelpBeforeSpace line := by
  unfold Command.asksForHelp
  rw [Bool.or_eq_true, decide_eq_true_eq, List.isPrefixOf_iff_prefix]
  constructor
  · rintro (alone | ⟨lowerRest, lowered⟩)
    · exact Or.inl alone
    · obtain ⟨front, back, before, -, split⟩ := Text.exists_blanks_around line.toList
      have help : Text.lower (Text.strip line.toList) = "help".toList ++ ' ' :: lowerRest := lowered.symm
      obtain ⟨word, more, left, help, lowered⟩ := exists_of_lower_eq_append (by decide) help
      obtain ⟨c, rest, rfl, space, -⟩ := exists_of_lower_eq_cons (by decide) lowered
      obtain rfl := eq_space_of_lowerChar space
      refine Or.inr ⟨front, word, rest ++ back, before, help, ?_⟩
      simpa [left] using split
  · rintro (alone | ⟨gap, word, rest, before, help, split⟩)
    · exact Or.inl alone
    · obtain ⟨starts, ends⟩ := ends_of_word (isName_of_lower_help help).2
      rw [String.toList_ofList] at starts ends
      have nonempty : word ≠ [] := by
        rintro rfl
        cases help
      rw [split, Text.strip_append before nonempty starts ends]
      obtain ⟨back, -, cut, -⟩ := Text.exists_blanks_behind (' ' :: rest)
      -- behind the word the space is kept, unless there is nothing else
      cases kept : Text.stripEnd (' ' :: rest) with
      | nil => exact Or.inl (by simpa using help)
      | cons c more =>
          rw [kept] at cut
          obtain ⟨rfl, -⟩ := List.cons.inj cut
          have space : Text.lowerChar ' ' = [' '] := by decide
          rw [Text.lower] at help
          exact Or.inr ⟨Text.lower more, by simp [Text.lower, help, space]⟩

/-! ### Expressions that are taken for commands -/

section Lines

variable {line : String} {tree : Expr} (accepted : parse line = .ok tree)
include accepted

theorem lower_strip_eq_help_iff : Text.lower (Text.strip line.toList) = "help".toList ↔ HelpAlone line := by
  constructor
  · intro help
    refine ⟨_, help, ?_⟩
    rw [← strip_eq_iff_onlyToken accepted (isName_of_lower_help help), String.toList_ofList]
  · rintro ⟨word, help, only⟩
    rw [strip_of_onlyToken only, String.toList_ofList, help]

theorem strip_mem_exitWords_iff :
    String.ofList (Text.strip line.toList) ∈ Command.exitWords ↔ ExitAlone line := by
  rw [ExitAlone, Command.ofList_mem_exitWords_iff, strip_eq_iff_onlyToken accepted (by decide),
    strip_eq_iff_onlyToken accepted (by decide)]

/-- The command that an expression is, if it is one. -/
theorem Command.ofLine?_of_accepted :
    (ExitAlone line → ofLine? line = some .leave) ∧
      (HelpAlone line ∨ HelpBeforeSpace line → ∃ topic, ofLine? line = some (.help topic)) ∧
      (¬ExitAlone line → ¬HelpAlone line → ¬HelpBeforeSpace line → ofLine? line = none) := by
  have words := strip_mem_exitWords_iff accepted
  have helps : asksForHelp (Text.strip line.toList) = true ↔ HelpAlone line ∨ HelpBeforeSpace line := by
    rw [asksForHelp_strip_iff, lower_strip_eq_help_iff accepted]
  rw [ofLine?_of_noColon (noColon_of_accepted accepted)]
  refine ⟨?_, ?_, ?_⟩
  · intro exits
    rw [if_pos (words.mpr exits)]
  · intro help
    have asks := helps.mpr help
    have noWord : String.ofList (Text.strip line.toList) ∉ exitWords := by
      rw [ofList_mem_exitWords_iff]
      rintro (same | same)
      · rw [same] at asks
        exact absurd asks (by decide)
      · rw [same] at asks
        exact absurd asks (by decide)
    exact ⟨_, by rw [if_neg noWord, if_pos asks]⟩
  · intro stays notAlone notBefore
    have quiet : ¬asksForHelp (Text.strip line.toList) = true := by simp [helps, notAlone, notBefore]
    rw [if_neg (words.not.mpr stays), if_neg quiet]

end Lines

/-- **Expressions.** A session evaluates an accepted line, and answers with the value or the error, unless the line
    has one of three forms: its only token is `exit` or `quit`, which ends the session; its only token is `help` in
    some letter case; or it starts with `help` and a space, whatever follows. The last two are answered by a help
    text, and the store stays as it is. A value that is too long to be written out is the only one without an answer,
    and no word is. -/
theorem expressions_evaluated_unless_words (limits : Limits) (files : Files) (historyFile line : String)
    (store : Store) {tree : Expr} (accepted : parse line = .ok tree) :
    let evaluated := evaluate limits.nesting line store
    let outcome := answerLine limits files historyFile line store
    (¬ExitAlone line → ¬HelpAlone line → ¬HelpBeforeSpace line →
      (∀ value, evaluated.result = .ok value →
        (limits.CanWrite value → outcome.reply = .answer true (toString value)) ∧
        (¬limits.CanWrite value → outcome.reply = .failed .tooManyDigits) ∧
        (store.HoldsWords → limits.CanWrite value)) ∧
      (∀ error, evaluated.result = .error error → outcome.reply = .answer false s!"Error: {error.message}") ∧
      outcome.store = evaluated.store) ∧
    (ExitAlone line → outcome.reply = .leave ∧ outcome.store = store) ∧
    (HelpAlone line ∨ HelpBeforeSpace line →
      (∃ topic, outcome.reply = .answer true (Help.text topic)) ∧ outcome.store = store) := by
  obtain ⟨leave, help, expression⟩ := Command.ofLine?_of_accepted accepted
  refine ⟨?_, ?_, ?_⟩
  · intro stays notAlone notBefore
    simp only [answerLine, expression stays notAlone notBefore]
    refine ⟨?_, ?_, trivial⟩
    · intro value evaluated
      rw [evaluated]
      refine ⟨replyTo_ok_of_canWrite, replyTo_ok_of_not_canWrite, ?_⟩
      intro words
      exact limits.canWrite_of_inRange ((keepsWords_evaluate limits.nesting line words).value value evaluated)
    · intro error evaluated
      rw [evaluated, replyTo]
  · intro exits
    simp [answerLine, leave exits, Command.reply]
  · intro helps
    obtain ⟨topic, asked⟩ := help helps
    simp [answerLine, asked, Command.reply]

/-- A tab behind `HELP` makes it a variable, and `exit` is one behind an assignment. -/
theorem expressions_evaluated_unless_words_tab :
    let limits : Limits := ⟨20, 0, Or.inl rfl⟩
    parse "HELP\t= exit = 3" = .ok (.binary .assign (.var "HELP") (.binary .assign (.var "exit") (.const 3))) ∧
      ¬HelpBeforeSpace "HELP\t= exit = 3" ∧
      (answerLine limits [] "h" "HELP\t= exit = 3" Store.empty).reply = .answer true "3" := by
  intro limits
  have accepted : parse "HELP\t= exit = 3" =
      .ok (.binary .assign (.var "HELP") (.binary .assign (.var "exit") (.const 3))) := by rfl
  have symbols : (tokenize "HELP\t= exit = 3").map Token.symbol =
      [.var "HELP", .assign, .var "exit", .assign, .const 3] := by rfl
  have several : ∀ word, ¬OnlyToken "HELP\t= exit = 3" word := by
    intro word only
    simp [OnlyToken, symbols] at only
  have notBefore : ¬HelpBeforeSpace "HELP\t= exit = 3" := by
    intro before
    exact absurd (asksForHelp_strip_iff.mpr (Or.inr before)) (by decide)
  have evaluated := (expressions_evaluated_unless_words limits [] "h" "HELP\t= exit = 3" Store.empty accepted).1
    (by simp [ExitAlone, several]) (by simp [HelpAlone, several]) notBefore
  exact ⟨accepted, notBefore, (evaluated.1 3 rfl).1 (Or.inl rfl)⟩

/-- Not every assignment is carried out or reported: one to the variable `help`, with a space behind it, is
    answered as if it were a topic. -/
theorem assignment_to_help_ignored :
    ¬∀ (limits : Limits) (files : Files) (historyFile line : String) (store : Store) (tree : Expr),
      parse line = .ok tree → ¬ExitAlone line → ¬HelpAlone line →
      (answerLine limits files historyFile line store).reply =
          replyTo limits (evaluate limits.nesting line store).result ∧
        (answerLine limits files historyFile line store).store = (evaluate limits.nesting line store).store := by
  intro claim
  let limits : Limits := ⟨20, 0, Or.inl rfl⟩
  have accepted : parse "help = 5" = .ok (.binary .assign (.var "help") (.const 5)) := by rfl
  have symbols : (tokenize "help = 5").map Token.symbol = [.var "help", .assign, .const 5] := by rfl
  have several : ∀ word, ¬OnlyToken "help = 5" word := by
    intro word only
    simp [OnlyToken, symbols] at only
  have answered : (answerLine limits [] "h" "help = 5" Store.empty).reply =
      .answer true "No help available for topic '= 5'" := by rfl
  have value : replyTo limits (evaluate limits.nesting "help = 5" Store.empty).result = .answer true "5" := by rfl
  obtain ⟨same, -⟩ := claim limits [] "h" "help = 5" Store.empty _ accepted (by simp [ExitAlone, several])
    (by simp [HelpAlone, several])
  rw [answered, value] at same
  simp at same

end Calculator
