/-
Module: Calculator.Proofs.Reading
Purpose: Reading on demand and cutting at once come to the same. What a reader has not delivered yet is cut into
  tokens by `upcoming`; asking for the next token takes the first of them, wherever the character behind a run
  is kept. So all tokens of a reader are those of its text, and a parser that asks for a token only when it has
  accepted the one before it finds the same tree or error as one that has the whole list.
Main exports: Reader.tokens, Reader.upcoming, Reader.upcoming_of_next, Reader.tokens_ofText, Reader.parse_ofText
-/
import Calculator.Parser
import Calculator.Proofs.Tokenizing

namespace Calculator

/-- What is left behind the letters and digits at the start goes on with none of them. -/
theorem head?_dropWhile_isWordChar (text : List Char) :
    (text.dropWhile isWordChar).head?.any isWordChar = false := by
  have first := List.head?_dropWhile_not isWordChar text
  cases rest : text.dropWhile isWordChar with
  | nil => rfl
  | cons c more =>
      rw [rest] at first
      exact first

theorem isWordChar_of_mem_run {c : Char} (word : isWordChar c = true) (text : List Char) :
    ∀ d ∈ c :: text.takeWhile isWordChar, isWordChar d = true :=
  List.forall_mem_cons.mpr ⟨word, List.all_eq_true.mp List.all_takeWhile⟩

/-- A run goes on as long as letters and digits follow. -/
theorem pieces_of_word {c : Char} (word : isWordChar c = true) (text : List Char) :
    pieces (c :: text) = (c :: text.takeWhile isWordChar) :: pieces (text.dropWhile isWordChar) := by
  have inRun := isWordChar_of_mem_run word text
  have cut := pieces_run (List.cons_ne_nil _ _) inRun (head?_dropWhile_isWordChar text)
  rwa [List.cons_append, List.takeWhile_append_dropWhile] at cut

namespace Reader

/-- All tokens that a reader delivers, one after the other. -/
def tokens (reader : Reader) : List Token :=
  match h : reader.next with
  | (none, _) => []
  | (some token, after) =>
    have : after.rest.length < reader.rest.length := rest_next_length_lt h
    token :: after.tokens
termination_by reader.rest.length

/-- The tokens of the characters that belong to no token yet. -/
def upcoming (reader : Reader) : List Token :=
  (locate reader.pos (pieces reader.rest)).filterMap Lexeme.token?

/-- Finishing a run takes the letters and digits that follow; the character that ends it is kept for the next
    token. -/
theorem takeRun_eq (run : List Char) (pos : Nat) (unread : List Char) :
    (takeRun run pos unread).1 = run.reverse ++ unread.takeWhile isWordChar ∧
    (takeRun run pos unread).2.rest = unread.dropWhile isWordChar ∧
    (takeRun run pos unread).2.pos = pos + (unread.takeWhile isWordChar).length := by
  induction unread generalizing run pos with
  | nil => simp [takeRun, rest]
  | cons c unread ih =>
      rw [takeRun]
      by_cases word : isWordChar c = true
      · obtain ⟨taken, left, place⟩ := ih (c :: run) (pos + 1)
        rw [if_pos word, List.takeWhile_cons_of_pos word, List.dropWhile_cons_of_pos word]
        refine ⟨?_, left, ?_⟩
        · simp [taken]
        · simp [place, Nat.add_assoc, Nat.add_comm 1]
      · rw [if_neg word, List.takeWhile_cons_of_neg word, List.dropWhile_cons_of_neg word]
        simp [rest]

/-! ### One token -/

/-- Scanning takes the first token of the text, if there is one, and leaves the others. -/
theorem tokens_of_scan (pos : Nat) (text : List Char) :
    (locate pos (pieces text)).filterMap Lexeme.token? =
      match scan pos text with
      | (none, _) => []
      | (some token, after) => token :: after.upcoming := by
  induction text generalizing pos with
  | nil => rfl
  | cons c text ih =>
      rw [scan]
      by_cases word : isWordChar c = true
      · obtain ⟨taken, left, place⟩ := takeRun_eq [c] (pos + 1) text
        have same : (⟨c :: text.takeWhile isWordChar, pos⟩ : Lexeme).token? =
            some ⟨Symbol.ofRun (c :: text.takeWhile isWordChar), pos⟩ := by
          rw [Lexeme.token?, Symbol.ofPiece?, if_pos word]
          rfl
        rw [if_pos word, pieces_of_word word, locate, List.filterMap_cons, same]
        dsimp only
        rw [taken, upcoming, left, place, List.length_cons, Nat.add_assoc, Nat.add_comm 1]
        rfl
      · rw [if_neg word, pieces_of_mark (Bool.eq_false_iff.mpr word), locate, List.filterMap_cons,
          Lexeme.token?, Symbol.ofPiece?, if_neg word]
        by_cases spacing : isSpacing c = true
        · rw [if_pos spacing, if_pos spacing]
          exact ih (pos + 1)
        · rw [if_neg spacing, if_neg spacing]
          rfl

variable {reader after : Reader}

theorem upcoming_of_next {token : Token} (read : reader.next = (some token, after)) :
    reader.upcoming = token :: after.upcoming := by
  have first := tokens_of_scan reader.pos reader.rest
  rw [show scan reader.pos reader.rest = (some token, after) from read] at first
  exact first

theorem upcoming_of_end (read : reader.next = (none, after)) : reader.upcoming = [] := by
  have first := tokens_of_scan reader.pos reader.rest
  rw [show scan reader.pos reader.rest = (none, after) from read] at first
  exact first

/-! ### All tokens -/

theorem tokens_eq_upcoming (reader : Reader) : reader.tokens = reader.upcoming := by
  fun_induction tokens reader with
  | case1 reader after ended => exact (upcoming_of_end ended).symm
  | case2 reader token after read _ ih => rw [ih, upcoming_of_next read]

/-- Reading a text token by token delivers the tokens of the text. -/
theorem tokens_ofText (text : String) : (ofText text).tokens = tokenize text :=
  tokens_eq_upcoming (ofText text)

/-- Parsing while reading comes to what parsing the tokens comes to. -/
theorem feed_eq (reader : Reader) (parser : Parser) :
    (reader.feed parser).1 =
      match parser.run reader.upcoming with
      | .ok parser => parser.finish
      | .error cause => .error cause := by
  fun_induction feed reader parser with
  | case1 reader parser after ended => rw [upcoming_of_end ended, Parser.run]
  | case2 reader parser token after read next stepped _ ih =>
      rw [upcoming_of_next read, Parser.run, stepped]
      exact ih
  | case3 reader parser token after read cause refused =>
      rw [upcoming_of_next read, Parser.run, refused]

/-- A text that is read on demand, and only up to the first token refused, is parsed to the same tree or error
    as the list of its tokens. -/
theorem parse_ofText (text : String) : (ofText text).parse.1 = Calculator.parse text :=
  feed_eq (ofText text) Parser.start

end Reader

end Calculator
