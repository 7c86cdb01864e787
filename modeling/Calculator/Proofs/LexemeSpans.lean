/-
Module: Calculator.Proofs.LexemeSpans
Purpose: The tokens of a text account for each of its characters. Each token has a span of the text that starts
  at its offset; spans follow one another without overlap, and what lies between them is spacing. A span is a run
  of letters and digits that its neighbours do not go on with, or one other character, and what its token says
  depends on the characters of the span alone (`Denotes`).
Main exports: Denotes, denotes_iff, MaximalPiece, Lexeme.CutFrom, cutFrom_of_mem_locate, spans, Accounts,
  tokens_account_for_text
-/
import Mathlib.Data.List.Forall2
import Calculator.Proofs.Reading

namespace Calculator

/-! ### What a span says -/

/-- What the characters of a span say: a run that starts with a letter is a variable, a run that starts with a
    digit is a constant if it is a literal and malformed otherwise, and any other character is itself. -/
inductive Denotes : List Char → Symbol → Prop where
  | name {run : List Char} (letter : run.head?.any Char.isAlpha) (word : ∀ c ∈ run, isWordChar c = true) :
      Denotes run (.var (String.ofList run))
  | literal {run : List Char} (nonempty : run ≠ []) (digits : ∀ c ∈ run, c.isDigit = true)
      (fits : Literal.digitsValue run ≤ Literal.maxValue) : Denotes run (.const (Literal.digitsValue run))
  | malformed {run : List Char} (digit : run.head?.any Char.isDigit) (word : ∀ c ∈ run, isWordChar c = true)
      (noLiteral : ¬((∀ c ∈ run, c.isDigit = true) ∧ Literal.digitsValue run ≤ Literal.maxValue)) :
      Denotes run (.unexpected (String.ofList run))
  | plus : Denotes ['+'] .plus
  | minus : Denotes ['-'] .minus
  | times : Denotes ['*'] .times
  | divide : Denotes ['/'] .divide
  | assign : Denotes ['='] .assign
  | openParen : Denotes ['('] .openParen
  | closeParen : Denotes [')'] .closeParen
  | other {c : Char} (notWord : isWordChar c = false) (notSpacing : isSpacing c = false)
      (noMark : c ∉ ['+', '-', '*', '/', '=', '(', ')']) : Denotes [c] (.unexpected (String.singleton c))

theorem head?_any_of_forall {p : Char → Bool} {run : List Char} (nonempty : run ≠ [])
    (all : ∀ c ∈ run, p c = true) : run.head?.any p = true := by
  cases run with
  | nil => exact absurd rfl nonempty
  | cons c rest => exact all c List.mem_cons_self

theorem ne_nil_of_head?_any {p : Char → Bool} {run : List Char} (starts : run.head?.any p = true) :
    run ≠ [] := by
  rintro rfl
  cases starts

theorem not_head?_isAlpha {run : List Char} (digit : run.head?.any Char.isDigit = true) :
    ¬run.head?.any Char.isAlpha = true := by
  cases run with
  | nil => exact Bool.false_ne_true
  | cons c rest =>
      rw [List.head?_cons, Option.any_some, not_isAlpha_of_isDigit digit]
      exact Bool.false_ne_true

/-- A literal is written with digits only, and its value is no more than the largest one. -/
theorem value?_eq_none {run : List Char}
    (noLiteral : ¬((∀ c ∈ run, c.isDigit = true) ∧ Literal.digitsValue run ≤ Literal.maxValue)) :
    Literal.value? run = none := by
  rw [Option.eq_none_iff_forall_ne_some]
  intro value read
  obtain ⟨-, digits, fits, -⟩ := Literal.value?_eq_some_iff.mp read
  exact noLiteral ⟨List.all_eq_true.mp digits, fits⟩

theorem ofMark_of_notMem {c : Char} (noMark : c ∉ ['+', '-', '*', '/', '=', '(', ')']) :
    Symbol.ofMark c = .unexpected (String.singleton c) := by
  simp only [List.mem_cons, List.not_mem_nil, or_false, not_or] at noMark
  obtain ⟨plus, minus, times, divide, assign, openParen, closeParen⟩ := noMark
  exact Symbol.ofMark.eq_8 c plus minus times divide assign openParen closeParen

theorem ofPiece?_of_denotes {piece : List Char} {symbol : Symbol} (denotes : Denotes piece symbol) :
    Symbol.ofPiece? piece = some symbol := by
  cases denotes with
  | name letter word => rw [ofPiece?_run (ne_nil_of_head?_any letter) word, Symbol.ofRun, if_pos letter]
  | literal nonempty digits fits =>
      have noLetter := not_head?_isAlpha (head?_any_of_forall nonempty digits)
      rw [ofPiece?_run nonempty fun c member => isWordChar_of_isDigit (digits c member), Symbol.ofRun,
        if_neg noLetter, Literal.value?_of_digits nonempty (List.all_eq_true.mpr digits) fits]
  | malformed digit word noLiteral =>
      rw [ofPiece?_run (ne_nil_of_head?_any digit) word, Symbol.ofRun, if_neg (not_head?_isAlpha digit),
        value?_eq_none noLiteral]
  | other notWord notSpacing noMark => rw [ofPiece?_mark notWord notSpacing, ofMark_of_notMem noMark]
  | plus | minus | times | divide | assign | openParen | closeParen => rfl

theorem denotes_ofRun {run : List Char} (nonempty : run ≠ []) (word : ∀ c ∈ run, isWordChar c = true) :
    Denotes run (Symbol.ofRun run) := by
  rw [Symbol.ofRun]
  by_cases letter : run.head?.any Char.isAlpha = true
  · rw [if_pos letter]
    exact .name letter word
  · rw [if_neg letter]
    cases read : Literal.value? run with
    | some value =>
        obtain ⟨nonempty, digits, fits, rfl⟩ := Literal.value?_eq_some_iff.mp read
        exact .literal nonempty (List.all_eq_true.mp digits) fits
    | none =>
        have starts := head?_any_of_forall nonempty word
        have digit : run.head?.any Char.isDigit = true := by
          cases run with
          | nil => cases starts
          | cons c rest => exact (Bool.or_eq_true_iff.mp starts).resolve_left letter
        refine .malformed digit word ?_
        rintro ⟨digits, fits⟩
        rw [Literal.value?_of_digits nonempty (List.all_eq_true.mpr digits) fits] at read
        cases read

theorem denotes_ofMark {c : Char} (notWord : isWordChar c = false) (notSpacing : isSpacing c = false) :
    Denotes [c] (Symbol.ofMark c) := by
  by_cases mark : c ∈ ['+', '-', '*', '/', '=', '(', ')']
  · simp only [List.mem_cons, List.not_mem_nil, or_false] at mark
    obtain rfl | rfl | rfl | rfl | rfl | rfl | rfl := mark
    · exact .plus
    · exact .minus
    · exact .times
    · exact .divide
    · exact .assign
    · exact .openParen
    · exact .closeParen
  · rw [ofMark_of_notMem mark]
    exact .other notWord notSpacing mark

/-- The symbol of a piece is what its characters say. -/
theorem denotes_iff {piece : List Char} (known : IsPiece piece) {symbol : Symbol} :
    Denotes piece symbol ↔ Symbol.ofPiece? piece = some symbol := by
  constructor
  · exact ofPiece?_of_denotes
  · intro read
    cases known with
    | run nonempty word =>
        rw [ofPiece?_run nonempty word] at read
        cases read
        exact denotes_ofRun nonempty word
    | @mark c notWord =>
        rw [Symbol.ofPiece?, notWord, if_neg Bool.false_ne_true] at read
        by_cases spacing : isSpacing c = true
        · rw [if_pos spacing] at read
          cases read
        · rw [if_neg spacing] at read
          cases read
          exact denotes_ofMark notWord (Bool.eq_false_iff.mpr spacing)

/-! ### Where lexemes are cut -/

/-- A piece between the characters `before` and `after` of its text: a run of letters and digits that neither of
    them goes on with, or one other character. -/
inductive MaximalPiece (before after : List Char) : List Char → Prop where
  | run {piece : List Char} (nonempty : piece ≠ []) (word : ∀ c ∈ piece, isWordChar c = true)
      (starts : before.getLast?.any isWordChar = false) (stops : after.head?.any isWordChar = false) :
      MaximalPiece before after piece
  | mark {c : Char} (notWord : isWordChar c = false) : MaximalPiece before after [c]

theorem MaximalPiece.isPiece {before after piece : List Char} (cut : MaximalPiece before after piece) :
    IsPiece piece := by
  cases cut with
  | run nonempty word => exact .run nonempty word
  | mark notWord => exact .mark notWord

/-- A lexeme stands in a text where it says, and is cut there by longest match. -/
def Lexeme.CutFrom (text : List Char) (lexeme : Lexeme) : Prop :=
  ∃ before after, text = before ++ lexeme.text ++ after ∧ before.length = lexeme.start ∧
    MaximalPiece before after lexeme.text

/-- A text is empty, or starts with a character that is a piece of its own, or with a whole run. -/
@[elab_as_elim]
theorem pieces_induction {motive : List Char → Prop} (nil : motive [])
    (mark : ∀ c text, isWordChar c = false → motive text → motive (c :: text))
    (run : ∀ c text, isWordChar c = true → motive (text.dropWhile isWordChar) → motive (c :: text)) :
    ∀ text, motive text
  | [] => nil
  | c :: text =>
    if word : isWordChar c = true then run c text word (pieces_induction nil mark run _)
    else mark c text (Bool.eq_false_iff.mpr word) (pieces_induction nil mark run text)
termination_by text => text.length
decreasing_by
  · exact Nat.lt_succ_of_le (List.dropWhile_sublist _).length_le
  · exact Nat.lt_succ_self _

/-- The pieces behind characters that they do not go on with are cut by longest match. -/
theorem cutFrom_of_mem_locate {before rest : List Char} (apart : ¬Touch before rest) :
    ∀ lexeme ∈ locate before.length (pieces rest), lexeme.CutFrom (before ++ rest) := by
  induction rest using pieces_induction generalizing before with
  | nil => nofun
  | mark c rest notWord ih =>
      rw [pieces_of_mark notWord, locate]
      intro lexeme member
      rcases List.mem_cons.mp member with rfl | member
      · exact ⟨before, rest, List.append_cons _ _ _, rfl, .mark notWord⟩
      · have apart' : ¬Touch (before ++ [c]) rest := by
          rintro ⟨goesOn, -⟩
          rw [List.getLast?_concat, Option.any_some, notWord] at goesOn
          cases goesOn
        rw [List.append_cons]
        apply ih apart'
        rwa [List.length_append]
  | run c rest word ih =>
      rw [pieces_of_word word, locate]
      have split : before ++ c :: rest =
          before ++ (c :: rest.takeWhile isWordChar) ++ rest.dropWhile isWordChar := by
        rw [List.append_assoc, List.cons_append, List.takeWhile_append_dropWhile]
      have stops := head?_dropWhile_isWordChar rest
      rw [split]
      intro lexeme member
      rcases List.mem_cons.mp member with rfl | member
      · have inRun := isWordChar_of_mem_run word rest
        have starts : before.getLast?.any isWordChar = false :=
          Bool.eq_false_iff.mpr fun goesOn => apart ⟨goesOn, word⟩
        exact ⟨before, _, rfl, rfl, .run (List.cons_ne_nil _ _) inRun starts stops⟩
      · -- the run is taken whole, so that the pieces behind it start apart from it
        have apart' : ¬Touch (before ++ c :: rest.takeWhile isWordChar) (rest.dropWhile isWordChar) := by
          rintro ⟨-, goesOn⟩
          rw [stops] at goesOn
          cases goesOn
        apply ih apart'
        rwa [List.length_append]

theorem cutFrom_of_mem_lexemes {text : List Char} {lexeme : Lexeme} (member : lexeme ∈ lexemes text) :
    lexeme.CutFrom text := by
  have apart : ¬Touch [] text := fun touch => Bool.false_ne_true touch.1
  exact cutFrom_of_mem_locate apart lexeme member

/-! ### The order of lexemes -/

theorem start_le_of_mem_locate {start : Nat} {ps : List (List Char)} {lexeme : Lexeme}
    (member : lexeme ∈ locate start ps) : start ≤ lexeme.start := by
  induction ps generalizing start with
  | nil => cases member
  | cons piece ps ih =>
      rcases List.mem_cons.mp member with rfl | member
      · exact Nat.le_refl _
      · exact Nat.le_trans (Nat.le_add_right _ _) (ih member)

/-- A lexeme ends before the next one starts. -/
theorem pairwise_locate (start : Nat) (ps : List (List Char)) :
    (locate start ps).Pairwise fun earlier later => earlier.stop ≤ later.start := by
  induction ps generalizing start with
  | nil => exact .nil
  | cons piece ps ih => exact .cons (fun _ => start_le_of_mem_locate) (ih _)

/-- Every character lies in a lexeme. -/
theorem exists_lexeme_at (start : Nat) {offset : Nat} {ps : List (List Char)}
    (inside : offset < ps.flatten.length) :
    ∃ lexeme ∈ locate start ps, lexeme.start ≤ start + offset ∧ start + offset < lexeme.stop := by
  induction ps generalizing start offset with
  | nil => cases inside
  | cons piece ps ih =>
      by_cases first : offset < piece.length
      · exact ⟨⟨piece, start⟩, List.mem_cons_self, Nat.le_add_right _ _, Nat.add_lt_add_left first _⟩
      · have behind : offset - piece.length < ps.flatten.length := by
          rw [List.flatten_cons, List.length_append] at inside
          omega
        obtain ⟨lexeme, member, low, high⟩ := ih (start + piece.length) behind
        have same : start + piece.length + (offset - piece.length) = start + offset := by omega
        rw [same] at low high
        exact ⟨lexeme, List.mem_cons_of_mem _ member, low, high⟩

/-- The characters of a lexeme are those of its text from its start to its stop. -/
theorem mem_text_of_cutFrom {text : List Char} {lexeme : Lexeme} (cut : lexeme.CutFrom text) {offset : Nat}
    {c : Char} (found : text[offset]? = some c) (low : lexeme.start ≤ offset) (high : offset < lexeme.stop) :
    c ∈ lexeme.text := by
  obtain ⟨before, after, rfl, place, -⟩ := cut
  rw [Lexeme.stop, ← place] at high
  rw [← place] at low
  have inText : offset - before.length < lexeme.text.length := by omega
  rw [List.append_assoc, List.getElem?_append_right low, List.getElem?_append_left inText] at found
  exact List.mem_of_getElem? found

/-- Only spacing has no token. -/
theorem isSome_token?_iff {text : List Char} {lexeme : Lexeme} (cut : lexeme.CutFrom text) {c : Char}
    (member : c ∈ lexeme.text) : lexeme.token?.isSome = true ↔ isSpacing c = false := by
  obtain ⟨before, after, -, -, piece⟩ := cut
  rw [Lexeme.token?, Option.isSome_map]
  generalize lexeme.text = characters at piece member
  cases piece with
  | run nonempty word =>
      have notSpacing : isSpacing c = false := by
        apply Bool.eq_false_iff.mpr
        intro spacing
        have inRun := word c member
        rw [isWordChar_of_isSpacing spacing] at inRun
        cases inRun
      simp [ofPiece?_run nonempty word, notSpacing]
  | mark notWord =>
      obtain rfl := List.mem_singleton.mp member
      cases spacing : isSpacing c with
      | true => simp [Symbol.ofPiece?, notWord, spacing]
      | false => simp [Symbol.ofPiece?, notWord, spacing]

/-! ### The spans of the tokens -/

/-- The spans of the tokens of a text: the lexemes that are no spacing. -/
def spans (text : String) : List Lexeme :=
  (lexemes text.toList).filter fun lexeme => lexeme.token?.isSome

/-- A token starts where its span starts, and says what the characters of the span say and nothing else. -/
structure Token.SpelledBy (token : Token) (span : Lexeme) : Prop where
  start : token.pos = span.start
  symbol : ∀ symbol, Denotes span.text symbol ↔ symbol = token.symbol

theorem spelledBy_of_token? {text : List Char} {lexeme : Lexeme} (cut : lexeme.CutFrom text) {token : Token}
    (read : lexeme.token? = some token) : token.SpelledBy lexeme := by
  obtain ⟨before, after, -, -, piece⟩ := cut
  obtain ⟨symbol, own, rfl⟩ := Option.map_eq_some_iff.mp read
  refine ⟨rfl, ?_⟩
  intro other
  rw [denotes_iff piece.isPiece, own, Option.some.injEq, eq_comm]

theorem forall₂_spelledBy {text : List Char} {ls : List Lexeme} (cut : ∀ lexeme ∈ ls, lexeme.CutFrom text) :
    List.Forall₂ Token.SpelledBy (ls.filterMap Lexeme.token?)
      (ls.filter fun lexeme => lexeme.token?.isSome) := by
  induction ls with
  | nil => exact .nil
  | cons lexeme ls ih =>
      obtain ⟨first, others⟩ := List.forall_mem_cons.mp cut
      cases read : lexeme.token? with
      | none => simpa [read] using ih others
      | some token => simpa [read] using ⟨spelledBy_of_token? first read, ih others⟩

/-- Spans account for a text and its tokens: each token is spelled by its span, each span is cut from the text by
    longest match, they follow one another, and outside of them there is spacing and nothing else. -/
structure Accounts (text : List Char) (tokens : List Token) (spans : List Lexeme) : Prop where
  spelled : List.Forall₂ Token.SpelledBy tokens spans
  cut : ∀ span ∈ spans, span.CutFrom text
  ordered : spans.Pairwise fun earlier later => earlier.stop ≤ later.start
  outside : ∀ offset c, text[offset]? = some c →
    ((∀ span ∈ spans, ¬(span.start ≤ offset ∧ offset < span.stop)) ↔ isSpacing c = true)

/-- A character lies in no span just if it is spacing. -/
theorem outside_spans_iff {text : String} {offset : Nat} {c : Char} (found : text.toList[offset]? = some c) :
    (∀ span ∈ spans text, ¬(span.start ≤ offset ∧ offset < span.stop)) ↔ isSpacing c = true := by
  constructor
  · intro outside
    have inside : offset < (pieces text.toList).flatten.length := by
      rw [flatten_pieces]
      exact (List.getElem?_eq_some_iff.mp found).1
    obtain ⟨lexeme, member, low, high⟩ := exists_lexeme_at 0 inside
    rw [Nat.zero_add] at low high
    have cut := cutFrom_of_mem_lexemes member
    have within := mem_text_of_cutFrom cut found low high
    cases spacing : isSpacing c with
    | true => rfl
    | false =>
        have token := (isSome_token?_iff cut within).mpr spacing
        exact absurd ⟨low, high⟩ (outside lexeme (List.mem_filter.mpr ⟨member, token⟩))
  · rintro spacing span member ⟨low, high⟩
    obtain ⟨member, token⟩ := List.mem_filter.mp member
    have cut := cutFrom_of_mem_lexemes member
    have within := mem_text_of_cutFrom cut found low high
    rw [isSome_token?_iff cut within, spacing] at token
    cases token

/-- **Lexemes.** Reading a text on demand delivers its tokens, and their spans account for the text: each starts
    at the offset of its token, they are disjoint and in order, and the characters outside of them are the
    spacing of the text. A span is a maximal run of letters and digits or one other character, and its
    characters alone decide what its token says. -/
theorem tokens_account_for_text (text : String) :
    (Reader.ofText text).tokens = tokenize text ∧
      Accounts text.toList (tokenize text) (spans text) := by
  refine ⟨Reader.tokens_ofText text, ?_, ?_, ?_, fun _ _ => outside_spans_iff⟩
  · exact forall₂_spelledBy fun _ => cutFrom_of_mem_lexemes
  · intro span member
    exact cutFrom_of_mem_lexemes (List.mem_filter.mp member).1
  · exact (pairwise_locate 0 _).filter _

/-- A run takes what follows a digit, at the end of the text too. -/
example : tokenize "a1+ 12x" =
    [⟨.var "a1", 0⟩, ⟨.plus, 2⟩, ⟨.unexpected "12x", 4⟩] := by rfl

end Calculator
