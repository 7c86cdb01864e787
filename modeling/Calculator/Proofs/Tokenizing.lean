/-
Module: Calculator.Proofs.Tokenizing
Purpose: The symbols of a text, and the texts of symbols. Every piece of a text is a run of letters and
  digits or a single other character, so the symbol of a piece is of a known kind (`Symbol.Lexical`). The
  other way round, symbols of these kinds that are written one after the other, with spacing where two runs
  would meet, are the symbols of the text so written.
Main exports: IsPiece, pieces_run, pieces_of_mark, pieces_append, Symbol.Lexical, symbols_tokenize,
  lexical_of_mem_symbols, ofPiece?_of_spells, symbols_of_writesText
-/
import Calculator.Expr.Grammar
import Calculator.Proofs.Literals
import Calculator.Token.Lexeme
import Calculator.Token.Spelling

namespace Calculator

/-! ### Pieces -/

/-- What a piece of a text can be: a run of letters and digits, or one other character. -/
inductive IsPiece : List Char → Prop where
  | run {piece : List Char} (nonempty : piece ≠ []) (word : ∀ c ∈ piece, isWordChar c = true) : IsPiece piece
  | mark {c : Char} (notWord : isWordChar c = false) : IsPiece [c]

theorem isWordChar_of_isSpacing {c : Char} (spacing : isSpacing c = true) : isWordChar c = false := by
  simp only [isSpacing, Bool.or_eq_true, decide_eq_true_eq] at spacing
  rcases spacing with (((rfl | rfl) | rfl) | rfl) | rfl <;> decide

theorem isPiece_singleton (c : Char) : IsPiece [c] := by
  cases word : isWordChar c with
  | true => exact .run (List.cons_ne_nil _ _) fun d member => by rwa [List.mem_singleton.mp member]
  | false => exact .mark word

theorem isPiece_of_mem_joinPiece {c : Char} {rest : List (List Char)} (known : ∀ p ∈ rest, IsPiece p)
    {piece : List Char} (member : piece ∈ joinPiece c rest) : IsPiece piece := by
  unfold joinPiece at member
  split at member
  · rename_i d run more
    split at member
    · rename_i join
      rw [Bool.and_eq_true] at join
      rcases List.mem_cons.mp member with rfl | member
      · refine .run (List.cons_ne_nil _ _) ?_
        intro e within
        rcases List.mem_cons.mp within with rfl | within
        · exact join.1
        · cases known _ List.mem_cons_self with
          | run _ word => exact word e within
          | mark notWord => exact absurd join.2 (by rw [notWord]; decide)
      · exact known piece (List.mem_cons_of_mem _ member)
    · rcases List.mem_cons.mp member with rfl | member
      · exact isPiece_singleton c
      · exact known piece member
  · rcases List.mem_cons.mp member with rfl | member
    · exact isPiece_singleton c
    · exact known piece member

theorem isPiece_of_mem_pieces {text piece : List Char} (member : piece ∈ pieces text) : IsPiece piece := by
  induction text generalizing piece with
  | nil => cases member
  | cons c rest ih => exact isPiece_of_mem_joinPiece (fun _ => ih) member

theorem pieces_cons (c : Char) (text : List Char) : pieces (c :: text) = joinPiece c (pieces text) := rfl

/-- The first piece starts with the first character. -/
theorem head?_of_pieces {text run : List Char} {c : Char} {rest : List (List Char)}
    (cut : pieces text = (c :: run) :: rest) : text.head? = some c := by
  rw [← flatten_pieces text, cut]
  rfl

/-- A character that is no letter or digit is a piece of its own. -/
theorem pieces_of_mark {c : Char} (notWord : isWordChar c = false) (text : List Char) :
    pieces (c :: text) = [c] :: pieces text := by
  rw [pieces_cons]
  unfold joinPiece
  split
  · rename_i cut
    rw [notWord, Bool.false_and, if_neg Bool.false_ne_true, cut]
  · rfl

/-- A run is one piece if nothing behind it goes on with it. -/
theorem pieces_run {run text : List Char} (nonempty : run ≠ []) (word : ∀ c ∈ run, isWordChar c = true)
    (stops : text.head?.any isWordChar = false) : pieces (run ++ text) = run :: pieces text := by
  induction run with
  | nil => exact absurd rfl nonempty
  | cons c run ih =>
      rw [List.cons_append, pieces_cons]
      cases run with
      | nil =>
          rw [List.nil_append]
          unfold joinPiece
          split
          · rename_i cut
            rw [head?_of_pieces cut, Option.any_some] at stops
            rw [stops, Bool.and_false, if_neg Bool.false_ne_true, cut]
          · rfl
      | cons d run =>
          have both := ih (List.cons_ne_nil _ _) fun e member => word e (List.mem_cons_of_mem _ member)
          have first := word c List.mem_cons_self
          have second := word d (List.mem_cons_of_mem _ List.mem_cons_self)
          rw [both, joinPiece, first, second, Bool.and_self, if_pos rfl]

/-- Pieces do not reach over a place where a run does not go on. -/
theorem pieces_append {front back : List Char} (apart : ¬Touch front back) :
    pieces (front ++ back) = pieces front ++ pieces back := by
  induction front with
  | nil => rfl
  | cons c front ih =>
      cases front with
      | nil =>
          cases word : isWordChar c with
          | false => exact pieces_of_mark word back
          | true =>
              have inRun : ∀ d ∈ [c], isWordChar d = true := List.forall_mem_singleton.mpr word
              have stops : back.head?.any isWordChar = false :=
                Bool.eq_false_iff.mpr fun goesOn => apart ⟨word, goesOn⟩
              exact pieces_run (List.cons_ne_nil _ _) inRun stops
      | cons d front =>
          have apart' : ¬Touch (d :: front) back := by
            rintro ⟨ends, starts⟩
            exact apart ⟨by rwa [List.getLast?_cons_cons], starts⟩
          rw [List.cons_append, pieces_cons, ih apart', pieces_cons c]
          -- joining looks at the first piece only, and that is not of `back`
          cases cut : pieces (d :: front) with
          | nil =>
              have whole := flatten_pieces (d :: front)
              rw [cut] at whole
              cases whole
          | cons piece rest =>
              cases piece with
              | nil => rfl
              | cons e run =>
                  simp only [List.cons_append, joinPiece]
                  split <;> rfl

/-! ### The symbols of a text -/

theorem symbols_locate (start : Nat) (ps : List (List Char)) :
    ((locate start ps).filterMap Lexeme.token?).map Token.symbol = ps.filterMap Symbol.ofPiece? := by
  induction ps generalizing start with
  | nil => rfl
  | cons piece rest ih =>
      rw [locate, List.filterMap_cons, List.filterMap_cons, Lexeme.token?]
      cases Symbol.ofPiece? piece with
      | none => exact ih _
      | some symbol => exact congrArg (symbol :: ·) (ih _)

/-- The symbols of a text are those of its pieces. -/
theorem symbols_tokenize (text : String) :
    (tokenize text).map Token.symbol = (pieces text.toList).filterMap Symbol.ofPiece? :=
  symbols_locate 0 _

/-- The symbols that a piece can have. An unexpected one is unexpected again when it is read from its own
    text. -/
def Symbol.Lexical : Symbol → Prop
  | const value => value ≤ Literal.maxValue
  | var name => Expr.IsName name
  | unexpected text => IsPiece text.toList ∧ ofPiece? text.toList = some (unexpected text)
  | _ => True

theorem ofPiece?_run {piece : List Char} (nonempty : piece ≠ []) (word : ∀ c ∈ piece, isWordChar c = true) :
    Symbol.ofPiece? piece = some (Symbol.ofRun piece) := by
  cases piece with
  | nil => exact absurd rfl nonempty
  | cons c rest => rw [Symbol.ofPiece?, if_pos (word c List.mem_cons_self)]

theorem ofPiece?_mark {c : Char} (notWord : isWordChar c = false) (notSpacing : isSpacing c = false) :
    Symbol.ofPiece? [c] = some (Symbol.ofMark c) := by
  rw [Symbol.ofPiece?, notWord, if_neg Bool.false_ne_true, notSpacing, if_neg Bool.false_ne_true]

theorem lexical_ofRun {run : List Char} (nonempty : run ≠ []) (word : ∀ c ∈ run, isWordChar c = true) :
    (Symbol.ofRun run).Lexical := by
  have read := ofPiece?_run nonempty word
  unfold Symbol.ofRun at read ⊢
  split
  · rename_i letter
    refine ⟨?_, ?_⟩
    · rwa [String.toList_ofList]
    · rwa [String.toList_ofList]
  · rename_i noLetter
    rw [if_neg noLetter] at read
    cases value : Literal.value? run with
    | some number => exact Literal.value?_le value
    | none =>
        rw [value] at read
        dsimp only [Symbol.Lexical]
        rw [String.toList_ofList]
        exact ⟨.run nonempty word, read⟩

theorem lexical_ofMark {c : Char} (notWord : isWordChar c = false) (notSpacing : isSpacing c = false) :
    (Symbol.ofMark c).Lexical := by
  have read := ofPiece?_mark notWord notSpacing
  cases same : Symbol.ofMark c with
  | unexpected text =>
      have only : text.toList = [c] := by
        unfold Symbol.ofMark at same
        split at same <;> cases same
        exact String.toList_singleton c
      dsimp only [Symbol.Lexical]
      rw [only]
      exact ⟨.mark notWord, same ▸ read⟩
  | const | var =>
      unfold Symbol.ofMark at same
      split at same <;> cases same
  | plus | minus | times | divide | assign | openParen | closeParen => trivial

theorem lexical_of_ofPiece? {piece : List Char} {symbol : Symbol} (known : IsPiece piece)
    (read : Symbol.ofPiece? piece = some symbol) : symbol.Lexical := by
  cases known with
  | run nonempty word =>
      rw [ofPiece?_run nonempty word] at read
      cases read
      exact lexical_ofRun nonempty word
  | @mark c notWord =>
      cases spacing : isSpacing c with
      | true =>
          rw [Symbol.ofPiece?, notWord, spacing] at read
          cases read
      | false =>
          rw [ofPiece?_mark notWord spacing] at read
          cases read
          exact lexical_ofMark notWord spacing

/-- Every symbol of a text is of a known kind. -/
theorem lexical_of_mem_symbols {text : String} {symbol : Symbol}
    (member : symbol ∈ (tokenize text).map Token.symbol) : symbol.Lexical := by
  rw [symbols_tokenize] at member
  obtain ⟨piece, cut, read⟩ := List.mem_filterMap.mp member
  exact lexical_of_ofPiece? (isPiece_of_mem_pieces cut) read

/-! ### The texts of symbols -/

theorem isWordChar_of_isDigit {c : Char} (digit : c.isDigit = true) : isWordChar c = true := by
  rw [isWordChar, Char.isAlphanum, digit, Bool.or_true]

theorem not_isAlpha_of_isDigit {c : Char} (digit : c.isDigit = true) : c.isAlpha = false := by
  have low := Char.isDigit_iff_toNat.mp digit
  change (decide ('A'.val ≤ c.val ∧ c.val ≤ 'Z'.val) ||
    (decide ('a'.val ≤ c.val) && decide (c.val ≤ 'z'.val))) = false
  simp only [Bool.or_eq_false_iff, Bool.and_eq_false_iff, decide_eq_false_iff_not, UInt32.le_iff_toNat_le]
  have ends : '9'.toNat = 57 := rfl
  have upper : 'A'.val.toNat = 65 := rfl
  have lower : 'a'.val.toNat = 97 := rfl
  have same : c.toNat = c.val.toNat := rfl
  omega

theorem ofRun_numeral (zeros : Nat) {value : Nat} (fits : value ≤ Literal.maxValue) :
    Symbol.ofRun (List.replicate zeros '0' ++ (toString value).toList) = .const value := by
  have digits := Literal.all_isDigit_numeral zeros value
  have noLetter :
      ¬(List.replicate zeros '0' ++ (toString value).toList).head?.any Char.isAlpha = true := by
    cases written : List.replicate zeros '0' ++ (toString value).toList with
    | nil => simp
    | cons c rest =>
        rw [written, List.all_cons, Bool.and_eq_true] at digits
        rw [List.head?_cons, Option.any_some, not_isAlpha_of_isDigit digits.1]
        exact Bool.false_ne_true
  rw [Symbol.ofRun, if_neg noLetter, Literal.value?_numeral zeros fits]

/-- A symbol is read back from each of its spellings. -/
theorem ofPiece?_of_spells {symbol : Symbol} {word : List Char} (spells : Spells symbol word)
    (lexical : symbol.Lexical) : IsPiece word ∧ Symbol.ofPiece? word = some symbol := by
  cases spells with
  | const zeros value =>
      have digits := Literal.all_isDigit_numeral zeros value
      have word : ∀ c ∈ List.replicate zeros '0' ++ (toString value).toList, isWordChar c = true :=
        fun c member => isWordChar_of_isDigit (List.all_eq_true.mp digits c member)
      have nonempty : List.replicate zeros '0' ++ (toString value).toList ≠ [] := by
        rw [Nat.toString_eq_repr, Nat.toList_repr]
        exact List.append_ne_nil_of_right_ne_nil _ Nat.toDigits_ne_nil
      refine ⟨.run nonempty word, ?_⟩
      rw [ofPiece?_run nonempty word, ofRun_numeral zeros lexical]
  | other notConst =>
      cases symbol with
      | const value => exact absurd rfl (notConst value)
      | var name =>
          obtain ⟨letter, word⟩ := lexical
          have nonempty : name.toList ≠ [] := by
            intro empty
            rw [empty] at letter
            cases letter
          refine ⟨.run nonempty word, ?_⟩
          rw [Symbol.text, ofPiece?_run nonempty word, Symbol.ofRun, if_pos letter, String.ofList_toList]
      | unexpected text => exact lexical
      | plus | minus | times | divide | assign | openParen | closeParen =>
          exact ⟨.mark (by decide), by decide⟩

theorem symbols_of_spacing {gap : List Char} (spacing : Spacing gap) (text : List Char) :
    (pieces (gap ++ text)).filterMap Symbol.ofPiece? = (pieces text).filterMap Symbol.ofPiece? := by
  induction gap with
  | nil => rfl
  | cons c gap ih =>
      have skipped := spacing c List.mem_cons_self
      have notWord := isWordChar_of_isSpacing skipped
      have silent : Symbol.ofPiece? [c] = none := by
        rw [Symbol.ofPiece?, notWord, if_neg Bool.false_ne_true, skipped, if_pos rfl]
      rw [List.cons_append, pieces_of_mark notWord, List.filterMap_cons, silent]
      exact ih fun d member => spacing d (List.mem_cons_of_mem _ member)

theorem symbols_of_word {symbol : Symbol} {word text : List Char} (spells : Spells symbol word)
    (lexical : symbol.Lexical) (apart : ¬Touch word text) :
    (pieces (word ++ text)).filterMap Symbol.ofPiece? =
      symbol :: (pieces text).filterMap Symbol.ofPiece? := by
  obtain ⟨piece, read⟩ := ofPiece?_of_spells spells lexical
  cases piece with
  | run nonempty inRun =>
      have ends : word.getLast?.any isWordChar = true := by
        rw [List.getLast?_eq_some_getLast nonempty, Option.any_some]
        exact inRun _ (List.getLast_mem nonempty)
      have stops : text.head?.any isWordChar = false :=
        Bool.eq_false_iff.mpr fun goesOn => apart ⟨ends, goesOn⟩
      rw [pieces_run nonempty inRun stops, List.filterMap_cons, read]
  | mark notWord => rw [List.singleton_append, pieces_of_mark notWord, List.filterMap_cons, read]

theorem symbols_of_writes {symbols : List Symbol} {text : List Char} (writes : Writes symbols text)
    (lexical : ∀ symbol ∈ symbols, symbol.Lexical) :
    (pieces text).filterMap Symbol.ofPiece? = symbols := by
  induction writes with
  | nil => rfl
  | @cons symbol rest word gap text spells spacing apart tail ih =>
      have separate : ¬Touch word (gap ++ text) := by
        intro touch
        cases gap with
        | nil => exact apart touch rfl
        | cons c gap =>
            have goesOn := touch.2
            rw [List.cons_append, List.head?_cons, Option.any_some,
              isWordChar_of_isSpacing (spacing c List.mem_cons_self)] at goesOn
            cases goesOn
      rw [List.append_assoc, symbols_of_word spells (lexical symbol List.mem_cons_self) separate,
        symbols_of_spacing spacing, ih fun other member => lexical other (List.mem_cons_of_mem _ member)]

/-- A text that writes symbols of known kinds has these symbols and no others. -/
theorem symbols_of_writesText {symbols : List Symbol} {text : String} (writes : WritesText symbols text)
    (lexical : ∀ symbol ∈ symbols, symbol.Lexical) : (tokenize text).map Token.symbol = symbols := by
  obtain ⟨gap, written, spacing, writes, same⟩ := writes
  rw [symbols_tokenize, same, symbols_of_spacing spacing, symbols_of_writes writes lexical]

end Calculator
