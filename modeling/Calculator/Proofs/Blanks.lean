/-
Module: Calculator.Proofs.Blanks
Purpose: What is cut off a text. Stripping takes blanks away at both ends and stops at the first and the last
  character that is none, and a text that ends in such characters is all that is left of it between blanks. The
  spacing of expressions is blank; letters, digits and marks are not.
Main exports: rdropWhile_append, Text.exists_blanks_behind, Text.exists_blanks_around, Text.strip_around,
  Text.strip_append, Text.strip_of_forall_isBlank, Text.strip_eq_nil_iff, Text.Stripped, Text.stripped_iff,
  isBlank_of_isSpacing, not_isBlank_of_isWordChar, ends_of_word
-/
import Mathlib.Data.List.DropRight
import Calculator.Text.Blank
import Calculator.Token

namespace Calculator

/-! ### Cutting off the end -/

section Ends

variable {p : Char → Bool} {text back : List Char}

/-- What is left before the characters at the end ends in another one. -/
theorem getLast?_rdropWhile (p : Char → Bool) (text : List Char) :
    (text.rdropWhile p).getLast?.any p = false := by
  have first := List.head?_dropWhile_not p text.reverse
  rw [List.rdropWhile, List.getLast?_reverse]
  cases starts : (text.reverse.dropWhile p).head? with
  | none => rfl
  | some c => simpa [starts] using first

/-- A text that ends in another character is all that is left of it before such characters. -/
theorem rdropWhile_append (ends : text.getLast?.any p = false) (cut : ∀ c ∈ back, p c = true) :
    (text ++ back).rdropWhile p = text := by
  have kept : text.reverse.dropWhile p = text.reverse := by
    cases backwards : text.reverse with
    | nil => rfl
    | cons c rest =>
        have last : p c = false := by simpa [← List.head?_reverse, backwards] using ends
        exact List.dropWhile_cons_of_neg (by simp [last])
  have dropped : ∀ c ∈ back.reverse, p c = true := by simpa using cut
  rw [List.rdropWhile, List.reverse_append, List.dropWhile_append_of_pos dropped, kept, List.reverse_reverse]

end Ends

namespace Text

/-! ### Stripping -/

/-- What is left behind the blanks at the start starts with none. -/
theorem head?_stripStart (text : List Char) : (stripStart text).head?.any isBlank = false := by
  have first := List.head?_dropWhile_not isBlank text
  unfold stripStart
  cases starts : (text.dropWhile isBlank).head? with
  | none => rfl
  | some c => simpa [starts] using first

/-- The blanks at the end of a text, and what they stand behind. -/
theorem exists_blanks_behind (text : List Char) :
    ∃ back, (∀ c ∈ back, isBlank c = true) ∧ text = stripEnd text ++ back ∧
      (stripEnd text).getLast?.any isBlank = false := by
  refine ⟨text.rtakeWhile isBlank, fun c => List.mem_rtakeWhile_imp, ?_, getLast?_rdropWhile isBlank text⟩
  exact List.rdropWhile_append_rtakeWhile.symm

/-- A text that ends in a character that is no blank is what is left of it before blanks. -/
theorem stripEnd_append {text back : List Char} (ends : text.getLast?.any isBlank = false)
    (blank : ∀ c ∈ back, isBlank c = true) : stripEnd (text ++ back) = text :=
  rdropWhile_append ends blank

theorem strip_of_forall_isBlank {text : List Char} (blank : ∀ c ∈ text, isBlank c = true) : strip text = [] := by
  have start : stripStart text = [] := List.dropWhile_eq_nil_iff.mpr blank
  simp [strip, start, stripEnd]

/-- Between blanks, a text that neither starts nor ends with one is left over. -/
theorem strip_around {front text back : List Char} (before : ∀ c ∈ front, isBlank c = true)
    (starts : text.head?.any isBlank = false) (ends : text.getLast?.any isBlank = false)
    (behind : ∀ c ∈ back, isBlank c = true) : strip (front ++ text ++ back) = text := by
  cases text with
  | nil =>
      apply strip_of_forall_isBlank
      rw [List.append_nil]
      exact List.forall_mem_append.mpr ⟨before, behind⟩
  | cons c rest =>
      have first : isBlank c = false := by simpa using starts
      have start : stripStart (front ++ c :: rest ++ back) = c :: rest ++ back := by
        rw [stripStart, List.append_assoc, List.dropWhile_append_of_pos before, List.cons_append,
          List.dropWhile_cons_of_neg (by simp [first])]
      rw [strip, start, stripEnd_append ends behind]

/-- What is left behind a word is cut at its end alone. -/
theorem strip_append {front word : List Char} (before : ∀ c ∈ front, isBlank c = true) (nonempty : word ≠ [])
    (starts : word.head?.any isBlank = false) (ends : word.getLast?.any isBlank = false) (rest : List Char) :
    strip (front ++ word ++ rest) = word ++ stripEnd rest := by
  obtain ⟨back, behind, cut, last⟩ := exists_blanks_behind rest
  have same : front ++ word ++ rest = front ++ (word ++ stripEnd rest) ++ back := by
    simp only [List.append_assoc, ← cut]
  rw [same]
  refine strip_around before ?_ ?_ behind
  · rwa [List.head?_append_of_ne_nil _ nonempty]
  · cases kept : (stripEnd rest).getLast? with
    | none => simpa [List.getLast?_append, kept] using ends
    | some c => simpa [List.getLast?_append, kept] using last

/-- Nothing but blanks is cut off, and neither end of what is left is blank. -/
theorem exists_blanks_around (text : List Char) :
    ∃ front back, (∀ c ∈ front, isBlank c = true) ∧ (∀ c ∈ back, isBlank c = true) ∧
      text = front ++ strip text ++ back := by
  obtain ⟨back, blank, split, -⟩ := exists_blanks_behind (stripStart text)
  refine ⟨text.takeWhile isBlank, back, List.all_eq_true.mp List.all_takeWhile, blank, ?_⟩
  rw [List.append_assoc, strip, ← split, stripStart, List.takeWhile_append_dropWhile]

theorem strip_eq_nil_iff {text : List Char} : strip text = [] ↔ ∀ c ∈ text, isBlank c = true := by
  refine ⟨fun nothing => ?_, strip_of_forall_isBlank⟩
  obtain ⟨front, back, before, behind, split⟩ := exists_blanks_around text
  rw [nothing, List.append_nil] at split
  rw [split]
  exact List.forall_mem_append.mpr ⟨before, behind⟩

/-- A text has blanks around some core, and neither end of the core is blank. -/
def Stripped (text core : List Char) : Prop :=
  ∃ front back, text = front ++ core ++ back ∧ (∀ c ∈ front, isBlank c = true) ∧ (∀ c ∈ back, isBlank c = true) ∧
    core.head?.any isBlank = false ∧ core.getLast?.any isBlank = false

theorem head?_strip (text : List Char) : (strip text).head?.any isBlank = false := by
  obtain ⟨back, -, split, -⟩ := exists_blanks_behind (stripStart text)
  have first := head?_stripStart text
  rw [split, List.head?_append] at first
  unfold strip
  cases starts : (stripEnd (stripStart text)).head? with
  | none => rfl
  | some c => simpa [starts] using first

/-- There is one such core. -/
theorem stripped_iff {text core : List Char} : Stripped text core ↔ strip text = core := by
  constructor
  · rintro ⟨front, back, rfl, before, behind, starts, ends⟩
    exact strip_around before starts ends behind
  · rintro rfl
    obtain ⟨front, back, before, behind, split⟩ := exists_blanks_around text
    exact ⟨front, back, split, before, behind, head?_strip text, getLast?_rdropWhile isBlank _⟩

end Text

/-! ### Blanks and the characters of expressions -/

theorem isBlank_of_isSpacing {c : Char} (spacing : isSpacing c = true) : Text.isBlank c = true := by
  simp only [isSpacing, Bool.or_eq_true, decide_eq_true_eq] at spacing
  rcases spacing with (((rfl | rfl) | rfl) | rfl) | rfl <;> decide

/-- The code points of the letters and digits of ASCII. -/
theorem toNat_of_isWordChar {c : Char} (word : isWordChar c = true) :
    (48 ≤ c.toNat ∧ c.toNat ≤ 57) ∨ (65 ≤ c.toNat ∧ c.toNat ≤ 90) ∨ (97 ≤ c.toNat ∧ c.toNat ≤ 122) := by
  change (c.isAlpha || c.isDigit) = true at word
  rcases Bool.or_eq_true_iff.mp word with letter | digit
  · change (decide ('A'.toNat ≤ c.toNat ∧ c.toNat ≤ 'Z'.toNat) ||
      (decide ('a'.toNat ≤ c.toNat) && decide (c.toNat ≤ 'z'.toNat))) = true at letter
    exact Or.inr (by simpa using letter)
  · exact Or.inl (Char.isDigit_iff_toNat.mp digit)

theorem not_isBlank_of_isWordChar {c : Char} (word : isWordChar c = true) : Text.isBlank c = false := by
  have place := toNat_of_isWordChar word
  apply Bool.eq_false_iff.mpr
  intro blank
  simp only [Text.isBlank, Text.blankRanges, List.any_cons, List.any_nil, Bool.or_eq_true, Bool.and_eq_true,
    decide_eq_true_eq, Bool.false_eq_true, or_false] at blank
  omega

/-- Letters and digits are not stripped. -/
theorem ends_of_word {word : List Char} (inWord : ∀ c ∈ word, isWordChar c = true) :
    word.head?.any Text.isBlank = false ∧ word.getLast?.any Text.isBlank = false := by
  have visible : ∀ c ∈ word, Text.isBlank c = false := fun c member => not_isBlank_of_isWordChar (inWord c member)
  refine ⟨?_, ?_⟩
  · cases first : word.head? with
    | none => rfl
    | some c => exact visible c (List.mem_of_mem_head? first)
  · cases last : word.getLast? with
    | none => rfl
    | some c => exact visible c (List.mem_of_mem_getLast? last)

end Calculator
