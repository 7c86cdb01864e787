/-
Module: Calculator.Limits
Purpose: The limits that a run works under and does not set itself: how deep evaluations may nest in one another,
  and how many digits an integer may have that is to be written out. Every word can be written under any limits.
Main exports: Limits, Limits.CanWrite, Limits.CanWriteAll, Limits.write, Limits.writeEntries,
  Limits.leastTooLong, Limits.canWrite_of_inRange, Limits.write_of_canWrite, Limits.write_eq_error_iff,
  Limits.writeEntries_eq
-/
import Calculator.Failure
import Calculator.Word

namespace Calculator

/-- How deep the evaluations of one expression may nest, and how many digits an integer may have that is written
    out. Zero stands for any number of digits, and no other bound is below 640. -/
structure Limits where
  nesting : Nat
  digits : Nat
  digits_eq_zero_or_le : digits = 0 ∨ 640 ≤ digits

namespace Limits

variable {limits : Limits} {value : Int} {failure : Failure}

/-- An integer has no more digits than can be written out. Its sign does not count. -/
def CanWrite (limits : Limits) (value : Int) : Prop :=
  limits.digits = 0 ∨ value.natAbs < Nat.pow 10 limits.digits

instance (limits : Limits) (value : Int) : Decidable (limits.CanWrite value) :=
  inferInstanceAs (Decidable (_ ∨ _))

/-- The values of all entries can be written out. -/
def CanWriteAll (limits : Limits) (entries : List (String × Int)) : Prop :=
  ∀ entry ∈ entries, limits.CanWrite entry.2

instance (limits : Limits) (entries : List (String × Int)) : Decidable (limits.CanWriteAll entries) :=
  List.decidableBAll (fun entry : String × Int => limits.CanWrite entry.2) entries

/-- The decimal form of an integer, if it can be written out. -/
def write (limits : Limits) (value : Int) : Except Failure String :=
  if limits.CanWrite value then .ok (toString value) else .error .tooManyDigits

/-- Entries written out in a given form, up to the first value that cannot be. -/
def writeEntries (limits : Limits) (form : String → String → String) :
    List (String × Int) → Except Failure (List String)
  | [] => .ok []
  | (name, value) :: rest =>
    match limits.write value with
    | .error failure => .error failure
    | .ok written => (limits.writeEntries form rest).map (form name written :: ·)

/-- The least number that has one digit too many, if there is a bound on digits. -/
def leastTooLong (limits : Limits) : Int :=
  Int.ofNat (Nat.pow 10 limits.digits)

theorem not_canWrite_leastTooLong (bounded : limits.digits ≠ 0) : ¬limits.CanWrite limits.leastTooLong := by
  rintro (unbounded | fits)
  · exact bounded unbounded
  · exact Nat.lt_irrefl _ fits

/-- No word is too long. -/
theorem canWrite_of_inRange (limits : Limits) (word : Word.InRange value) : limits.CanWrite value := by
  rcases limits.digits_eq_zero_or_le with unbounded | bound
  · exact Or.inl unbounded
  · have small : value.natAbs < Nat.pow 10 10 := by
      unfold Word.InRange at word
      change value.natAbs < 10000000000
      omega
    exact Or.inr (Nat.lt_of_lt_of_le small (Nat.pow_le_pow_right (by decide) (by omega)))

theorem write_of_canWrite (fits : limits.CanWrite value) : limits.write value = .ok (toString value) :=
  if_pos fits

theorem write_eq_error_iff :
    limits.write value = .error failure ↔ ¬limits.CanWrite value ∧ failure = .tooManyDigits := by
  unfold write
  split <;> simp [*, eq_comm]

section Entries

variable {form : String → String → String} {entry : String × Int} {entries : List (String × Int)}

theorem canWriteAll_cons_iff :
    limits.CanWriteAll (entry :: entries) ↔ limits.CanWrite entry.2 ∧ limits.CanWriteAll entries :=
  List.forall_mem_cons

theorem not_canWriteAll_iff :
    ¬limits.CanWriteAll entries ↔ ∃ entry ∈ entries, ¬limits.CanWrite entry.2 := by
  simp [CanWriteAll]

/-- One value that is too long leaves nothing written. -/
theorem writeEntries_eq (limits : Limits) (form : String → String → String) (entries : List (String × Int)) :
    limits.writeEntries form entries =
      if limits.CanWriteAll entries then .ok (entries.map fun entry => form entry.1 (toString entry.2))
      else .error .tooManyDigits := by
  induction entries with
  | nil => exact (if_pos nofun).symm
  | cons entry rest ih =>
      rw [writeEntries, write, ih]
      by_cases fits : limits.CanWrite entry.2
      · by_cases others : limits.CanWriteAll rest
        · rw [if_pos fits, if_pos others, if_pos (canWriteAll_cons_iff.mpr ⟨fits, others⟩)]
          rfl
        · rw [if_pos fits, if_neg others, if_neg fun all => others (canWriteAll_cons_iff.mp all).2]
          rfl
      · rw [if_neg fits, if_neg fun all => fits (canWriteAll_cons_iff.mp all).1]

theorem writeEntries_eq_error_iff :
    limits.writeEntries form entries = .error failure ↔
      ¬limits.CanWriteAll entries ∧ failure = .tooManyDigits := by
  rw [writeEntries_eq]
  by_cases fits : limits.CanWriteAll entries
  · rw [if_pos fits]
    exact ⟨nofun, fun both => absurd fits both.1⟩
  · rw [if_neg fits, Except.error.injEq, eq_comm, and_iff_right fits]

end Entries

end Limits

end Calculator
