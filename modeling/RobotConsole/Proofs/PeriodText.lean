import Mathlib.Data.Nat.Digits.Defs
import RobotConsole.Period
import RobotConsole.Proofs.Trimming

/-!
# The written form of a period

A period is written as digits and one letter, without blanks, and is read back from this as it was.
-/

set_option autoImplicit false

namespace RobotConsole

namespace Text

theorem dropWhile_blank_eq_self {cs : List Char} (solid : ∀ c ∈ cs, isBlank c = false) :
    cs.dropWhile isBlank = cs := by
  rw [List.dropWhile_eq_self_iff]
  intro inside
  rw [solid _ (List.getElem_mem inside)]
  exact Bool.false_ne_true

/-- A text without blanks has none to lose at its ends. -/
theorem trimChars_eq_self {cs : List Char} (solid : ∀ c ∈ cs, isBlank c = false) :
    trimChars cs = cs := by
  have back : ∀ c ∈ cs.reverse, isBlank c = false :=
    fun c member => solid c (List.mem_reverse.mp member)
  rw [trimChars, dropWhile_blank_eq_self solid, dropEndWhile, dropWhile_blank_eq_self back,
    List.reverse_reverse]

theorem toNat_of_isDigit {c : Char} (digit : c.isDigit = true) : 48 ≤ c.toNat ∧ c.toNat ≤ 57 := by
  simpa [Char.isDigit, UInt32.le_iff_toNat_le] using digit

theorem isBlank_of_isDigit {c : Char} (digit : c.isDigit = true) : isBlank c = false := by
  have range := toNat_of_isDigit digit
  simp [isBlank, inRanges, blankRanges]
  omega

theorem isDigit_of_mem_natDigits {number : Nat} {c : Char} (member : c ∈ natDigits number) :
    c.isDigit = true :=
  Nat.isDigit_of_mem_toDigits (by decide) (by decide) member

theorem natDigits_ne_nil (number : Nat) : natDigits number ≠ [] :=
  Nat.toDigits_ne_nil

theorem digitsValue_natDigits (number : Nat) : digitsValue (natDigits number) = number :=
  Nat.ofDigitChars_toDigits (by decide) (by decide)

end Text

namespace PeriodUnit

theorem letter_not_digit (unit : PeriodUnit) : unit.letter.isDigit = false := by
  cases unit <;> rfl

theorem letter_not_blank (unit : PeriodUnit) : Text.isBlank unit.letter = false := by
  cases unit <;> decide

theorem read_letter (unit : PeriodUnit) : read (String.singleton unit.letter) = .ok unit := by
  cases unit <;> decide

end PeriodUnit

namespace Period

theorem make_self (period : Period) : make period.amount period.unit = .ok period := by
  rw [make, dif_pos period.amount_pos, dif_pos period.amount_lt]

/-- Neither the digits nor the letter of a written period is a blank. -/
theorem not_blank_of_mem_written {amount : Nat} {unit : PeriodUnit} {c : Char}
    (member : c ∈ Text.natDigits amount ++ [unit.letter]) : Text.isBlank c = false := by
  rcases List.mem_append.mp member with digit | letter
  · exact Text.isBlank_of_isDigit (Text.isDigit_of_mem_natDigits digit)
  · rw [List.mem_singleton.mp letter]
    exact unit.letter_not_blank

theorem read_wire (period : Period) : read period.wire = .ok period := by
  have solid : ∀ c ∈ Text.natDigits period.amount ++ [period.unit.letter], Text.isBlank c = false :=
    fun c => not_blank_of_mem_written
  have digits : ∀ c ∈ Text.natDigits period.amount, c.isDigit = true :=
    fun c => Text.isDigit_of_mem_natDigits
  have amount : (Text.natDigits period.amount ++ [period.unit.letter]).takeWhile Char.isDigit =
      Text.natDigits period.amount := by
    rw [List.takeWhile_append_of_pos digits]
    simp [period.unit.letter_not_digit]
  have unit : (Text.natDigits period.amount ++ [period.unit.letter]).dropWhile Char.isDigit =
      [period.unit.letter] := by
    rw [List.dropWhile_append_of_pos digits]
    simp [period.unit.letter_not_digit]
  have kept : Text.trimChars [period.unit.letter] = [period.unit.letter] :=
    Text.trimChars_eq_self (by simp [period.unit.letter_not_blank])
  simp [read, wire, Text.trimChars_eq_self solid, amount, unit, kept, Text.natDigits_ne_nil,
    Text.digitsValue_natDigits, period.amount_lt, PeriodUnit.read_letter, make_self]

end Period

end RobotConsole
