import RobotConsole.Proofs.DayCount

/-!
# Dates on words

Seconds are a signed word of 64 bits.  When a date is worked out on such words, with all that
exceeds a word cut off at every step, nothing is ever cut off: the moment is the one that unbounded
numbers give.
-/

set_option autoImplicit false

namespace RobotConsole.Calendar

/-- The quotient rounded down and the rest, worked out on signed words. -/
def wordDivMod (number divisor : Int64) : Int64 × Int64 :=
  if number % divisor < 0 then (number / divisor - 1, number % divisor + divisor)
  else (number / divisor, number % divisor)

def FitsWord (number : Int) : Prop := -2 ^ 63 ≤ number ∧ number < 2 ^ 63

theorem fitsWord_toInt (word : Int64) : FitsWord word.toInt :=
  ⟨Int64.le_toInt word, Int64.toInt_lt word⟩

theorem FitsWord.bmod_eq {number : Int} (fits : FitsWord number) :
    number.bmod (2 ^ 64) = number := by
  obtain ⟨least, most⟩ := fits
  apply Int.bmod_eq_of_le <;> omega

/-- Rounded down, the quotient of a negative number is negative, and of no more size. -/
theorem FitsWord.ediv {number divisor : Int} (fits : FitsWord number) (positive : 0 < divisor) :
    FitsWord (number / divisor) ∧ (number < 0 → FitsWord (number / divisor + 1)) := by
  obtain ⟨least, most⟩ := fits
  by_cases negative : number < 0
  · have product := Int.mul_le_mul_of_nonpos_left (show number ≤ 0 by omega)
        (show 1 ≤ divisor from positive)
    rw [Int.mul_one] at product
    have below := Int.ediv_neg_of_neg_of_pos negative positive
    have above := Int.le_ediv_of_mul_le positive product
    exact ⟨⟨by omega, by omega⟩, fun _ => ⟨by omega, by omega⟩⟩
  · have below := Int.ediv_nonneg (show 0 ≤ number by omega) positive.le
    have above := Int.ediv_le_self divisor (show 0 ≤ number by omega)
    exact ⟨⟨by omega, by omega⟩, fun less => absurd less negative⟩

theorem toInt_wordDivMod (number : Int64) {divisor : Int64} (positive : 0 < divisor.toInt) :
    (wordDivMod number divisor).1.toInt = number.toInt / divisor.toInt ∧
      (wordDivMod number divisor).2.toInt = number.toInt % divisor.toInt := by
  obtain ⟨fits, fitsAbove⟩ := (fitsWord_toInt number).ediv positive
  obtain ⟨-, wide⟩ := fitsWord_toInt divisor
  have least := Int.emod_nonneg number.toInt positive.ne'
  have most := Int.emod_lt_of_pos number.toInt positive
  have zero : (0 : Int64).toInt = 0 := rfl
  have one : (1 : Int64).toInt = 1 := rfl
  have quotient := Int64.toInt_div number divisor
  have rest := Int64.toInt_mod number divisor
  rw [Int.tdiv_eq_ediv, Int.sign_eq_one_of_pos positive] at quotient
  rw [Int.tmod_eq_emod] at rest
  simp only [wordDivMod, Int64.lt_iff_toInt_lt, zero]
  by_cases whole : 0 ≤ number.toInt ∨ divisor.toInt ∣ number.toInt
  · rw [if_pos whole, Int.add_zero, fits.bmod_eq] at quotient
    rw [if_pos whole, Int.natCast_zero, Int.sub_zero] at rest
    rw [if_neg (by omega)]
    exact ⟨quotient, rest⟩
  · -- cut off towards zero, the quotient of a negative number is one too large
    obtain ⟨negative, -⟩ := not_or.mp whole
    rw [if_neg whole, (fitsAbove (Int.not_le.mp negative)).bmod_eq] at quotient
    rw [if_neg whole, Int.natAbs_of_nonneg positive.le] at rest
    rw [if_pos (by omega)]
    constructor
    · rw [Int64.toInt_sub, quotient, one, Int.add_sub_cancel, fits.bmod_eq]
    · have kept : FitsWord (number.toInt % divisor.toInt) := ⟨by omega, by omega⟩
      rw [Int64.toInt_add, rest, Int.sub_add_cancel, kept.bmod_eq]

/-- The year is kept as a word; what is counted within a year, or within an era, is small. -/
def Date.ofDaysWord (days : Int64) : Date :=
  let era := wordDivMod (days + 719468) 146097
  let (yearOfEra, dayOfYear) := splitEra era.2.toInt.toNat
  let (march, day) := splitYear dayOfYear
  let month := if march < 10 then march + 3 else march - 9
  let year := 400 * era.1 + Int64.ofNat yearOfEra
  ⟨if month ≤ 2 then (year + 1).toInt else year.toInt, month, day⟩

def Moment.ofWord (seconds : Int64) : Moment :=
  let day := wordDivMod seconds 86400
  let time := day.2.toInt.toNat
  ⟨Date.ofDaysWord day.1, time / 3600, time / 60 % 60, time % 60⟩

theorem toInt_yearWord {era : Int64} {yearOfEra : Nat} (small : yearOfEra < 400)
    (least : -2 ^ 40 ≤ era.toInt) (most : era.toInt < 2 ^ 40) :
    (400 * era + Int64.ofNat yearOfEra).toInt = 400 * era.toInt + yearOfEra ∧
      (400 * era + Int64.ofNat yearOfEra + 1).toInt = 400 * era.toInt + yearOfEra + 1 := by
  have fourHundred : (400 : Int64).toInt = 400 := rfl
  have one : (1 : Int64).toInt = 1 := rfl
  have product : (400 * era).toInt = 400 * era.toInt := by
    rw [Int64.toInt_mul, fourHundred]
    exact FitsWord.bmod_eq ⟨by omega, by omega⟩
  have year : (400 * era + Int64.ofNat yearOfEra).toInt = 400 * era.toInt + yearOfEra := by
    rw [Int64.toInt_add, product, Int64.toInt_ofNat_of_lt (by omega)]
    exact FitsWord.bmod_eq ⟨by omega, by omega⟩
  refine ⟨year, ?_⟩
  rw [Int64.toInt_add, year, one]
  exact FitsWord.bmod_eq ⟨by omega, by omega⟩

/-- No step runs over as long as the days come from seconds that are a word. -/
theorem Date.ofDaysWord_eq (days : Int64) (least : -2 ^ 47 ≤ days.toInt)
    (most : days.toInt < 2 ^ 47) :
    ofDaysWord days = ofDays days.toInt := by
  have shift : (719468 : Int64).toInt = epochDays := rfl
  have shifted : (days + 719468).toInt = days.toInt + epochDays := by
    rw [Int64.toInt_add, shift]
    unfold epochDays
    exact FitsWord.bmod_eq ⟨by omega, by omega⟩
  obtain ⟨era, dayOfEra⟩ := toInt_wordDivMod (days + 719468)
      (show 0 < (146097 : Int64).toInt by decide)
  have length : (146097 : Int64).toInt = daysPerEra := rfl
  rw [shifted, length] at era dayOfEra
  have small : (splitEra ((days.toInt + epochDays) % daysPerEra).toNat).1 < 400 := by
    have inside : ((days.toInt + epochDays) % daysPerEra).toNat < 146097 := by
      unfold daysPerEra
      omega
    obtain ⟨_, _, _, _, split, centuries, cycles, years, -⟩ := splitEra_cases inside
    rw [split]
    dsimp only
    omega
  have range : -2 ^ 40 ≤ (wordDivMod (days + 719468) 146097).1.toInt ∧
      (wordDivMod (days + 719468) 146097).1.toInt < 2 ^ 40 := by
    rw [era]
    unfold epochDays daysPerEra
    omega
  obtain ⟨year, nextYear⟩ := toInt_yearWord small range.1 range.2
  simp only [ofDaysWord, ofDays, dayOfEra, year, nextYear, era]

theorem Moment.ofWord_eq (seconds : Int64) : ofWord seconds = ofSeconds seconds.toInt := by
  obtain ⟨least, most⟩ := fitsWord_toInt seconds
  obtain ⟨days, time⟩ := toInt_wordDivMod seconds (show 0 < (86400 : Int64).toInt by decide)
  have secondsOfDay : (86400 : Int64).toInt = 86400 := rfl
  rw [secondsOfDay] at days time
  have date := Date.ofDaysWord_eq (wordDivMod seconds 86400).1 (by omega) (by omega)
  simp only [ofWord, ofSeconds, secondsPerDay, date, days, time]

end RobotConsole.Calendar
