import Mathlib.Algebra.Order.Ring.Int
import Mathlib.Order.SuccPred.Archimedean
import Mathlib.Tactic.IntervalCases
import RobotConsole.Calendar

/-!
# Days one after the other

The calendar goes from each day to the next: through the days of a month, the months of a year, and
on to the next year, with 29 days in February if the year is a leap year.  The arithmetic of dates
is this counting: the number of the next day is the next number, the date of the next number is the
next day, and each is found again from the other.  Years that begin in March carry the proofs, since
their leap day comes last.
-/

set_option autoImplicit false

namespace RobotConsole.Calendar

/-! ## The rules -/

def IsLeap (year : Int) : Prop :=
  4 ∣ year ∧ (100 ∣ year → 400 ∣ year)

instance (year : Int) : Decidable (IsLeap year) :=
  inferInstanceAs (Decidable (4 ∣ year ∧ (100 ∣ year → 400 ∣ year)))

def monthLength (year : Int) : Nat → Nat
  | 2 => if IsLeap year then 29 else 28
  | 4 | 6 | 9 | 11 => 30
  | _ => 31

structure Date.Valid (date : Date) : Prop where
  month_pos : 1 ≤ date.month
  month_le : date.month ≤ 12
  day_pos : 1 ≤ date.day
  day_le : date.day ≤ monthLength date.year date.month

def Date.next (date : Date) : Date :=
  if date.day < monthLength date.year date.month then { date with day := date.day + 1 }
  else if date.month < 12 then ⟨date.year, date.month + 1, 1⟩
  else ⟨date.year + 1, 1, 1⟩

def epoch : Date := ⟨1970, 1, 1⟩

theorem monthLength_bounds (year : Int) (month : Nat) :
    1 ≤ monthLength year month ∧ monthLength year month ≤ 31 := by
  unfold monthLength
  split
  · split_ifs <;> decide
  all_goals decide

theorem newYear_valid (year : Int) : (Date.mk year 1 1).Valid :=
  ⟨Nat.le_refl 1, Nat.le_add_left 1 11, Nat.le_refl 1, (monthLength_bounds year 1).1⟩

theorem Date.Valid.next {date : Date} (valid : date.Valid) : date.next.Valid := by
  obtain ⟨least, most, first, -⟩ := valid
  unfold Date.next
  split_ifs with within before
  · exact ⟨least, most, Nat.le_add_left 1 _, within⟩
  · exact ⟨Nat.le_add_left 1 _, before, Nat.le_refl 1, (monthLength_bounds _ _).1⟩
  · exact ⟨Nat.le_refl 1, Nat.le_add_left 1 11, Nat.le_refl 1, (monthLength_bounds _ _).1⟩

/-! ## Years that begin in March -/

def yearLength (year : Int) : Nat :=
  if IsLeap year then 366 else 365

theorem yearLength_cases (year : Int) :
    (yearLength year = 366 ∧ IsLeap year) ∨ (yearLength year = 365 ∧ ¬ IsLeap year) := by
  unfold yearLength
  by_cases leap : IsLeap year <;> simp [leap]

/-- The days before the first of March of a year, from the year zero on. -/
def marchStart (year : Int) : Int :=
  year * 365 + year / 4 - year / 100 + year / 400

theorem marchStart_succ (year : Int) :
    marchStart (year + 1) = marchStart year + yearLength (year + 1) := by
  rcases yearLength_cases (year + 1) with ⟨length, leap⟩ | ⟨length, leap⟩
  all_goals
    rw [length]
    unfold IsLeap at leap
    unfold marchStart
    omega

theorem marchStart_mono {year other : Int} (ordered : year ≤ other) :
    marchStart year ≤ marchStart other := by
  have step (year : Int) : marchStart year ≤ marchStart (year + 1) := by
    rw [marchStart_succ]
    omega
  exact monotone_int_of_le_succ step ordered

/-- A day is in one year only, and has one place in it. -/
theorem marchStart_add_inj {year other : Int} {day otherDay : Nat}
    (inside : day < yearLength (year + 1))
    (otherInside : otherDay < yearLength (other + 1))
    (same : marchStart year + day = marchStart other + otherDay) :
    year = other ∧ day = otherDay := by
  have next := marchStart_succ year
  have otherNext := marchStart_succ other
  have years : year = other := by
    rcases lt_trichotomy year other with earlier | equal | later
    · have above := marchStart_mono (show year + 1 ≤ other from earlier)
      omega
    · exact equal
    · have above := marchStart_mono (show other + 1 ≤ year from later)
      omega
  rw [years] at same
  exact ⟨years, by omega⟩

/-- Four centuries, their cycles of four years and the years of a cycle share the days of an era.
The last day of a leap year is the only one that comes after 365 others of its year. -/
theorem splitEra_cases {dayOfEra : Nat} (inside : dayOfEra < 146097) :
    ∃ century cycle year day, splitEra dayOfEra = (100 * century + 4 * cycle + year, day) ∧
      century ≤ 3 ∧ cycle ≤ 24 ∧ year ≤ 3 ∧
        dayOfEra = 36524 * century + 1461 * cycle + 365 * year + day ∧
      day ≤ 365 ∧ (day = 365 → year = 3 ∧ (cycle < 24 ∨ century = 3)) := by
  refine ⟨_, _, _, _, rfl, ?_⟩
  omega

theorem marchStart_splitEra (era : Int) {dayOfEra : Nat} (inside : dayOfEra < 146097) :
    marchStart (400 * era + (splitEra dayOfEra).1) + (splitEra dayOfEra).2 =
      146097 * era + dayOfEra ∧
      (splitEra dayOfEra).2 < yearLength (400 * era + (splitEra dayOfEra).1 + 1) := by
  obtain ⟨century, cycle, year, day, split, centuries, cycles, years, sum, days, last⟩ :=
    splitEra_cases inside
  rw [split]
  dsimp only
  have fours : (400 * era + ((100 * century + 4 * cycle + year : Nat) : Int)) / 4 =
      100 * era + 25 * century + cycle := by
    omega
  have hundreds : (400 * era + ((100 * century + 4 * cycle + year : Nat) : Int)) / 100 =
      4 * era + century := by omega
  have eras : (400 * era + ((100 * century + 4 * cycle + year : Nat) : Int)) / 400 = era := by omega
  constructor
  · rw [marchStart, fours, hundreds, eras]
    omega
  · rcases yearLength_cases (400 * era + ((100 * century + 4 * cycle + year : Nat) : Int) + 1) with
      ⟨length, -⟩ | ⟨length, common⟩
    · omega
    · unfold IsLeap at common
      omega

/-! ## Months from March on -/

/-- The days of a year before a month, both counted from March. -/
def monthStart (march : Nat) : Nat :=
  (153 * march + 2) / 5

theorem splitYear_eq {march day : Nat} (inside : monthStart march + day < monthStart (march + 1)) :
    splitYear (monthStart march + day) = (march, day + 1) := by
  have month : (5 * (monthStart march + day) + 2) / 153 = march := by
    unfold monthStart at *
    omega
  simp only [splitYear, month]
  rw [← monthStart, Nat.add_sub_cancel_left]

theorem exists_monthStart {dayOfYear : Nat} (inside : dayOfYear < 366) :
    ∃ march day, march < 12 ∧ dayOfYear = monthStart march + day ∧
      dayOfYear < monthStart (march + 1) := by
  unfold monthStart
  exact ⟨(5 * dayOfYear + 2) / 153,
    dayOfYear - (153 * ((5 * dayOfYear + 2) / 153) + 2) / 5, by omega, by omega, by omega⟩

namespace Date

def marchYear (date : Date) : Int :=
  if date.month ≤ 2 then date.year - 1 else date.year

def march (date : Date) : Nat :=
  if date.month ≤ 2 then date.month + 9 else date.month - 3

def marchDay (date : Date) : Nat :=
  monthStart date.march + (date.day - 1)

theorem toDays_eq (date : Date) :
    date.toDays = marchStart date.marchYear + date.marchDay - epochDays := by
  have start (year : Int) :
      year / 400 * daysPerEra + (year % 400 * 365 + year % 400 / 4 - year % 400 / 100) =
        marchStart year := by
    unfold daysPerEra marchStart
    omega
  simp only [toDays, start]
  rfl

def inMarchYear (year : Int) (dayOfYear : Nat) : Date :=
  let (march, day) := splitYear dayOfYear
  let month := if march < 10 then march + 3 else march - 9
  ⟨if month ≤ 2 then year + 1 else year, month, day⟩

theorem ofDays_eq (days : Int) :
    ∃ year dayOfYear, ofDays days = inMarchYear year dayOfYear ∧
      marchStart year + dayOfYear = days + epochDays ∧ dayOfYear < yearLength (year + 1) := by
  have inside : ((days + epochDays) % daysPerEra).toNat < 146097 := by
    unfold daysPerEra
    omega
  obtain ⟨start, short⟩ := marchStart_splitEra ((days + epochDays) / daysPerEra) inside
  refine ⟨400 * ((days + epochDays) / daysPerEra) +
    (splitEra ((days + epochDays) % daysPerEra).toNat).1,
    (splitEra ((days + epochDays) % daysPerEra).toNat).2, rfl, ?_, short⟩
  rw [start]
  unfold daysPerEra
  omega

variable {date other : Date} {year : Int} {dayOfYear : Nat}

/-- A date that is in the calendar is within its month and its year, also if these are counted from
March. -/
theorem Valid.within (valid : date.Valid) :
    date.march < 12 ∧ date.marchDay < monthStart (date.march + 1) ∧
      date.marchDay < yearLength (date.marchYear + 1) := by
  obtain ⟨year, month, day⟩ := date
  obtain ⟨least, most, first, last⟩ := valid
  unfold marchDay march marchYear yearLength
  dsimp only at *
  -- month by month; only in February does it matter whether the year is a leap year
  interval_cases month <;> simp [monthLength, monthStart] at * <;> split_ifs at * <;> omega

/-- January and February are the last months of the year before. -/
theorem inMarchYear_eq {march day : Nat} (few : march < 12)
    (inside : monthStart march + day < monthStart (march + 1)) :
    inMarchYear year (monthStart march + day) =
      if march < 10 then ⟨year, march + 3, day + 1⟩ else ⟨year + 1, march - 9, day + 1⟩ := by
  rw [inMarchYear, splitYear_eq inside]
  by_cases early : march < 10
  · have late : ¬ march + 3 ≤ 2 := by omega
    simp [early, late]
  · have late : march - 9 ≤ 2 := by omega
    simp [early, late]

theorem inMarchYear_valid (inside : dayOfYear < yearLength (year + 1)) :
    (inMarchYear year dayOfYear).Valid := by
  have length := yearLength_cases (year + 1)
  obtain ⟨march, day, few, rfl, short⟩ := exists_monthStart (show dayOfYear < 366 by omega)
  rw [inMarchYear_eq few short]
  split_ifs with early
  · refine ⟨Nat.le_add_left 1 _, by dsimp only; omega, Nat.le_add_left 1 day, ?_⟩
    interval_cases march <;> simp [monthLength, monthStart] at * <;> omega
  · refine ⟨by dsimp only; omega, by dsimp only; omega, Nat.le_add_left 1 day, ?_⟩
    rcases length with ⟨length, leap⟩ | ⟨length, leap⟩
    all_goals interval_cases march <;> simp [monthLength, monthStart, leap] at * <;> omega

/-- The place of a day in a year and the year are found again in its date. -/
theorem march_inMarchYear (inside : dayOfYear < 366) :
    (inMarchYear year dayOfYear).marchYear = year ∧
      (inMarchYear year dayOfYear).marchDay = dayOfYear := by
  obtain ⟨march, day, few, rfl, short⟩ := exists_monthStart inside
  rw [inMarchYear_eq few short]
  split_ifs with early
  · have late : ¬ march + 3 ≤ 2 := by omega
    simp [marchYear, marchDay, Date.march, late]
  · have late : march - 9 ≤ 2 := by omega
    have back : march - 9 + 9 = march := by omega
    simp [marchYear, marchDay, Date.march, late, back]

theorem inMarchYear_self (valid : date.Valid) :
    inMarchYear date.marchYear date.marchDay = date := by
  obtain ⟨few, inside, -⟩ := valid.within
  obtain ⟨year, month, day⟩ := date
  obtain ⟨least, most, first, -⟩ := valid
  rw [marchDay, inMarchYear_eq few inside]
  unfold march marchYear
  dsimp only at *
  by_cases early : month ≤ 2
  · have late : ¬ month + 9 < 10 := by omega
    simp [early, late, Nat.sub_add_cancel first]
  · have late : month - 3 < 10 := by omega
    have back : month - 3 + 3 = month := by omega
    simp [early, late, back, Nat.sub_add_cancel first]

/-! ## Dates and numbers of days -/

theorem toDays_inMarchYear (inside : dayOfYear < 366) :
    (inMarchYear year dayOfYear).toDays = marchStart year + dayOfYear - epochDays := by
  have back : (inMarchYear year dayOfYear).marchYear = year ∧
      (inMarchYear year dayOfYear).marchDay = dayOfYear :=
    march_inMarchYear inside
  rw [toDays_eq, back.1, back.2]

theorem ofDays_valid (days : Int) : (ofDays days).Valid := by
  obtain ⟨year, dayOfYear, shown, -, inside⟩ := ofDays_eq days
  rw [shown]
  exact inMarchYear_valid inside

theorem toDays_ofDays (days : Int) : (ofDays days).toDays = days := by
  obtain ⟨year, dayOfYear, shown, count, inside⟩ := ofDays_eq days
  have length := yearLength_cases (year + 1)
  rw [shown, toDays_inMarchYear (by omega)]
  omega

theorem ofDays_toDays (valid : date.Valid) : ofDays date.toDays = date := by
  obtain ⟨year, dayOfYear, shown, count, inside⟩ := ofDays_eq date.toDays
  obtain ⟨-, -, short⟩ := valid.within
  rw [toDays_eq] at count
  obtain ⟨rfl, rfl⟩ := marchStart_add_inj inside short (by omega)
  rw [shown, inMarchYear_self valid]

theorem toDays_epoch : epoch.toDays = 0 := by decide

theorem toDays_next (valid : date.Valid) : date.next.toDays = date.toDays + 1 := by
  obtain ⟨year, month, day⟩ := date
  obtain ⟨least, most, first, last⟩ := valid
  unfold next
  dsimp only at *
  split_ifs with within before
  · simp only [toDays_eq, marchYear, marchDay, march]
    omega
  · -- only from February on to March does a year of the proofs end
    have newYear := marchStart_succ (year - 1)
    rw [Int.sub_add_cancel] at newYear
    have full : day = monthLength year month := by omega
    rcases yearLength_cases year with ⟨length, leap⟩ | ⟨length, leap⟩
    all_goals
      rw [length] at newYear
      interval_cases month <;> simp [full, monthLength, leap, toDays_eq, marchYear, marchDay, march,
        monthStart] <;> omega
  · obtain rfl : month = 12 := by omega
    obtain rfl : day = 31 := Nat.le_antisymm last (Nat.le_of_not_lt within)
    simp [toDays_eq, marchYear, marchDay, march, monthStart]
    omega

theorem ofDays_succ (days : Int) : ofDays (days + 1) = (ofDays days).next := by
  have valid := ofDays_valid days
  rw [← ofDays_toDays valid.next, toDays_next valid, toDays_ofDays]

theorem toDays_newYear (year : Int) :
    (Date.mk year 1 1).toDays = marchStart (year - 1) + 306 - epochDays := by
  simp [toDays_eq, marchYear, marchDay, march, monthStart]

/-- A year begins with its first of January. -/
theorem le_year_iff (valid : date.Valid) (year : Int) :
    year ≤ date.year ↔ (Date.mk year 1 1).toDays ≤ date.toDays := by
  obtain ⟨-, inside, short⟩ := valid.within
  obtain ⟨least, most, -, -⟩ := valid
  have begun : marchStart (date.year - 1) + 306 ≤ marchStart date.marchYear + date.marchDay ∧
      marchStart date.marchYear + date.marchDay < marchStart date.year + 306 := by
    have newYear := marchStart_succ (date.year - 1)
    have length := yearLength_cases date.year
    rw [Int.sub_add_cancel] at newYear
    unfold marchYear marchDay march monthStart at *
    split_ifs at * with early
    · rw [Int.sub_add_cancel] at short
      omega
    · omega
  rw [toDays_newYear, toDays_eq]
  constructor
  · intro earlier
    have start := marchStart_mono (show year - 1 ≤ date.year - 1 by omega)
    omega
  · intro counted
    by_contra later
    have start := marchStart_mono (show date.year ≤ year - 1 by omega)
    omega

end Date

/-! ## Numbers and weekdays -/

/-- A number and a day of the week, Sunday being the first, for every date.  They are carried on
from day to day. -/
structure Almanac (number : Date → Int) (weekday : Date → Fin 7) : Prop where
  number_epoch : number epoch = 0
  weekday_epoch : weekday epoch = 4
  number_next : ∀ date, date.Valid → number date.next = number date + 1
  weekday_next : ∀ date, date.Valid → weekday date.next = weekday date + 1

def weekdayOf (days : Int) : Fin 7 :=
  ⟨((days + 4) % 7).toNat, by omega⟩

theorem weekdayOf_succ (days : Int) : weekdayOf (days + 1) = weekdayOf days + 1 := by
  simp only [weekdayOf, Fin.ext_iff, Fin.val_add]
  omega

theorem weekday_succ_inj : ∀ one other : Fin 7, one + 1 = other + 1 → one = other := by decide

/-- The arithmetic of dates makes an almanac. -/
theorem almanac_toDays : Almanac Date.toDays fun date => weekdayOf date.toDays where
  number_epoch := Date.toDays_epoch
  weekday_epoch := by decide
  number_next date valid := Date.toDays_next valid
  weekday_next date valid := by rw [Date.toDays_next valid, weekdayOf_succ]

/-- There is only one almanac. -/
theorem Almanac.ofDays {number : Date → Int} {weekday : Date → Fin 7}
    (almanac : Almanac number weekday) (days : Int) :
    number (Date.ofDays days) = days ∧ weekday (Date.ofDays days) = weekdayOf days := by
  have step (days : Int) : number (Date.ofDays (days + 1)) = number (Date.ofDays days) + 1 ∧
      weekday (Date.ofDays (days + 1)) = weekday (Date.ofDays days) + 1 := by
    rw [Date.ofDays_succ]
    exact ⟨almanac.number_next _ (Date.ofDays_valid days),
      almanac.weekday_next _ (Date.ofDays_valid days)⟩
  have first : Date.ofDays 0 = epoch := by decide
  induction days using Int.induction_on with
  | zero =>
      rw [first]
      exact ⟨almanac.number_epoch, almanac.weekday_epoch⟩
  | succ days ih =>
      obtain ⟨counted, named⟩ := step days
      rw [counted, named, ih.1, ih.2, weekdayOf_succ]
      exact ⟨rfl, rfl⟩
  | pred days ih =>
      -- what the next day has is known, and the step to it can be undone
      obtain ⟨counted, named⟩ := step (-days - 1)
      rw [Int.sub_add_cancel, ih.1] at counted
      rw [Int.sub_add_cancel, ih.2] at named
      have back := weekdayOf_succ (-days - 1)
      rw [Int.sub_add_cancel, named] at back
      exact ⟨by omega, weekday_succ_inj _ _ back⟩

theorem Almanac.eq_toDays {number : Date → Int} {weekday : Date → Fin 7}
    (almanac : Almanac number weekday) {date : Date}
    (valid : date.Valid) : number date = date.toDays ∧ weekday date = weekdayOf date.toDays := by
  have known := almanac.ofDays date.toDays
  rwa [Date.ofDays_toDays valid] at known

end RobotConsole.Calendar
