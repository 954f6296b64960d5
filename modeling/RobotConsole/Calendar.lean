import RobotConsole.Text.Decimal

/-!
# Dates of the Gregorian calendar

Seconds since the start of 1970 are turned into a date and a time of day in universal time, by the
Gregorian rules carried back and forth without end.  Years are counted from March for the
arithmetic, so that the leap day comes last.  A date is shown as weekday, day, month, year and time;
seconds outside the years -262143 to 262142 are shown as they are.
-/

set_option autoImplicit false

namespace RobotConsole.Calendar

structure Date where
  year : Int
  month : Nat
  day : Nat
  deriving DecidableEq, Repr

structure Moment where
  date : Date
  hour : Nat
  minute : Nat
  second : Nat
  deriving DecidableEq, Repr

/-- Days from the first of March of the year zero to the first of January 1970. -/
def epochDays : Int := 719468

def daysPerEra : Int := 146097

/-- A day within its era of 400 years, as year of the era and day of the year, both counted from
March. -/
def splitEra (dayOfEra : Nat) : Nat × Nat :=
  let century := min (dayOfEra / 36524) 3
  let dayOfCentury := dayOfEra - century * 36524
  let cycle := dayOfCentury / 1461
  let dayOfCycle := dayOfCentury - cycle * 1461
  let year := min (dayOfCycle / 365) 3
  (100 * century + 4 * cycle + year, dayOfCycle - year * 365)

/-- A day of a year counted from March, as a month from 0 for March and a day of the month. -/
def splitYear (dayOfYear : Nat) : Nat × Nat :=
  let month := (5 * dayOfYear + 2) / 153
  (month, dayOfYear - (153 * month + 2) / 5 + 1)

def Date.ofDays (days : Int) : Date :=
  let shifted := days + epochDays
  let era := shifted / daysPerEra
  let (yearOfEra, dayOfYear) := splitEra (shifted % daysPerEra).toNat
  let (march, day) := splitYear dayOfYear
  let month := if march < 10 then march + 3 else march - 9
  let year := 400 * era + yearOfEra
  ⟨if month ≤ 2 then year + 1 else year, month, day⟩

def Date.toDays (date : Date) : Int :=
  let year := if date.month ≤ 2 then date.year - 1 else date.year
  let march := if date.month ≤ 2 then date.month + 9 else date.month - 3
  let era := year / 400
  let yearOfEra := year % 400
  let dayOfYear : Nat := (153 * march + 2) / 5 + (date.day - 1)
  era * daysPerEra + (yearOfEra * 365 + yearOfEra / 4 - yearOfEra / 100) + dayOfYear - epochDays

def secondsPerDay : Int := 86400

def Moment.ofSeconds (seconds : Int) : Moment :=
  let time := (seconds % secondsPerDay).toNat
  ⟨Date.ofDays (seconds / secondsPerDay), time / 3600, time / 60 % 60, time % 60⟩

def weekdayNames : List String :=
  ["Sun", "Mon", "Tue", "Wed", "Thu", "Fri", "Sat"]

def monthNames : List String :=
  ["Jan", "Feb", "Mar", "Apr", "May", "Jun", "Jul", "Aug", "Sep", "Oct", "Nov", "Dec"]

/-- The first day of 1970 was a Thursday. -/
def weekdayName (days : Int) : String :=
  weekdayNames.getD ((days + 4) % 7).toNat ""

def monthName (month : Nat) : String :=
  monthNames.getD (month - 1) ""

/-- Four digits at least; a year before 0 or after 9999 carries its sign. -/
def yearText (year : Int) : String :=
  if 0 ≤ year ∧ year ≤ 9999 then Text.paddedText 4 year.toNat
  else (if year < 0 then "-" else "+") ++ Text.paddedText 4 year.natAbs

def firstYear : Int := -262143

def lastYear : Int := 262142

def Moment.text (moment : Moment) : String :=
  weekdayName moment.date.toDays ++ ", " ++ Text.paddedText 2 moment.date.day ++ " " ++
    monthName moment.date.month
    ++ " " ++ yearText moment.date.year ++ " " ++ Text.paddedText 2 moment.hour ++ ":"
    ++ Text.paddedText 2 moment.minute ++ ":" ++ Text.paddedText 2 moment.second

def isShown (seconds : Int) : Bool :=
  let year := (Moment.ofSeconds seconds).date.year
  decide (firstYear ≤ year) && decide (year ≤ lastYear)

/-- The date and time of some seconds since the start of 1970, in universal time. -/
def dateText (seconds : Int) : String :=
  if isShown seconds then (Moment.ofSeconds seconds).text else Text.intText seconds

end RobotConsole.Calendar
