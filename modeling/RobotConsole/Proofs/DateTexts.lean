import RobotConsole.Proofs.DayCount
import RobotConsole.Proofs.PeriodGrammar
import RobotConsole.Proofs.WordDates

/-!
# Date texts are read back

The text of a date is five words, of which the last is three numbers.  They are read back as a
weekday, a date and a time of day, so a text tells its second by the calendar.  Seconds outside the
years that are shown as dates have their number as text, which is one word.  So no two seconds have
the same text.
-/

set_option autoImplicit false

namespace RobotConsole

namespace Text

/-! ## Padded numbers -/

theorem isDigit_of_mem_paddedDigits {width number : Nat} {c : Char}
    (member : c ∈ paddedDigits width number) :
    c.isDigit = true := by
  rcases List.mem_append.mp member with zero | digit
  · rw [List.eq_of_mem_replicate zero]
    rfl
  · exact isDigit_of_mem_natDigits digit

theorem digitsValue_paddedDigits (width number : Nat) :
    digitsValue (paddedDigits width number) = number :=
  Writes.digitsValue_eq ⟨_, rfl⟩

theorem le_length_paddedDigits (width number : Nat) :
    width ≤ (paddedDigits width number).length := by
  simp only [paddedDigits, List.length_append, List.length_replicate]
  omega

theorem length_paddedDigits {width number : Nat} (positive : 0 < width)
    (fits : number < 10 ^ width) :
    (paddedDigits width number).length = width := by
  have short : (natDigits number).length ≤ width :=
    (Nat.length_toDigits_le_iff (by decide) positive).mpr fits
  simp only [paddedDigits, List.length_append, List.length_replicate]
  omega

theorem not_mem_paddedDigits {c : Char} (other : c.isDigit = false) (width number : Nat) :
    c ∉ paddedDigits width number :=
  fun member => Bool.false_ne_true (other.symm.trans (isDigit_of_mem_paddedDigits member))

theorem not_mem_natDigits {c : Char} (other : c.isDigit = false) (number : Nat) :
    c ∉ natDigits number :=
  fun member => Bool.false_ne_true (other.symm.trans (isDigit_of_mem_natDigits member))

/-- A list without the mark does not begin with it. -/
theorem ne_cons_of_not_mem {c : Char} {cs : List Char} (absent : c ∉ cs) (rest : List Char) :
    cs ≠ c :: rest := by
  rintro rfl
  exact absent List.mem_cons_self

theorem natDigits_injective : Function.Injective natDigits := by
  intro one other same
  rw [← digitsValue_natDigits one, same, digitsValue_natDigits]

theorem toList_intText (number : Int) :
    (intText number).toList = if number < 0 then '-' :: natDigits number.natAbs
      else natDigits number.natAbs := by
  unfold intText
  split_ifs <;> simp [natText]

theorem intText_injective : Function.Injective intText := by
  intro one other same
  have lists := congrArg String.toList same
  have unsigned (number : Nat) (rest : List Char) : natDigits number ≠ '-' :: rest :=
    ne_cons_of_not_mem (not_mem_natDigits rfl number) rest
  rw [toList_intText, toList_intText] at lists
  split_ifs at lists with negative negativeToo negativeToo
  · have sizes := natDigits_injective (List.cons.inj lists).2
    omega
  · exact absurd lists.symm (unsigned _ _)
  · exact absurd lists (unsigned _ _)
  · have sizes := natDigits_injective lists
    omega

theorem intText_eq_toString (number : Int) : intText number = toString number := by
  cases number with
  | ofNat size => rfl
  | negSucc size => exact if_pos (Int.negSucc_lt_zero size)

theorem blank_not_mem_intText (number : Int) : ' ' ∉ (intText number).toList := by
  rw [toList_intText]
  have noDigit : ' ' ∉ natDigits number.natAbs := not_mem_natDigits rfl _
  split_ifs
  · simp [noDigit]
  · exact noDigit

end Text

namespace Calendar

open Text (paddedDigits)

/-! ## Reading a date -/

/-- What a date text says, word by word: its numbers are read, its names stay as they stand. -/
structure Words where
  weekday : String
  day : Nat
  month : String
  year : Int
  hour : Nat
  minute : Nat
  second : Nat
  deriving DecidableEq, Repr

def readWeekday? : List Char → Option String
  | [first, second, third, ','] => some (String.ofList [first, second, third])
  | _ => none

def readPair? : List Char → Option Nat
  | [tens, ones] =>
      if tens.isDigit ∧ ones.isDigit then some (Nat.ofDigitChars 10 [tens, ones] 0) else none
  | _ => none

def readYearNumber? (inRange : Nat → Bool) (digits : List Char) : Option Nat :=
  let number := Nat.ofDigitChars 10 digits 0
  if 4 ≤ digits.length ∧ digits.all Char.isDigit ∧ inRange number then some number else none

/-- A year has a sign if it is before 0 or after 9999, and only then. -/
def readYear? : List Char → Option Int
  | '-' :: digits =>
      (readYearNumber? (fun number => 0 < number) digits).map fun (number : Nat) => -(number : Int)
  | '+' :: digits =>
      (readYearNumber? (fun number => 9999 < number) digits).map fun (number : Nat) =>
        (number : Int)
  | digits =>
      (readYearNumber? (fun number => number ≤ 9999) digits).map fun (number : Nat) =>
        (number : Int)

def readClock? (word : List Char) : Option (Nat × Nat × Nat) :=
  match word.splitOn ':' with
  | [hour, minute, second] => do
      let hour ← readPair? hour
      let minute ← readPair? minute
      let second ← readPair? second
      some (hour, minute, second)
  | _ => none

def Words.read? (text : String) : Option Words :=
  match text.toList.splitOn ' ' with
  | [weekday, day, month, year, clock] => do
      let weekday ← readWeekday? weekday
      let day ← readPair? day
      let year ← readYear? year
      let (hour, minute, second) ← readClock? clock
      some ⟨weekday, day, String.ofList month, year, hour, minute, second⟩
  | _ => none

/-! ## The words of a date text -/

theorem getElem?_weekdayNames (days : Int) :
    weekdayNames[(weekdayOf days).val]? = some (weekdayName days) := by
  have all : ∀ index : Fin 7,
      weekdayNames[index.val]? = some (weekdayNames.getD index.val "") := by
    decide
  exact all (weekdayOf days)

theorem getElem?_monthNames {month : Nat} (least : 1 ≤ month) (most : month ≤ 12) :
    monthNames[month - 1]? = some (monthName month) := by
  interval_cases month <;> rfl

theorem monthName_inj {month other : Nat} (least : 1 ≤ month) (most : month ≤ 12)
    (otherLeast : 1 ≤ other) (otherMost : other ≤ 12) (same : monthName month = monthName other) :
    month = other := by
  have names := getElem?_monthNames least most
  rw [same, ← getElem?_monthNames otherLeast otherMost] at names
  have inside : month - 1 < monthNames.length := by
    change month - 1 < 12
    omega
  have places := (List.getElem?_inj inside (by decide)).mp names
  omega

theorem readWeekday?_name (days : Int) :
    readWeekday? ((weekdayName days).toList ++ [',']) = some (weekdayName days) := by
  have all : ∀ name ∈ weekdayNames, readWeekday? (name.toList ++ [',']) = some name := by decide
  exact all _ (List.mem_of_getElem? (getElem?_weekdayNames days))

theorem ofDigitChars_paddedDigits (width number : Nat) :
    Nat.ofDigitChars 10 (paddedDigits width number) 0 = number :=
  Text.digitsValue_paddedDigits width number

theorem readPair?_padded {number : Nat} (small : number < 100) :
    readPair? (paddedDigits 2 number) = some number := by
  have pair : (paddedDigits 2 number).length = 2 := Text.length_paddedDigits (by decide) small
  obtain ⟨tens, ones, digits⟩ := List.length_eq_two.mp pair
  have value := ofDigitChars_paddedDigits 2 number
  have all : ∀ c ∈ [tens, ones], c.isDigit = true :=
    fun c => digits ▸ Text.isDigit_of_mem_paddedDigits
  rw [digits] at value ⊢
  rw [readPair?, if_pos ⟨all tens (by simp), all ones (by simp)⟩, value]

theorem readYearNumber?_padded {inRange : Nat → Bool} {number : Nat}
    (inside : inRange number = true) :
    readYearNumber? inRange (paddedDigits 4 number) = some number := by
  have digits : (paddedDigits 4 number).all Char.isDigit = true :=
    List.all_eq_true.mpr fun c => Text.isDigit_of_mem_paddedDigits
  simp only [readYearNumber?, ofDigitChars_paddedDigits]
  exact if_pos ⟨Text.le_length_paddedDigits 4 number, digits, inside⟩

theorem toList_yearText (year : Int) :
    (yearText year).toList =
      if 0 ≤ year ∧ year ≤ 9999 then paddedDigits 4 year.toNat
      else (if year < 0 then '-' else '+') :: paddedDigits 4 year.natAbs := by
  unfold yearText
  split_ifs <;> simp [Text.paddedText]

theorem readYear?_text (year : Int) : readYear? (yearText year).toList = some year := by
  rw [toList_yearText]
  split_ifs with plain negative
  · have small : decide (year.toNat ≤ 9999) = true := decide_eq_true (by omega)
    -- digits alone begin with neither sign
    unfold readYear?
    split
    · next signed =>
        exact absurd signed (Text.ne_cons_of_not_mem (Text.not_mem_paddedDigits rfl _ _) _)
    · next signed =>
        exact absurd signed (Text.ne_cons_of_not_mem (Text.not_mem_paddedDigits rfl _ _) _)
    · rw [readYearNumber?_padded small, Option.map_some]
      exact congrArg some (by omega)
  · have before : decide (0 < year.natAbs) = true := decide_eq_true (by omega)
    rw [readYear?, readYearNumber?_padded before, Option.map_some]
    exact congrArg some (by omega)
  · have after : decide (9999 < year.natAbs) = true := decide_eq_true (by omega)
    rw [readYear?, readYearNumber?_padded after, Option.map_some]
    exact congrArg some (by omega)

/-! ## Moments -/

structure Moment.Valid (moment : Moment) : Prop where
  date : moment.date.Valid
  hour : moment.hour < 24
  minute : moment.minute < 60
  second : moment.second < 60

def Moment.clock (moment : Moment) : Nat :=
  3600 * moment.hour + 60 * moment.minute + moment.second

namespace Moment

theorem ofSeconds_valid (seconds : Int) : (ofSeconds seconds).Valid where
  date := Date.ofDays_valid _
  hour := by
    simp only [ofSeconds, secondsPerDay]
    omega
  minute := Nat.mod_lt _ (by decide)
  second := Nat.mod_lt _ (by decide)

theorem clock_ofSeconds (seconds : Int) :
    ((ofSeconds seconds).clock : Int) = seconds % secondsPerDay := by
  simp only [clock, ofSeconds, secondsPerDay]
  omega

def clockWord (moment : Moment) : List Char :=
  [':'].intercalate [paddedDigits 2 moment.hour, paddedDigits 2 moment.minute,
    paddedDigits 2 moment.second]

def textWords (moment : Moment) : List (List Char) :=
  [(weekdayName moment.date.toDays).toList ++ [','], paddedDigits 2 moment.date.day,
    (monthName moment.date.month).toList, (yearText moment.date.year).toList, moment.clockWord]

def words (moment : Moment) : Words :=
  ⟨weekdayName moment.date.toDays, moment.date.day, monthName moment.date.month, moment.date.year,
    moment.hour, moment.minute, moment.second⟩

theorem toList_text (moment : Moment) :
    moment.text.toList = [' '].intercalate moment.textWords := by
  simp [text, textWords, clockWord, Text.paddedText, List.intercalate]

theorem blank_not_mem_textWords {moment : Moment} (valid : moment.Valid) :
    ∀ word ∈ moment.textWords, ' ' ∉ word := by
  have noDigits := Text.not_mem_paddedDigits (show ' '.isDigit = false by decide)
  have weekdays : ∀ name ∈ weekdayNames, ' ' ∉ name.toList := by decide
  have months : ∀ month < 12, ' ' ∉ (monthNames.getD month "").toList := by decide
  have weekday := weekdays _ (List.mem_of_getElem? (getElem?_weekdayNames moment.date.toDays))
  have least := valid.date.month_pos
  have most := valid.date.month_le
  have month := months (moment.date.month - 1) (by omega)
  simp only [textWords, List.forall_mem_cons, monthName, toList_yearText]
  refine ⟨?_, noDigits 2 _, month, ?_, ?_, by simp⟩
  · rw [List.mem_append]
    exact not_or.mpr ⟨weekday, by decide⟩
  · split_ifs <;> simp [noDigits]
  · simp [clockWord, List.intercalate, noDigits]

theorem readClock?_word {moment : Moment} (valid : moment.Valid) :
    readClock? moment.clockWord = some (moment.hour, moment.minute, moment.second) := by
  have noDigits := Text.not_mem_paddedDigits (show ':'.isDigit = false by decide)
  have split : moment.clockWord.splitOn ':' =
      [paddedDigits 2 moment.hour, paddedDigits 2 moment.minute, paddedDigits 2 moment.second] :=
    List.splitOn_intercalate ':' (by simp [noDigits]) (by simp)
  have hours := readPair?_padded (valid.hour.trans (by decide))
  have minutes := readPair?_padded (valid.minute.trans (by decide))
  have seconds := readPair?_padded (valid.second.trans (by decide))
  simp [readClock?, split, hours, minutes, seconds]

theorem read?_text {moment : Moment} (valid : moment.Valid) :
    Words.read? moment.text = some moment.words := by
  have split : moment.text.toList.splitOn ' ' = moment.textWords := by
    rw [toList_text]
    exact List.splitOn_intercalate ' ' (blank_not_mem_textWords valid) (by simp [textWords])
  have day : moment.date.day < 100 := by
    have long := (monthLength_bounds moment.date.year moment.date.month).2
    have last := valid.date.day_le
    omega
  have days := readPair?_padded day
  simp [Words.read?, split, textWords, words, readWeekday?_name, days, readYear?_text,
    readClock?_word valid]

/-- The words tell the moment; its weekday is not needed for that. -/
theorem words_inj {moment other : Moment} (valid : moment.Valid) (otherValid : other.Valid)
    (same : moment.words = other.words) : moment = other := by
  have months := monthName_inj valid.date.month_pos valid.date.month_le otherValid.date.month_pos
    otherValid.date.month_le (congrArg Words.month same)
  have days : moment.date.day = other.date.day := congrArg Words.day same
  have years : moment.date.year = other.date.year := congrArg Words.year same
  have hours : moment.hour = other.hour := congrArg Words.hour same
  have minutes : moment.minute = other.minute := congrArg Words.minute same
  have seconds : moment.second = other.second := congrArg Words.second same
  obtain ⟨⟨_, _, _⟩, _, _, _⟩ := moment
  obtain ⟨⟨_, _, _⟩, _, _, _⟩ := other
  simp_all

/-- A text of one word is no date. -/
theorem read?_of_blankless {text : String} (blankless : ' ' ∉ text.toList) :
    Words.read? text = none := by
  simp only [Words.read?, List.splitOn_eq_singleton blankless]

end Moment

/-! ## Shown seconds -/

theorem isShown_iff (seconds : Int) :
    isShown seconds = true ↔
      (Date.mk firstYear 1 1).toDays * secondsPerDay ≤ seconds ∧
        seconds < (Date.mk (lastYear + 1) 1 1).toDays * secondsPerDay := by
  have valid := Date.ofDays_valid (seconds / secondsPerDay)
  have least := Date.le_year_iff valid firstYear
  have most := Date.le_year_iff valid (lastYear + 1)
  have years : isShown seconds = true ↔ firstYear ≤ (Date.ofDays (seconds / secondsPerDay)).year ∧
      (Date.ofDays (seconds / secondsPerDay)).year ≤ lastYear := by
    rw [isShown, Bool.and_eq_true]
    exact and_congr decide_eq_true_iff decide_eq_true_iff
  rw [Date.toDays_ofDays] at least most
  rw [years]
  unfold secondsPerDay at *
  omega

theorem read?_dateText {seconds : Int} (shown : isShown seconds = true) :
    Words.read? (dateText seconds) = some (Moment.ofSeconds seconds).words := by
  rw [dateText, if_pos shown, Moment.read?_text (Moment.ofSeconds_valid seconds)]

theorem seconds_of_moment (seconds : Int) :
    (Moment.ofSeconds seconds).date.toDays * secondsPerDay + (Moment.ofSeconds seconds).clock =
      seconds := by
  rw [Moment.clock_ofSeconds, Moment.ofSeconds, Date.toDays_ofDays, Int.mul_comm]
  exact Int.mul_ediv_add_emod seconds secondsPerDay

theorem dateText_injective : Function.Injective dateText := by
  intro one other same
  have read := congrArg Words.read? same
  have unread (seconds : Int) (hidden : ¬ isShown seconds = true) :
      Words.read? (dateText seconds) = none := by
    rw [dateText, if_neg hidden]
    exact Moment.read?_of_blankless (Text.blank_not_mem_intText seconds)
  by_cases shown : isShown one = true <;> by_cases otherShown : isShown other = true
  · rw [read?_dateText shown, read?_dateText otherShown] at read
    have moments := Moment.words_inj (Moment.ofSeconds_valid one) (Moment.ofSeconds_valid other)
      (Option.some.inj read)
    rw [← seconds_of_moment one, moments, seconds_of_moment]
  · rw [read?_dateText shown, unread other otherShown] at read
    cases read
  · rw [unread one shown, read?_dateText otherShown] at read
    cases read
  · rw [dateText, dateText, if_neg shown, if_neg otherShown] at same
    exact Text.intText_injective same

/-- The calendar, day by day, gives the dates their numbers and weekdays in one way only.  By
these the text of every second from the first of January -262143 on and before the year 262143
is read back as a date, with its weekday, and a time of day that are exactly this second, and
the text of every other second is its number.  So seconds with the same text are the same, and
the date of a second that is a word of 64 bits can be worked out on such words. -/
theorem date_texts_tell_their_seconds :
    (Almanac Date.toDays fun date => weekdayOf date.toDays) ∧
    (∀ number weekday, Almanac number weekday → ∀ seconds : Int,
      let opening := number ⟨-262143, 1, 1⟩ * 86400
      let closing := number ⟨262143, 1, 1⟩ * 86400
      (opening ≤ seconds ∧ seconds < closing →
        ∃ words date, Words.read? (dateText seconds) = some words ∧ date.Valid ∧
          words.day = date.day ∧ words.year = date.year ∧
          ["Jan", "Feb", "Mar", "Apr", "May", "Jun", "Jul", "Aug", "Sep", "Oct", "Nov",
            "Dec"][date.month - 1]? = some words.month ∧
          ["Sun", "Mon", "Tue", "Wed", "Thu", "Fri", "Sat"][(weekday date).val]? =
            some words.weekday ∧
          words.hour < 24 ∧ words.minute < 60 ∧ words.second < 60 ∧
          number date * 86400 + 3600 * words.hour + 60 * words.minute + words.second = seconds) ∧
      (seconds < opening ∨ closing ≤ seconds → dateText seconds = toString seconds)) ∧
    Function.Injective dateText ∧
    ∀ seconds : Int64, Moment.ofWord seconds = Moment.ofSeconds seconds.toInt := by
  refine ⟨almanac_toDays, ?_, dateText_injective, Moment.ofWord_eq⟩
  intro number weekday almanac seconds opening closing
  have first : opening = (Date.mk firstYear 1 1).toDays * secondsPerDay :=
    congrArg (· * 86400) (almanac.eq_toDays (newYear_valid (-262143))).1
  have last : closing = (Date.mk (lastYear + 1) 1 1).toDays * secondsPerDay :=
    congrArg (· * 86400) (almanac.eq_toDays (newYear_valid 262143)).1
  rw [first, last]
  constructor
  · intro inside
    have valid := Moment.ofSeconds_valid seconds
    obtain ⟨counted, named⟩ := almanac.eq_toDays valid.date
    refine ⟨_, (Moment.ofSeconds seconds).date, read?_dateText ((isShown_iff seconds).mpr inside),
      valid.date, rfl, rfl, getElem?_monthNames valid.date.month_pos valid.date.month_le, ?_,
      valid.hour, valid.minute, valid.second, ?_⟩
    · rw [named]
      exact getElem?_weekdayNames _
    · have exactly := seconds_of_moment seconds
      rw [← counted, Moment.clock, secondsPerDay] at exactly
      simp only [Moment.words]
      omega
  · intro outside
    have hidden : ¬ isShown seconds = true := by
      rw [isShown_iff]
      omega
    rw [dateText, if_neg hidden, Text.intText_eq_toString]

/-- The last second before the year zero, the first of 1970, and the first that is shown as a
number. -/
theorem date_texts_tell_their_seconds_at_seams :
    (let opening := (Date.mk (-262143) 1 1).toDays * 86400
      let closing := (Date.mk 262143 1 1).toDays * 86400
      (opening ≤ -62167219201 ∧ -62167219201 < closing) ∧ (opening ≤ 0 ∧ 0 < closing) ∧
        closing ≤ 8210266876800) ∧
    (dateText (-62167219201) = "Fri, 31 Dec -0001 23:59:59" ∧
      ∃ date : Date, date.Valid ∧ 31 = date.day ∧ -1 = date.year ∧
        ["Sun", "Mon", "Tue", "Wed", "Thu", "Fri", "Sat"][(weekdayOf date.toDays).val]? =
          some "Fri") ∧
    (dateText 0 = "Thu, 01 Jan 1970 00:00:00" ∧
      ∃ date : Date, date.Valid ∧ 1 = date.day ∧ 1970 = date.year ∧
        ["Sun", "Mon", "Tue", "Wed", "Thu", "Fri", "Sat"][(weekdayOf date.toDays).val]? =
          some "Thu") ∧
    dateText 8210266876800 = "8210266876800" := by
  have inside : (Date.mk (-262143) 1 1).toDays * 86400 ≤ -62167219201 ∧
      -62167219201 < (Date.mk 262143 1 1).toDays * 86400 := by
    decide
  have insideToo : (Date.mk (-262143) 1 1).toDays * 86400 ≤ 0 ∧
      0 < (Date.mk 262143 1 1).toDays * 86400 := by
    decide
  have outside : (Date.mk 262143 1 1).toDays * 86400 ≤ 8210266876800 := by decide
  have friday : dateText (-62167219201) = "Fri, 31 Dec -0001 23:59:59" := by decide +kernel
  have thursday : dateText 0 = "Thu, 01 Jan 1970 00:00:00" := by decide +kernel
  have fridayWords : Words.read? "Fri, 31 Dec -0001 23:59:59" =
      some ⟨"Fri", 31, "Dec", -1, 23, 59, 59⟩ := by
    decide +kernel
  have thursdayWords : Words.read? "Thu, 01 Jan 1970 00:00:00" =
      some ⟨"Thu", 1, "Jan", 1970, 0, 0, 0⟩ := by
    decide +kernel
  obtain ⟨almanac, told, -, -⟩ := date_texts_tell_their_seconds
  refine ⟨⟨inside, insideToo, outside⟩, ⟨friday, ?_⟩, ⟨thursday, ?_⟩,
    (told _ _ almanac 8210266876800).2 (Or.inr outside)⟩
  · obtain ⟨words, date, read, valid, day, year, -, weekday, -⟩ :=
      (told _ _ almanac (-62167219201)).1 inside
    rw [friday, fridayWords] at read
    obtain rfl := Option.some.inj read
    exact ⟨date, valid, day, year, weekday⟩
  · obtain ⟨words, date, read, valid, day, year, -, weekday, -⟩ :=
      (told _ _ almanac 0).1 insideToo
    rw [thursday, thursdayWords] at read
    obtain rfl := Option.some.inj read
    exact ⟨date, valid, day, year, weekday⟩

end Calendar

end RobotConsole
