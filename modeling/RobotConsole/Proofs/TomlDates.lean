import RobotConsole.Proofs.DayCount
import RobotConsole.Proofs.TomlFractions

/-!
# How dates are written in TOML

A date of the calendar may stand alone, or have a time of day behind it and perhaps how far that
is from universal time; a time of day may also stand alone.  Each of these forms is read as a
date.
-/

set_option autoImplicit false

namespace RobotConsole.Toml

/-! ## Forms -/

/-- A number in a range, written with a fixed count of digits. -/
structure Field (count low high : Nat) (form : List Char) (number : Nat) : Prop where
  length : form.length = count
  writes : Text.Writes form number
  least : low ≤ number
  most : number ≤ high

inductive SpellsDay : List Char → Prop
  | intro {yearForm monthForm dayForm : List Char} {year month day : Nat}
      (years : Field 4 0 9999 yearForm year) (months : Field 2 1 12 monthForm month)
      (days : Field 2 1 (Calendar.monthLength year month) dayForm day) :
      SpellsDay (yearForm ++ '-' :: (monthForm ++ '-' :: dayForm))

inductive SpellsPortion : List Char → Prop
  | none : SpellsPortion []
  | digits {digits : List Char} (present : digits ≠ []) (decimal : ∀ c ∈ digits, c.isDigit = true) :
      SpellsPortion ('.' :: digits)

/-- Hour, minute and second, perhaps with parts of it; a minute may have a leap second. -/
inductive SpellsTime : List Char → Prop
  | intro {hourForm minuteForm secondForm parts : List Char} {hour minute second : Nat}
      (hours : Field 2 0 23 hourForm hour) (minutes : Field 2 0 59 minuteForm minute)
      (seconds : Field 2 0 60 secondForm second) (spells : SpellsPortion parts) :
      SpellsTime (hourForm ++ ':' :: (minuteForm ++ ':' :: (secondForm ++ parts)))

inductive SpellsOffset : List Char → Prop
  | none : SpellsOffset []
  | universal {letter : Char} (marked : letter = 'Z' ∨ letter = 'z') : SpellsOffset [letter]
  | apart {sign : Char} {hourForm minuteForm : List Char} {hour minute : Nat}
      (signed : sign = '+' ∨ sign = '-') (hours : Field 2 0 23 hourForm hour)
      (minutes : Field 2 0 59 minuteForm minute) :
      SpellsOffset (sign :: (hourForm ++ ':' :: minuteForm))

inductive SpellsDate : List Char → Prop
  | day {form : List Char} (spells : SpellsDay form) : SpellsDate form
  | time {form : List Char} (spells : SpellsTime form) : SpellsDate form
  | both {dayForm timeForm offset : List Char} {mark : Char} (spellsDay : SpellsDay dayForm)
      (marked : mark = 'T' ∨ mark = 't' ∨ mark = ' ') (spellsTime : SpellsTime timeForm)
      (spellsOffset : SpellsOffset offset) :
      SpellsDate (dayForm ++ mark :: (timeForm ++ offset))

/-! ## Fields -/

section Fields

variable {count low high number : Nat} {form : List Char} (rest : List Char)

theorem Field.readFixed_eq (field : Field count low high form number) :
    readFixed count (form ++ rest) = some (number, rest) := by
  have front : (form ++ rest).take count = form := by rw [← field.length, List.take_left]
  have back : (form ++ rest).drop count = rest := by rw [← field.length, List.drop_left]
  have digits : form.all Char.isDigit = true := List.all_eq_true.mpr (Writes.isDigit field.writes)
  simp only [readFixed, front, back, field.length, digits, field.writes.digitsValue_eq, and_self,
    if_true]

theorem Field.readTwo_eq (field : Field 2 low high form number) :
    readTwo low high (form ++ rest) = some (number, rest) := by
  rw [readTwo, field.readFixed_eq]
  exact if_pos ⟨field.least, field.most⟩

theorem Field.readHour?_eq (field : Field 2 0 23 form number) :
    readHour? (form ++ ':' :: rest) = some rest := by
  rw [readHour?, field.readTwo_eq]
  rfl

end Fields

theorem daysInMonth_eq (year month : Nat) :
    daysInMonth year month = Calendar.monthLength year month := by
  have leap : isLeapYear year = true ↔ Calendar.IsLeap year := by
    simp only [isLeapYear, Calendar.IsLeap, Bool.and_eq_true, Bool.or_eq_true, beq_iff_eq,
      bne_iff_ne]
    omega
  unfold Calendar.monthLength
  split
  · simp [daysInMonth, leap]
  · rfl
  · rfl
  · rfl
  · rfl
  · rename_i notTwo notFour notSix notNine notEleven
    rw [daysInMonth, if_neg notTwo, if_neg]
    rintro (four | six | nine | eleven)
    exacts [notFour four, notSix six, notNine nine, notEleven eleven]

/-! ## Reading -/

section Reading

variable {form rest : List Char}

theorem SpellsDay.readNumberOrDate_eq (spells : SpellsDay form) :
    readNumberOrDate (form ++ rest) = (readTimeAfterDate rest).map fun rest => (.date, rest) := by
  cases spells with
  | @intro yearForm monthForm dayForm year month day years months days =>
      have years := years.readFixed_eq ('-' :: (monthForm ++ '-' :: (dayForm ++ rest)))
      have months := months.readTwo_eq ('-' :: (dayForm ++ rest))
      rw [← daysInMonth_eq] at days
      simp [readNumberOrDate, years, readMonthAndDay, months, days.readTwo_eq]

theorem SpellsPortion.read {parts : List Char} (spells : SpellsPortion parts)
    (stop : ∀ c, rest.head? = some c → c.isDigit = false ∧ c ≠ '.') :
    readParts (parts ++ rest) = some rest := by
  cases spells with
  | none =>
      cases rest with
      | nil => rfl
      | cons c rest =>
          have point := (stop c rfl).2
          simp [readParts, point]
  | @digits digits present decimal =>
      have others : rest.takeWhile Char.isDigit = [] ∧ rest.dropWhile Char.isDigit = rest := by
        cases rest with
        | nil => exact ⟨rfl, rfl⟩
        | cons c rest => simp [(stop c rfl).1]
      simp [readParts, List.takeWhile_append_of_pos decimal, List.dropWhile_append_of_pos decimal,
        others, present]

/-- A time of day is read up to what is neither a digit nor a point. -/
theorem SpellsTime.read (spells : SpellsTime form)
    (stop : ∀ c, rest.head? = some c → c.isDigit = false ∧ c ≠ '.') :
    (readHour? (form ++ rest)).bind readMinutes = some rest := by
  cases spells with
  | @intro hourForm minuteForm secondForm parts hour minute second hours minutes seconds spells =>
      have hours := hours.readHour?_eq (minuteForm ++ ':' :: (secondForm ++ (parts ++ rest)))
      have minutes := minutes.readTwo_eq (':' :: (secondForm ++ (parts ++ rest)))
      have seconds := seconds.readTwo_eq (parts ++ rest)
      simp [hours, readMinutes, minutes, seconds, spells.read stop]

theorem EndsValue.stopsTime (ends : EndsValue rest) :
    ∀ c, rest.head? = some c → c.isDigit = false ∧ c ≠ '.' := by
  intro c head
  refine ⟨eq_false_of_mark rfl (ends.head head), ?_⟩
  rintro rfl
  exact ends.head_ne (by decide) head

theorem SpellsOffset.stopsTime {offset : List Char} (spells : SpellsOffset offset)
    (ends : EndsValue rest) :
    ∀ c, (offset ++ rest).head? = some c → c.isDigit = false ∧ c ≠ '.' := by
  cases spells with
  | none => exact ends.stopsTime
  | universal marked =>
      rintro c ⟨⟩
      rcases marked with rfl | rfl <;> decide
  | apart signed =>
      rintro c ⟨⟩
      rcases signed with rfl | rfl <;> decide

theorem SpellsOffset.read {offset : List Char} (spells : SpellsOffset offset)
    (ends : EndsValue rest) : readOffset (offset ++ rest) = some rest := by
  cases spells with
  | none =>
      cases rest with
      | nil => rfl
      | cons c rest =>
          have other (d : Char) (inside : d ∉ outerMarks) : c ≠ d := by
            rintro rfl
            exact ends.head_ne inside rfl
          simp [readOffset, other 'Z' (by decide), other 'z' (by decide), other '+' (by decide),
            other '-' (by decide)]
  | universal marked => rcases marked with rfl | rfl <;> rfl
  | @apart sign hourForm minuteForm hour minute signed hours minutes =>
      have hours := hours.readHour?_eq (minuteForm ++ rest)
      have minutes := minutes.readTwo_eq rest
      rcases signed with rfl | rfl <;>
        simp [readOffset, readOffset.readDistance, hours, minutes]

/-- No hour begins where a value ends. -/
theorem EndsValue.readHour?_eq (ends : EndsValue rest) : readHour? rest = none := by
  have unfixed : readFixed 2 rest = none := by
    cases read : readFixed 2 rest with
    | none => rfl
    | some found =>
        obtain ⟨digits, length, allDigits, rfl⟩ := readFixed_eq_some read
        obtain ⟨tens, ones, rfl⟩ := List.length_eq_two.mp length
        have digit := allDigits tens List.mem_cons_self
        rw [(ends.stopsTime tens rfl).1] at digit
        cases digit
  rw [readHour?, readTwo, unfixed]

theorem EndsValue.of_blank (ends : EndsValue (' ' :: rest)) : EndsValue rest := by
  obtain ⟨gaps, left, areGaps, split, marks⟩ := ends
  cases gaps with
  | nil => exact absurd (marks ' ' (by rw [← List.nil_append left, ← split]; rfl)) (by decide)
  | cons gap gaps =>
      exact ⟨gaps, left, (List.forall_mem_cons.mp areGaps).2, (List.cons.inj split).2, marks⟩

/-- A date without a time ends where no hour follows. -/
theorem EndsValue.readTimeAfterDate_eq (ends : EndsValue rest) :
    readTimeAfterDate rest = some rest := by
  cases rest with
  | nil => rfl
  | cons c tail =>
      have other (d : Char) (inside : d ∉ outerMarks) : c ≠ d := by
        rintro rfl
        exact ends.head_ne inside rfl
      have large := other 'T' (by decide)
      have small := other 't' (by decide)
      by_cases blank : c = ' '
      · subst blank
        simp [readTimeAfterDate, ends.of_blank.readHour?_eq]
      · simp [readTimeAfterDate, large, small, blank]

theorem SpellsTime.exists_hour (spells : SpellsTime form) (rest : List Char) :
    ∃ after, readHour? (form ++ rest) = some after ∧
      ∀ year left, readFixed 4 (form ++ rest) ≠ some (year, '-' :: left) := by
  cases spells with
  | @intro hourForm minuteForm secondForm parts hour minute second hours minutes seconds spells =>
      obtain ⟨tens, ones, rfl⟩ := List.length_eq_two.mp hours.length
      have read := hours.readHour?_eq (minuteForm ++ ':' :: (secondForm ++ (parts ++ rest)))
      refine ⟨_, by simpa using read, ?_⟩
      intro year left fixed
      -- the third of the characters is a colon
      obtain ⟨digits, length, allDigits, split⟩ := readFixed_eq_some fixed
      match digits, length with
      | [_, _, third, _], _ =>
          have colon : some ':' = some third := congrArg (·[2]?) split
          obtain rfl := Option.some.inj colon
          exact absurd (allDigits ':' (by simp)) (by decide)

end Reading

/-- A date is read from every form of it. -/
theorem SpellsDate.read {form : List Char} (spells : SpellsDate form) {rest : List Char}
    (ends : EndsValue rest) : readNumberOrDate (form ++ rest) = some (.date, rest) := by
  cases spells with
  | day spells =>
      rw [spells.readNumberOrDate_eq, ends.readTimeAfterDate_eq]
      rfl
  | time spells =>
      obtain ⟨after, hour, yearless⟩ := spells.exists_hour rest
      have minutes := spells.read ends.stopsTime
      rw [hour, Option.bind_some] at minutes
      unfold readNumberOrDate
      split
      · rename_i year left fixed
        exact absurd fixed (yearless year left)
      · rw [hour]
        simp only [minutes, Option.map_some]
  | @both dayForm timeForm offset mark spellsDay marked spellsTime spellsOffset =>
      have minutes := spellsTime.read (spellsOffset.stopsTime ends)
      obtain ⟨after, hour, -⟩ := spellsTime.exists_hour (offset ++ rest)
      rw [hour, Option.bind_some] at minutes
      rw [List.append_assoc, List.cons_append, List.append_assoc, spellsDay.readNumberOrDate_eq,
        readTimeAfterDate, if_pos marked, hour]
      simp only [minutes, Option.bind_some, spellsOffset.read ends, Option.map_some]

theorem SpellsDate.opens {form : List Char} (spells : SpellsDate form) :
    ∃ c tail, form = c :: tail ∧ c ∈ numberMarks := by
  have field {count low high number : Nat} {digits : List Char}
      (field : Field (count + 1) low high digits number) (rest : List Char) :
      ∃ c tail, digits ++ rest = c :: tail ∧ c ∈ numberMarks := by
    obtain ⟨c, tail, rfl⟩ := List.exists_cons_of_length_eq_add_one field.length
    exact ⟨c, tail ++ rest, rfl,
      mem_numberMarks_of_digit (Writes.isDigit field.writes c List.mem_cons_self)⟩
  cases spells with
  | day spells =>
      cases spells with
      | intro years => exact field years _
  | time spells =>
      cases spells with
      | intro hours => exact field hours _
  | both spellsDay =>
      cases spellsDay with
      | intro years =>
          rw [List.append_assoc]
          exact field years _

end RobotConsole.Toml
