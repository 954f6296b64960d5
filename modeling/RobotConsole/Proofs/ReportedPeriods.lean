import RobotConsole.Proofs.PlainSpelling
import RobotConsole.Report

/-!
# The period of a report

A report gives an amount and a unit, which are put together as one text and read as a period.  A
text falls apart where its first digits end.  If the unit begins with no digit, this is where the
two were put together, and the period is the one of that amount and unit.  If the unit begins with
digits, they are taken for further digits of the amount, so that a period may be shown which is not
the one reported.
-/

set_option autoImplicit false

namespace RobotConsole

namespace Text

/-- Trimming keeps what is no blank. -/
theorem mem_trimChars {cs : List Char} {c : Char} (member : c ∈ cs) (solid : isBlank c = false) :
    c ∈ trimChars cs := by
  obtain ⟨⟨lead, trail, split, leadBlank, trailBlank⟩, -, -⟩ := trimsTo_trimChars cs
  have blank : isBlank c ≠ true := by simp [solid]
  rw [split, List.mem_append, List.mem_append] at member
  rcases member with (inLead | inKept) | inTrail
  · exact absurd (leadBlank c inLead) blank
  · exact inKept
  · exact absurd (trailBlank c inTrail) blank

end Text

namespace PeriodUnit

theorem read_congr {one other : String} (same : Text.trim one = Text.trim other) :
    read one = read other := by
  simp only [read, same]

theorem names_of_read {text : String} {unit : PeriodUnit} (done : read text = .ok unit) :
    unit.Names (Text.trim text).toList := by
  by_cases named : ∃ other : PeriodUnit, other.Names (Text.trim text).toList
  · obtain ⟨other, names⟩ := named
    obtain rfl := Except.ok.inj (done.symm.trans (read_of_names names))
    exact names
  · cases done.symm.trans (read_of_nameless (not_exists.mp named))

/-- A unit that can be read begins with no digit. -/
theorem head_not_digit_of_read {text : String} {unit : PeriodUnit} (done : read text = .ok unit) :
    ∀ c, text.toList.head? = some c → c.isDigit = false := by
  intro c head
  rw [← Bool.not_eq_true]
  intro digit
  have kept := Text.mem_trimChars (List.mem_of_head? head) (Text.isBlank_of_isDigit digit)
  have names := names_of_read done
  rw [Text.trim, String.toList_ofList] at names
  rw [names.not_digit c kept] at digit
  exact Bool.false_ne_true digit

end PeriodUnit

namespace Period

def apart? (amount : Nat) (unit : String) : Option Period :=
  ((PeriodUnit.read unit).bind (make amount)).toOption

theorem apart?_of_error {amount : Nat} {unit : String} {cause : PeriodFault}
    (failed : PeriodUnit.read unit = .error cause) : apart? amount unit = none := by
  rw [apart?, failed]
  rfl

theorem apart?_of_ok {amount : Nat} {text : String} {unit : PeriodUnit}
    (done : PeriodUnit.read text = .ok unit) :
    apart? amount text = (make amount unit).toOption := by
  rw [apart?, done]
  rfl

theorem apart?_of_large {amount : Nat} (large : ¬ amount < amountBound) (unit : String) :
    apart? amount unit = none := by
  cases done : PeriodUnit.read unit with
  | error cause => exact apart?_of_error done
  | ok found =>
      have refused : make amount found = .error (.amountTooLarge (Text.natText amount)) := by
        have positive : 0 < amount := Nat.lt_of_lt_of_le (by decide) (Nat.not_lt.mp large)
        rw [make, dif_pos positive, dif_neg large]
      rw [apart?_of_ok done, refused]
      rfl

theorem apart?_eq_some_iff (amount : Nat) (text : String) (period : Period) :
    apart? amount text = some period ↔ PeriodUnit.read text = .ok period.unit ∧
      period.amount = amount := by
  constructor
  · intro found
    cases done : PeriodUnit.read text with
    | error cause =>
        rw [apart?_of_error done] at found
        cases found
    | ok unit =>
        rw [apart?_of_ok done, make] at found
        split_ifs at found <;> cases found
        exact ⟨rfl, rfl⟩
  · rintro ⟨done, rfl⟩
    rw [apart?_of_ok done, make_self]
    rfl

/-- The digits and the rest behind them are the parts of the text that they make up. -/
theorem parts_append {digits rest : List Char} (present : digits ≠ [])
    (allDigits : ∀ c ∈ digits, c.isDigit = true)
    (ends : ∀ c, rest.head? = some c → c.isDigit = false) :
    Parts (digits ++ rest) digits (Text.trimChars rest) := by
  obtain ⟨trail, split, trailBlank⟩ := Text.exists_dropped Text.isBlank rest
  have trimmed : Text.trimChars (Text.dropEndWhile Text.isBlank rest) = Text.trimChars rest := by
    have around := Text.trimChars_blanks_around []
        (Text.dropEndWhile Text.isBlank rest) trail (by simp) trailBlank
    rw [List.nil_append, ← split] at around
    exact around.symm
  refine ⟨Text.dropEndWhile Text.isBlank rest, ⟨⟨[], trail, ?_, by simp, trailBlank⟩, ?_, ?_⟩,
    allDigits, ?_, ?_⟩
  · rw [List.nil_append, List.append_assoc, ← split]
  · intro c head
    rw [List.head?_append_of_ne_nil _ present] at head
    exact Text.isBlank_of_isDigit (allDigits c (List.mem_of_head? head))
  · intro c last
    rw [List.getLast?_append] at last
    cases kept : (Text.dropEndWhile Text.isBlank rest).getLast? with
    | none =>
        rw [kept, Option.none_or] at last
        exact Text.isBlank_of_isDigit (allDigits c (List.mem_of_getLast? last))
    | some final =>
        rw [kept, Option.some_or] at last
        obtain rfl := Option.some.inj last
        rw [Text.dropEndWhile, List.getLast?_reverse] at kept
        exact Text.not_dropped_of_head? kept
  · intro c head
    apply ends c
    rw [split, List.head?_append, head, Option.some_or]
  · rw [← trimmed]
    exact Text.trimsTo_trimChars _

/-- Digits with a rest behind them are read as the period that the two are when they are read
apart. -/
theorem toOption_read_append {digits rest : List Char} (present : digits ≠ [])
    (allDigits : ∀ c ∈ digits, c.isDigit = true)
    (ends : ∀ c, rest.head? = some c → c.isDigit = false) :
    (read (String.ofList (digits ++ rest))).toOption = apart? (Text.digitsValue digits)
      (String.ofList rest) := by
  have parts := parts_append present allDigits ends
  rw [← String.toList_ofList (l := digits ++ rest)] at parts
  obtain ⟨found, trimmed, asRead⟩ := parts.read_eq
  have sameUnit : PeriodUnit.read (String.ofList found) = PeriodUnit.read (String.ofList rest) := by
    apply PeriodUnit.read_congr
    rw [Text.trim, Text.trim, String.toList_ofList, String.toList_ofList, trimmed]
  rw [asRead, sameUnit]
  by_cases wordless : Text.trimChars rest = []
  · have nameless : ∀ unit : PeriodUnit, ¬ unit.Names (Text.trim (String.ofList rest)).toList := by
      intro unit names
      rw [Text.trim, String.toList_ofList, String.toList_ofList] at names
      exact names.ne_nil wordless
    rw [if_pos (Or.inr wordless), apart?_of_error (PeriodUnit.read_of_nameless nameless)]
    rfl
  · rw [if_neg (not_or.mpr ⟨present, wordless⟩)]
    by_cases small : Text.digitsValue digits < amountBound
    · rw [if_pos small, apart?]
    · rw [if_neg small, apart?_of_large small]
      rfl

end Period

namespace Report.Periodical

open Period (apart?)

/-- The written form of a period, or a text instead of it if there is no period. -/
def shownAs (period : Option Period) (text : String) : String :=
  (period.map Period.wire).getD text

variable {report : Periodical} {amount : Nat} {unit : String}

theorem periodText?_eq (amounts : report.periodAmount = some amount)
    (units : report.periodUnit = some unit) :
    report.periodText? =
      some (shownAs (Period.read (Text.natText amount ++ unit)).toOption
        (Text.natText amount ++ unit)) := by
  simp only [periodText?, amounts, units]
  cases Period.read (Text.natText amount ++ unit) <;> rfl

/-- The first digits of the unit count as digits of the amount. -/
theorem toOption_read_glued (amount : Nat) {more rest : List Char}
    (moreDigits : ∀ c ∈ more, c.isDigit = true)
    (ends : ∀ c, rest.head? = some c → c.isDigit = false) :
    (Period.read (Text.natText amount ++ String.ofList (more ++ rest))).toOption =
      apart? (Text.digitsValue (Text.natDigits amount ++ more)) (String.ofList rest) := by
  have whole : Text.natText amount ++ String.ofList (more ++ rest) =
      String.ofList ((Text.natDigits amount ++ more) ++ rest) := by
    apply String.toList_inj.mp
    simp [Text.natText]
  have allDigits : ∀ c ∈ Text.natDigits amount ++ more, c.isDigit = true := by
    intro c member
    rcases List.mem_append.mp member with own | added
    · exact Text.isDigit_of_mem_natDigits own
    · exact moreDigits c added
  have present : Text.natDigits amount ++ more ≠ [] := by
    simp [Text.natDigits_ne_nil]
  rw [whole, Period.toOption_read_append present allDigits ends]

theorem toOption_read_bare (amount : Nat)
    (ends : ∀ c, unit.toList.head? = some c → c.isDigit = false) :
    (Period.read (Text.natText amount ++ unit)).toOption = apart? amount unit := by
  have noDigits : ∀ c ∈ ([] : List Char), c.isDigit = true := by simp
  have glued := toOption_read_glued amount noDigits ends
  rwa [List.nil_append, List.append_nil, String.ofList_toList, Text.digitsValue_natDigits] at glued

theorem periodText?_absent (absent : report.periodAmount = none ∨ report.periodUnit = none) :
    report.periodText? = none := by
  rcases absent with missing | missing
  · simp only [periodText?, missing]
  · cases amounts : report.periodAmount <;> simp only [periodText?, amounts, missing]

/-- No period is shown without an amount or without a unit.  An amount and a unit that are a period
when they are read apart are shown as this period.  If they are none, and the unit begins with no
digit, they are shown as they are, and in any case the amount of such a unit stays what it is.  But
digits at the head of the unit count as digits of the amount: what is shown then is the period of
the longer amount and the rest of the unit, if these are one. -/
theorem period_is_shown_as_read (report : Periodical) :
    ((report.periodAmount = none ∨ report.periodUnit = none) → report.periodText? = none) ∧
    ∀ amount unit, report.periodAmount = some amount → report.periodUnit = some unit →
      (∀ period, apart? amount unit = some period → report.periodText? = some period.wire) ∧
      ((∀ c, unit.toList.head? = some c → c.isDigit = false) →
        (apart? amount unit = none → report.periodText? = some (Text.natText amount ++ unit)) ∧
        ∀ period, Period.read (Text.natText amount ++ unit) = .ok period → period.amount = amount) ∧
      ∀ more rest, (∀ c ∈ more, c.isDigit = true) → (∀ c, rest.head? = some c → c.isDigit = false) →
        unit = String.ofList (more ++ rest) →
        report.periodText? =
          some (shownAs (apart? (Text.digitsValue (Text.natDigits amount ++ more))
            (String.ofList rest))
            (Text.natText amount ++ unit)) := by
  refine ⟨periodText?_absent, ?_⟩
  intro amount unit amounts units
  have shown := periodText?_eq amounts units
  refine ⟨?_, ?_, ?_⟩
  · intro period found
    obtain ⟨readable, -⟩ := (Period.apart?_eq_some_iff amount unit period).mp found
    rw [shown, toOption_read_bare amount (PeriodUnit.head_not_digit_of_read readable), found]
    rfl
  · intro ends
    have bare := toOption_read_bare amount ends
    refine ⟨?_, ?_⟩
    · intro apart
      rw [shown, bare, apart]
      rfl
    · intro period done
      rw [done] at bare
      exact ((Period.apart?_eq_some_iff amount unit period).mp bare.symm).2
  · intro more rest moreDigits ends split
    rw [shown, split, toOption_read_glued amount moreDigits ends]

/-! Reports of two somethings. -/

def ofTwo (unit : String) : Periodical :=
  { Periodical.schema.default with periodAmount := some 2, periodUnit := some unit }

theorem period_is_shown_as_read_two :
    Periodical.schema.default.periodText? = none ∧
    (ofTwo " Days").periodText? = some "2d" ∧
    (ofTwo "weeks").periodText? = some "2weeks" ∧
    (ofTwo "0days").periodText? = some "20d" := by
  obtain ⟨absent, -⟩ := period_is_shown_as_read Periodical.schema.default
  obtain ⟨-, days⟩ := period_is_shown_as_read (ofTwo " Days")
  obtain ⟨-, weeks⟩ := period_is_shown_as_read (ofTwo "weeks")
  obtain ⟨-, tens⟩ := period_is_shown_as_read (ofTwo "0days")
  refine ⟨absent (Or.inl rfl), ?_, ?_, ?_⟩
  · exact (days 2 " Days" rfl rfl).1 ⟨2, .days, by decide, by decide⟩ (by decide +kernel)
  · have ends : ∀ c, "weeks".toList.head? = some c → c.isDigit = false := by
      rintro c ⟨⟩
      rfl
    exact ((weeks 2 "weeks" rfl rfl).2.1 ends).1 (by decide +kernel)
  · have ends : ∀ c, ['d', 'a', 'y', 's'].head? = some c → c.isDigit = false := by
      rintro c ⟨⟩
      rfl
    have glued := (tens 2 "0days" rfl rfl).2.2 ['0'] ['d', 'a', 'y', 's']
        (by simp) ends (by decide +kernel)
    have twenty : shownAs (apart? (Text.digitsValue (Text.natDigits 2 ++ ['0']))
        (String.ofList ['d', 'a', 'y', 's'])) (Text.natText 2 ++ "0days") = "20d" := by
      decide +kernel
    rw [glued, twenty]

/-- An amount and a unit are not always shown as their period, or else as they are: two somethings
are shown as twenty days. -/
theorem digits_of_unit_change_amount :
    ¬ ∀ (report : Periodical) (amount : Nat) (unit : String),
      amount < amountBound → report.periodAmount = some amount → report.periodUnit = some unit →
      report.periodText? = some (shownAs (apart? amount unit) (Text.natText amount ++ unit)) := by
  intro unchanged
  have shown := unchanged (ofTwo "0days") 2 "0days" (by decide) rfl rfl
  have twenty : (ofTwo "0days").periodText? = some "20d" := by decide +kernel
  have asGiven : shownAs (apart? 2 "0days") (Text.natText 2 ++ "0days") =
      "20days" := by decide +kernel
  rw [twenty, asGiven] at shown
  exact absurd (Option.some.inj shown) (by decide)

end Report.Periodical

end RobotConsole
