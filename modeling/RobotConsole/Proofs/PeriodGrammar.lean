import RobotConsole.Proofs.PeriodText

/-!
# The grammar of periods

A text falls apart into blanks at its ends, a run of digits, and a rest whose own blanks do not
count.  It is a period if the digits write an amount from 1 to 4294967295 and the rest names a unit,
and each way to miss this has its own fault.  An amount is written by its decimal digits with any
count of zeros in front, so none is taken for another one.
-/

set_option autoImplicit false

namespace RobotConsole

namespace Text

/-! ## What trimming leaves -/

/-- Blanks stand around what is kept, and what is kept neither begins nor ends with one. -/
def TrimsTo (cs kept : List Char) : Prop :=
  (∃ lead trail, cs = lead ++ kept ++ trail ∧ (∀ c ∈ lead, isBlank c = true) ∧ ∀ c ∈ trail,
    isBlank c = true) ∧
    (∀ c, kept.head? = some c → isBlank c = false) ∧ ∀ c, kept.getLast? = some c → isBlank c = false

theorem trimsTo_trimChars (cs : List Char) : TrimsTo cs (trimChars cs) := by
  obtain ⟨trail, split, trailBlank⟩ := exists_dropped isBlank (cs.dropWhile isBlank)
  refine ⟨⟨cs.takeWhile isBlank, trail, ?_, fun c => List.mem_takeWhile_imp, trailBlank⟩, ?_, ?_⟩
  · rw [List.append_assoc, trimChars, ← split, List.takeWhile_append_dropWhile]
  · intro c head
    have front : (cs.dropWhile isBlank).head? = some c := by
      rw [split, List.head?_append, ← trimChars, head, Option.some_or]
    exact not_dropped_of_head? front
  · intro c last
    rw [trimChars, dropEndWhile, List.getLast?_reverse] at last
    exact not_dropped_of_head? last

theorem TrimsTo.trimChars_eq {cs kept : List Char} (trims : TrimsTo cs kept) :
    trimChars cs = kept := by
  obtain ⟨⟨lead, trail, rfl, leadBlank, trailBlank⟩, first, last⟩ := trims
  rw [trimChars_blanks_around lead kept trail leadBlank trailBlank]
  have front : kept.dropWhile isBlank = kept := by
    cases kept with
    | nil => rfl
    | cons c kept => simp [first c rfl]
  rw [trimChars, front, dropEndWhile_eq_rdropWhile, List.rdropWhile_eq_self_iff]
  intro present
  simp [last _ (List.getLast?_eq_some_getLast present)]

/-! ## Decimal digits with zeros in front -/

def Writes (digits : List Char) (number : Nat) : Prop :=
  ∃ zeros, digits = List.replicate zeros '0' ++ natDigits number

theorem digitsValue_concat (digits : List Char) (digit : Char) :
    digitsValue (digits ++ [digit]) = 10 * digitsValue digits + digitValue digit := by
  simp [digitsValue]

theorem Writes.ne_nil {digits : List Char} {number : Nat} (writes : Writes digits number) :
    digits ≠ [] := by
  obtain ⟨zeros, rfl⟩ := writes
  simp [natDigits_ne_nil]

theorem Writes.digitsValue_eq {digits : List Char} {number : Nat} (writes : Writes digits number) :
    digitsValue digits = number := by
  obtain ⟨zeros, rfl⟩ := writes
  change Nat.ofDigitChars 10 _ 0 = number
  rw [Nat.ofDigitChars_append, Nat.ofDigitChars_replicate_zero, Nat.mul_zero]
  exact Nat.ofDigitChars_ten_toDigits

theorem digitValue_lt {digit : Char} (isDigit : digit.isDigit = true) : digitValue digit < 10 := by
  have range := toNat_of_isDigit isDigit
  have zero : '0'.toNat = 48 := rfl
  rw [digitValue, zero]
  omega

theorem natDigits_digitValue {digit : Char} (isDigit : digit.isDigit = true) :
    natDigits (digitValue digit) = [digit] := by
  have range := toNat_of_isDigit isDigit
  have zero : '0'.toNat = 48 := rfl
  have small := digitValue_lt isDigit
  have same : (digitValue digit).digitChar = digit := by
    apply Char.toNat_inj.mp
    rw [Nat.toNat_digitChar_of_lt_ten small, digitValue, zero]
    omega
  rw [natDigits, Nat.toDigits_of_lt_base small, same]

/-- A further digit behind a written number writes ten times the number and the digit. -/
theorem Writes.concat {digits : List Char} {number : Nat} (writes : Writes digits number)
    {digit : Char}
    (isDigit : digit.isDigit = true) :
    Writes (digits ++ [digit]) (10 * number + digitValue digit) := by
  obtain ⟨zeros, rfl⟩ := writes
  have single := natDigits_digitValue isDigit
  rcases Nat.eq_zero_or_pos number with rfl | positive
  · -- the only digit of zero becomes one more zero in front
    refine ⟨zeros + 1, ?_⟩
    rw [Nat.mul_zero, Nat.zero_add, single, List.replicate_succ', natDigits, Nat.toDigits_zero]
  · refine ⟨zeros, ?_⟩
    have next := Nat.toDigits_append_toDigits (b := 10) (by decide) positive (digitValue_lt isDigit)
    rw [List.append_assoc, ← single]
    exact congrArg (List.replicate zeros '0' ++ ·) next

theorem writes_digitsValue {digits : List Char} (allDigits : ∀ c ∈ digits, c.isDigit = true)
    (present : digits ≠ []) :
    Writes digits (digitsValue digits) := by
  induction digits using List.reverseRecOn with
  | nil => exact absurd rfl present
  | append_singleton digits digit ih =>
      have last : digit.isDigit = true := allDigits digit (by simp)
      rw [digitsValue_concat]
      cases digits with
      | nil => exact ⟨0, by simp [digitsValue, natDigits_digitValue last]⟩
      | cons first digits =>
          have front := ih (fun c member => allDigits c (List.mem_append_left _ member))
              (List.cons_ne_nil first digits)
          exact front.concat last

end Text

namespace PeriodUnit

/-! ## Names of units -/

def words : PeriodUnit → List String
  | .days => ["d", "day", "days"]
  | .hours => ["h", "hour", "hours"]
  | .minutes => ["m", "minute", "minutes"]

/-- The word stands for the unit, in letters of either case. -/
def Names (unit : PeriodUnit) (word : List Char) : Prop :=
  ∃ spelling ∈ unit.words, word.map Char.toLower = spelling.toList

theorem spellings_eq_words (unit : PeriodUnit) : unit.spellings = unit.words := by
  cases unit <;> rfl

theorem fold_word (unit : PeriodUnit) :
    ∀ spelling ∈ unit.words, Text.foldLetters spelling = spelling.toList := by
  cases unit <;> decide

theorem eq_of_word (unit other : PeriodUnit) :
    ∀ spelling ∈ unit.words, spelling ∈ other.words → unit = other := by
  cases unit <;> cases other <;> decide

theorem Names.unit_eq {unit other : PeriodUnit} {word : List Char} (names : unit.Names word)
    (again : other.Names word) :
    unit = other := by
  obtain ⟨spelling, among, spelled⟩ := names
  obtain ⟨second, amongOthers, alike⟩ := again
  obtain rfl : spelling = second := String.toList_inj.mp (spelled.symm.trans alike)
  exact eq_of_word unit other spelling among amongOthers

theorem Names.ne_nil {unit : PeriodUnit} {word : List Char} (names : unit.Names word) :
    word ≠ [] := by
  rintro rfl
  revert names
  cases unit <;> simp [Names, words]

theorem any_sameLetters_iff (unit : PeriodUnit) (text : String) :
    (unit.spellings.any fun spelling => Text.sameLetters spelling text) = true ↔
      unit.Names text.toList := by
  simp only [List.any_eq_true, Text.sameLetters_iff, Names, spellings_eq_words]
  constructor
  · rintro ⟨spelling, among, same⟩
    exact ⟨spelling, among, by rw [← fold_word unit spelling among, same, Text.foldLetters]⟩
  · rintro ⟨spelling, among, same⟩
    exact ⟨spelling, among, by rw [fold_word unit spelling among, ← same, Text.foldLetters]⟩

theorem mem_all (unit : PeriodUnit) : unit ∈ all := by
  cases unit <;> decide

theorem read_of_names {text : String} {unit : PeriodUnit}
    (names : unit.Names (Text.trim text).toList) :
    read text = .ok unit := by
  have own := (any_sameLetters_iff unit (Text.trim text)).mpr names
  simp only [read]
  split
  · rename_i first found
    have fits := List.find?_some found
    rw [any_sameLetters_iff] at fits
    rw [names.unit_eq fits]
  · rename_i missing
    exact absurd own (List.find?_eq_none.mp missing unit unit.mem_all)

theorem read_of_nameless {text : String}
    (nameless : ∀ unit : PeriodUnit, ¬ unit.Names (Text.trim text).toList) :
    read text = .error (.unknownUnit (Text.trim text)) := by
  simp only [read]
  split
  · rename_i first found
    have fits := List.find?_some found
    rw [any_sameLetters_iff] at fits
    exact absurd fits (nameless first)
  · rfl

end PeriodUnit

namespace Period

/-! ## Texts of periods -/

/-- Without the blanks at its ends the text is a run of digits and a rest that begins with no digit;
the word is the rest without the blanks at its ends. -/
def Parts (text digits word : List Char) : Prop :=
  ∃ rest, Text.TrimsTo text (digits ++ rest) ∧ (∀ c ∈ digits, c.isDigit = true) ∧
    (∀ c, rest.head? = some c → c.isDigit = false) ∧ Text.TrimsTo rest word

theorem exists_parts (text : List Char) : ∃ digits word, Parts text digits word := by
  refine ⟨(Text.trimChars text).takeWhile Char.isDigit,
    Text.trimChars ((Text.trimChars text).dropWhile Char.isDigit),
    (Text.trimChars text).dropWhile Char.isDigit, ?_, fun c => List.mem_takeWhile_imp,
    fun c => Text.not_dropped_of_head?, Text.trimsTo_trimChars _⟩
  rw [List.takeWhile_append_dropWhile]
  exact Text.trimsTo_trimChars text

theorem Parts.read_eq {text : String} {digits word : List Char}
    (parts : Parts text.toList digits word) :
    ∃ rest, Text.trimChars rest = word ∧
      read text =
        if digits = [] ∨ word = [] then .error (.incomplete text)
        else if Text.digitsValue digits < amountBound then
          (PeriodUnit.read (String.ofList rest)).bind (make (Text.digitsValue digits))
        else .error (.amountTooLarge (String.ofList digits)) := by
  obtain ⟨rest, trims, allDigits, ends, restTrims⟩ := parts
  have stop : rest.takeWhile Char.isDigit = [] ∧ rest.dropWhile Char.isDigit = rest := by
    cases rest with
    | nil => exact ⟨rfl, rfl⟩
    | cons c rest => simp [ends c rfl]
  have front : (digits ++ rest).takeWhile Char.isDigit = digits := by
    rw [List.takeWhile_append_of_pos allDigits, stop.1, List.append_nil]
  have back : (digits ++ rest).dropWhile Char.isDigit = rest := by
    rw [List.dropWhile_append_of_pos allDigits, stop.2]
  refine ⟨rest, restTrims.trimChars_eq, ?_⟩
  simp only [read, trims.trimChars_eq, front, back, restTrims.trimChars_eq]
  cases PeriodUnit.read (String.ofList rest) <;> rfl

/-- The text is written as that many of the unit. -/
def Spells (text : String) (amount : Nat) (unit : PeriodUnit) : Prop :=
  1 ≤ amount ∧ amount ≤ 4294967295 ∧
    ∃ digits word, Parts text.toList digits word ∧ Text.Writes digits amount ∧ unit.Names word

/-- The ways in which a text is no period, each with its fault. -/
inductive Refused (text : String) : PeriodFault → Prop where
  | incomplete {digits word : List Char} (parts : Parts text.toList digits word)
      (lacking : digits = [] ∨ word = []) : Refused text (.incomplete text)
  | amountTooLarge {digits word : List Char} {amount : Nat} (parts : Parts text.toList digits word)
      (writes : Text.Writes digits amount) (present : word ≠ []) (large : 4294967295 < amount) :
      Refused text (.amountTooLarge (String.ofList digits))
  | unknownUnit {digits word : List Char} {amount : Nat} (parts : Parts text.toList digits word)
      (writes : Text.Writes digits amount) (present : word ≠ []) (small : amount ≤ 4294967295)
      (nameless : ∀ unit : PeriodUnit, ¬ unit.Names word) :
        Refused text (.unknownUnit (String.ofList word))
  | zeroAmount {digits word : List Char} {unit : PeriodUnit} (parts : Parts text.toList digits word)
      (writes : Text.Writes digits 0) (names : unit.Names word) : Refused text .zeroAmount

theorem spells_or_refused (text : String) :
    (∃ amount unit, Spells text amount unit) ∨ ∃ cause, Refused text cause := by
  obtain ⟨digits, word, parts⟩ := exists_parts text.toList
  have ⟨_, _, allDigits, _, _⟩ := parts
  by_cases lacking : digits = [] ∨ word = []
  · exact Or.inr ⟨_, .incomplete parts lacking⟩
  · obtain ⟨hasDigits, present⟩ := not_or.mp lacking
    have writes := Text.writes_digitsValue allDigits hasDigits
    rcases Nat.lt_or_ge 4294967295 (Text.digitsValue digits) with large | small
    · exact Or.inr ⟨_, .amountTooLarge parts writes present large⟩
    · by_cases named : ∃ unit : PeriodUnit, unit.Names word
      · obtain ⟨unit, names⟩ := named
        rcases Nat.eq_zero_or_pos (Text.digitsValue digits) with zero | positive
        · exact Or.inr ⟨_, .zeroAmount parts (zero ▸ writes) names⟩
        · exact Or.inl ⟨_, unit, positive, small, digits, word, parts, writes, names⟩
      · exact Or.inr ⟨_, .unknownUnit parts writes present small (not_exists.mp named)⟩

theorem Parts.read_of_names {text : String} {digits word : List Char} {amount : Nat}
    {unit : PeriodUnit}
    (parts : Parts text.toList digits word) (writes : Text.Writes digits amount)
    (small : amount < amountBound)
    (names : unit.Names word) : read text = make amount unit := by
  obtain ⟨rest, trimmed, asRead⟩ := parts.read_eq
  have found : PeriodUnit.read (String.ofList rest) = .ok unit := by
    apply PeriodUnit.read_of_names
    simpa [Text.trim, trimmed] using names
  rw [asRead, if_neg (not_or.mpr ⟨writes.ne_nil, names.ne_nil⟩), writes.digitsValue_eq,
    if_pos small, found]
  rfl

theorem Spells.read_eq {text : String} {amount : Nat} {unit : PeriodUnit}
    (spells : Spells text amount unit) :
    ∃ period, read text = .ok period ∧ period.amount = amount ∧ period.unit = unit := by
  obtain ⟨positive, bounded, digits, word, parts, writes, names⟩ := spells
  have small : amount < amountBound := Nat.lt_succ_of_le bounded
  refine ⟨⟨amount, unit, positive, small⟩, ?_, rfl, rfl⟩
  rw [parts.read_of_names writes small names]
  exact make_self ⟨amount, unit, positive, small⟩

theorem Refused.read_eq {text : String} {cause : PeriodFault} (refused : Refused text cause) :
    read text = .error cause := by
  cases refused with
  | incomplete parts lacking =>
      obtain ⟨rest, -, asRead⟩ := parts.read_eq
      rw [asRead, if_pos lacking]
  | @amountTooLarge digits word amount parts writes present large =>
      obtain ⟨rest, -, asRead⟩ := parts.read_eq
      have outside : ¬ Text.digitsValue digits < amountBound := by
        rw [writes.digitsValue_eq]
        exact Nat.not_lt.mpr large
      rw [asRead, if_neg (not_or.mpr ⟨writes.ne_nil, present⟩), if_neg outside]
  | @unknownUnit digits word amount parts writes present small nameless =>
      obtain ⟨rest, trimmed, asRead⟩ := parts.read_eq
      have within : Text.digitsValue digits < amountBound := by
        rw [writes.digitsValue_eq]
        exact Nat.lt_succ_of_le small
      have kept : Text.trim (String.ofList rest) = String.ofList word := by
        rw [Text.trim, String.toList_ofList, trimmed]
      have missing : PeriodUnit.read (String.ofList rest) =
          .error (.unknownUnit (String.ofList word)) := by
        rw [← kept]
        apply PeriodUnit.read_of_nameless
        simpa [kept] using nameless
      rw [asRead, if_neg (not_or.mpr ⟨writes.ne_nil, present⟩), if_pos within, missing]
      rfl
  | zeroAmount parts writes names =>
      rw [parts.read_of_names writes (by decide) names]
      rfl

theorem spells_of_read {text : String} {period : Period} (done : read text = .ok period) :
    Spells text period.amount period.unit := by
  rcases spells_or_refused text with ⟨amount, unit, spells⟩ | ⟨cause, refused⟩
  · obtain ⟨other, again, rfl, rfl⟩ := spells.read_eq
    obtain rfl := Except.ok.inj (done.symm.trans again)
    exact spells
  · cases done.symm.trans refused.read_eq

theorem refused_of_read {text : String} {cause : PeriodFault} (failed : read text = .error cause) :
    Refused text cause := by
  rcases spells_or_refused text with ⟨amount, unit, spells⟩ | ⟨other, refused⟩
  · obtain ⟨period, done, -, -⟩ := spells.read_eq
    cases failed.symm.trans done
  · obtain rfl := Except.error.inj (failed.symm.trans refused.read_eq)
    exact refused

/-- A text is read as a period of some amount and unit if and only if, without the blanks at its
ends, it is a run of ASCII digits for an amount from 1 to 4294967295, with any count of zeros in
front, and a rest that begins with no digit and, without the blanks at its own ends, spells the unit
in letters of either case.  Every other text is refused, with the fault that fits it and no
other. -/
theorem read_accepts_its_grammar (text : String) :
    (∀ amount unit,
      (∃ period, read text = .ok period ∧ period.amount = amount ∧ period.unit = unit) ↔
        Spells text amount unit) ∧
    ((∃ cause, read text = .error cause) ↔ ∀ amount unit, ¬ Spells text amount unit) ∧
    ∀ cause, read text = .error cause ↔ Refused text cause := by
  refine ⟨?_, ?_, fun cause => ⟨refused_of_read, Refused.read_eq⟩⟩
  · intro amount unit
    refine ⟨?_, Spells.read_eq⟩
    rintro ⟨period, done, rfl, rfl⟩
    exact spells_of_read done
  · constructor
    · rintro ⟨cause, failed⟩ amount unit spells
      obtain ⟨period, done, -, -⟩ := spells.read_eq
      cases failed.symm.trans done
    · intro unspelled
      cases outcome : read text with
      | ok period => exact absurd (spells_of_read outcome) (unspelled period.amount period.unit)
      | error cause => exact ⟨cause, rfl⟩

/-! Blanks of several kinds, zeros in front, letters of both cases, and digits that are not
ASCII. -/

example : (read "\t0090\u00A0mInutes\u3000").toOption.map wire = some "90m" ∧
    read "4294967296d" = .error (.amountTooLarge "4294967296") ∧
      read "٣d" = .error (.incomplete "٣d") := by
  decide +kernel

end Period

end RobotConsole
