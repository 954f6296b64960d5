import RobotConsole.Proofs.PeriodGrammar

/-!
# The plain spelling of a period

A period can be spelled in many ways: zeros and blanks do not count, nor does it matter whether the
unit is a letter or a word, or in which case it is written.  One spelling is plain: it has no
blanks, begins with no zero, and has one small letter besides its digits.  This is the written form,
and no other spelling of the period is plain.  So the written form stands for all spellings: writing
down what has been read changes nothing once it has been done.
-/

set_option autoImplicit false

namespace RobotConsole

namespace Text

theorem digitsValue_zero_cons (digits : List Char) :
    digitsValue ('0' :: digits) = digitsValue digits := rfl

theorem natDigits_head_ne_zero {number : Nat} (positive : 0 < number) :
    (natDigits number).head? ≠ some '0' := by
  intro zero
  obtain ⟨rest, split⟩ := List.head?_eq_some_iff.mp zero
  have value : digitsValue rest = number := by
    rw [← digitsValue_zero_cons, ← split, digitsValue_natDigits]
  have digits : ∀ c ∈ rest, c.isDigit = true := by
    intro c member
    exact isDigit_of_mem_natDigits (split ▸ List.mem_cons_of_mem '0' member)
  have present : rest ≠ [] := by
    rintro rfl
    exact positive.ne value
  -- the digits behind the zero write the same number, and so they hold all its digits once more
  obtain ⟨zeros, written⟩ := writes_digitsValue digits present
  rw [value, split] at written
  have lengths := congrArg List.length written
  rw [List.length_append, List.length_cons] at lengths
  omega

theorem Writes.eq_natDigits {digits : List Char} {number : Nat} (writes : Writes digits number)
    (bare : digits.head? ≠ some '0') : digits = natDigits number := by
  obtain ⟨zeros, rfl⟩ := writes
  cases zeros with
  | zero => rfl
  | succ zeros => exact absurd rfl bare

theorem toLower_of_isDigit {c : Char} (digit : c.isDigit = true) : c.toLower = c := by
  have range := toNat_of_isDigit digit
  have capital : ¬ (c.val ≥ 'A'.val ∧ c.val ≤ 'Z'.val) := by
    rintro ⟨least, -⟩
    have least : 65 ≤ c.toNat := UInt32.le_iff_toNat_le.mp least
    omega
  exact dif_neg capital

theorem toLower_of_isLower {c : Char} (small : c.isLower = true) : c.toLower = c := by
  have capital : ¬ (c.val ≥ 'A'.val ∧ c.val ≤ 'Z'.val) := by
    rintro ⟨-, most⟩
    have most : c.toNat ≤ 90 := UInt32.le_iff_toNat_le.mp most
    have range : (decide ('a'.val ≤ c.val) && decide (c.val ≤ 'z'.val)) = true := small
    rw [Bool.and_eq_true, decide_eq_true_eq] at range
    have least : 97 ≤ c.toNat := UInt32.le_iff_toNat_le.mp range.1
    omega
  exact dif_neg capital

end Text

namespace PeriodUnit

theorem letter_isLower (unit : PeriodUnit) : unit.letter.isLower = true := by
  cases unit <;> rfl

theorem spelling_not_digit (unit : PeriodUnit) :
    ∀ spelling ∈ unit.words, ∀ c ∈ spelling.toList, c.isDigit = false := by
  have noDigits : unit.words.all (fun spelling => spelling.toList.all fun c => !c.isDigit) =
      true := by
    cases unit <;> decide
  simpa using noDigits

/-- The only spelling of a unit that is a single letter. -/
theorem spelling_single (unit : PeriodUnit) :
    ∀ spelling ∈ unit.words, spelling.toList.length = 1 → spelling.toList = [unit.letter] := by
  cases unit <;> decide

theorem Names.not_digit {unit : PeriodUnit} {word : List Char} (names : unit.Names word) :
    ∀ c ∈ word, c.isDigit = false := by
  obtain ⟨spelling, among, spelled⟩ := names
  intro c member
  rw [← Bool.not_eq_true]
  intro digit
  have listed : c ∈ spelling.toList := by
    rw [← spelled, ← Text.toLower_of_isDigit digit]
    exact List.mem_map_of_mem member
  rw [spelling_not_digit unit spelling among c listed] at digit
  exact Bool.false_ne_true digit

theorem Names.eq_letter {unit : PeriodUnit} {letter : Char} (names : unit.Names [letter])
    (small : letter.isLower = true) : letter = unit.letter := by
  obtain ⟨spelling, among, spelled⟩ := names
  have single := spelling_single unit spelling among (by rw [← spelled]; rfl)
  rw [← spelled, List.map_singleton, Text.toLower_of_isLower small] at single
  exact List.singleton_inj.mp single

end PeriodUnit

namespace Period

/-- A text without blanks, without a zero at its head, and with one small letter for all that is no
digit. -/
structure IsPlain (text : String) : Prop where
  solid : ∀ c ∈ text.toList, Text.isBlank c = false
  bare : text.toList.head? ≠ some '0'
  lettered : ∃ letter, letter.isLower = true ∧ (text.toList.filter fun c => !c.isDigit) = [letter]

@[simp]
theorem toList_wire (period : Period) :
    period.wire.toList = Text.natDigits period.amount ++ [period.unit.letter] := by
  rw [wire, String.toList_ofList]

theorem isPlain_wire (period : Period) : IsPlain period.wire where
  solid c member := by
    rw [toList_wire] at member
    exact not_blank_of_mem_written member
  bare := by
    rw [toList_wire, List.head?_append_of_ne_nil _ (Text.natDigits_ne_nil period.amount)]
    exact Text.natDigits_head_ne_zero period.amount_pos
  lettered := by
    refine ⟨period.unit.letter, period.unit.letter_isLower, ?_⟩
    have digits : ((Text.natDigits period.amount).filter fun c => !c.isDigit) = [] := by
      rw [List.filter_eq_nil_iff]
      intro c member
      simp [Text.isDigit_of_mem_natDigits member]
    rw [toList_wire, List.filter_append, digits]
    simp [period.unit.letter_not_digit]

/-- A text without blanks has all its characters in its digits and its word. -/
theorem Parts.append_eq {text digits word : List Char} (parts : Parts text digits word)
    (solid : ∀ c ∈ text, Text.isBlank c = false) : digits ++ word = text := by
  obtain ⟨rest, trims, -, -, restTrims⟩ := parts
  have whole := trims.trimChars_eq
  rw [Text.trimChars_eq_self solid] at whole
  have restSolid : ∀ c ∈ rest, Text.isBlank c = false := by
    intro c member
    exact solid c (whole ▸ List.mem_append_right digits member)
  have same := restTrims.trimChars_eq
  rw [Text.trimChars_eq_self restSolid] at same
  rw [whole, same]

theorem Spells.eq_wire {text : String} {period : Period}
    (spells : Spells text period.amount period.unit)
    (plain : IsPlain text) : text = period.wire := by
  obtain ⟨-, -, digits, word, parts, writes, names⟩ := spells
  have whole := parts.append_eq plain.solid
  obtain ⟨-, -, allDigits, -, -⟩ := parts
  obtain ⟨letter, small, others⟩ := plain.lettered
  have noOther : (digits.filter fun c => !c.isDigit) = [] := by
    rw [List.filter_eq_nil_iff]
    intro c member
    simp [allDigits c member]
  have wordKept : (word.filter fun c => !c.isDigit) = word := by
    rw [List.filter_eq_self]
    intro c member
    simp [names.not_digit c member]
  rw [← whole, List.filter_append, noOther, wordKept, List.nil_append] at others
  rw [others] at names
  have bare := plain.bare
  rw [← whole, List.head?_append_of_ne_nil _ writes.ne_nil] at bare
  apply String.toList_inj.mp
  rw [toList_wire, ← whole, writes.eq_natDigits bare, others, names.eq_letter small]

theorem read_and_plain_iff (period : Period) (text : String) :
    read text = .ok period ∧ IsPlain text ↔ text = period.wire := by
  constructor
  · rintro ⟨done, plain⟩
    exact (spells_of_read done).eq_wire plain
  · rintro rfl
    exact ⟨read_wire period, isPlain_wire period⟩

def rewrite (text : String) : Except PeriodFault String :=
  (read text).map wire

theorem rewrite_of_ok {text : String} {period : Period} (done : read text = .ok period) :
    rewrite text = .ok period.wire := by
  rw [rewrite, done]
  rfl

theorem rewrite_of_error {text : String} {cause : PeriodFault} (failed : read text = .error cause) :
    rewrite text = .error cause := by
  rw [rewrite, failed]
  rfl

theorem wire_inj (one other : Period) : one.wire = other.wire ↔ one = other := by
  constructor
  · intro same
    have again := read_wire one
    rw [same, read_wire other] at again
    exact (Except.ok.inj again).symm
  · exact congrArg wire

/-- The written form of a period is read as this period, and it is the only plain text that is.
Writing down what has been read therefore changes nothing the second time, and no two periods are
written alike. -/
theorem wire_is_the_plain_spelling :
    (∀ period : Period, read period.wire = .ok period) ∧
    (∀ (period : Period) (text : String), read text = .ok period ∧ IsPlain text ↔
      text = period.wire) ∧
    (∀ text, (rewrite text).bind rewrite = rewrite text) ∧
    ∀ one other : Period, one.wire = other.wire ↔ one = other := by
  refine ⟨read_wire, read_and_plain_iff, ?_, wire_inj⟩
  intro text
  cases done : read text with
  | error cause =>
      rw [rewrite_of_error done]
      rfl
  | ok period =>
      rw [rewrite_of_ok done, Except.bind]
      exact rewrite_of_ok (read_wire period)

/-! Zeros, a word, a capital and blanks of two kinds. -/

example : rewrite "\t007\u00A0Days\n" = .ok "7d" := by
  decide +kernel

end Period

end RobotConsole
