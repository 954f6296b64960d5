import RobotConsole.Proofs.PlainSpelling
import RobotConsole.Proofs.TomlTexts
import RobotConsole.Toml.Document

/-!
# How whole numbers are written in TOML

A whole number may have a sign and is written in decimal digits, of which the first is no zero
unless it stands alone, or without a sign in the digits of another radix behind its mark; single
underscores may stand between digits.  Each of these forms is read as the number that it spells,
in front of anything that ends a value; a number beyond 64 bits is refused.
-/

set_option autoImplicit false

namespace RobotConsole.Toml

/-! ## Forms -/

/-- Digits with single underscores between some of them, and the digits alone. -/
inductive Grouped : List Char → List Char → Prop
  | single (c : Char) : Grouped [c] [c]
  | next {c : Char} {form digits : List Char} (more : Grouped form digits) :
      Grouped (c :: form) (c :: digits)
  | apart {c : Char} {form digits : List Char} (more : Grouped form digits) :
      Grouped (c :: '_' :: form) (c :: digits)

inductive Signs : List Char → Bool → Prop
  | none : Signs [] false
  | plus : Signs ['+'] false
  | minus : Signs ['-'] true

inductive SpellsWhole : List Char → Int → Prop
  | decimal {sign form : List Char} {negative : Bool} {number : Nat} (signs : Signs sign negative)
      (grouped : Grouped form (Nat.toDigits 10 number)) :
      SpellsWhole (sign ++ form) (if negative then -number else number)
  | hexadecimal {form digits : List Char} {number : Nat} (grouped : Grouped form digits)
      (numeral : Numeral 16 digits number) : SpellsWhole ('0' :: 'x' :: form) number
  | octal {form digits : List Char} {number : Nat} (grouped : Grouped form digits)
      (numeral : Numeral 8 digits number) : SpellsWhole ('0' :: 'o' :: form) number
  | binary {form digits : List Char} {number : Nat} (grouped : Grouped form digits)
      (numeral : Numeral 2 digits number) : SpellsWhole ('0' :: 'b' :: form) number

/-! ## Readers that may refuse -/

/-- A reader comes to what is expected; unless this is certain, it may refuse instead. -/
def Settles {α : Type} (certain : Prop) (result expected : Option α) : Prop :=
  result = expected ∨ result = none ∧ ¬ certain

namespace Settles

variable {α β : Type} {certain : Prop} {result expected : Option α}

theorem of_eq (same : result = expected) : Settles certain result expected :=
  Or.inl same

theorem refused (unsure : ¬ certain) : Settles certain none expected :=
  Or.inr ⟨rfl, unsure⟩

theorem map (settles : Settles certain result expected) (change : α → β) :
    Settles certain (result.map change) (expected.map change) := by
  rcases settles with rfl | ⟨rfl, unsure⟩
  · exact of_eq rfl
  · exact refused unsure

theorem trans {final : Option α} (settles : Settles certain result expected)
    (further : Settles certain expected final) : Settles certain result final := by
  rcases settles with rfl | ⟨rfl, unsure⟩
  · exact further
  · exact refused unsure

end Settles

/-! ## Ends of values -/

def AreGaps (gaps : List Char) : Prop :=
  ∀ c ∈ gaps, Gap c

instance (gaps : List Char) : Decidable (AreGaps gaps) :=
  List.decidableBAll Gap gaps

theorem areGaps_nil : AreGaps [] :=
  List.forall_mem_nil _

theorem areGaps_singleton {c : Char} (gap : Gap c) : AreGaps [c] := by
  intro _ member
  rwa [List.mem_singleton.mp member]

def endMarks : List Char :=
  ['#', '\n', '\r', ',', ']', '\x7d']

/-- What may come behind a value: after gaps a comment, a line break, a mark, or nothing. -/
def EndsValue (rest : List Char) : Prop :=
  ∃ gaps left, AreGaps gaps ∧ rest = gaps ++ left ∧ ∀ c, left.head? = some c → c ∈ endMarks

def outerMarks : List Char :=
  ' ' :: '\t' :: endMarks

theorem EndsValue.head {rest : List Char} (ends : EndsValue rest) {c : Char}
    (head : rest.head? = some c) : c ∈ outerMarks := by
  obtain ⟨gaps, left, areGaps, rfl, marks⟩ := ends
  cases gaps with
  | nil => exact List.mem_cons_of_mem _ (List.mem_cons_of_mem _ (marks c head))
  | cons gap gaps =>
      obtain rfl : gap = c := Option.some.inj head
      rcases areGaps gap List.mem_cons_self with rfl | rfl <;> decide

theorem EndsValue.head_ne {rest : List Char} (ends : EndsValue rest) {c : Char}
    (inside : c ∉ outerMarks) : rest.head? ≠ some c :=
  fun head => inside (ends.head head)

theorem EndsValue.gaps {gaps rest : List Char} (areGaps : AreGaps gaps) (ends : EndsValue rest) :
    EndsValue (gaps ++ rest) := by
  obtain ⟨more, left, areMore, rfl, marks⟩ := ends
  exact ⟨gaps ++ more, left, List.forall_mem_append.mpr ⟨areGaps, areMore⟩,
    (List.append_assoc _ _ _).symm, marks⟩

theorem endsValue_of_mark {c : Char} (mark : c ∈ endMarks) (rest : List Char) :
    EndsValue (c :: rest) := by
  refine ⟨[], c :: rest, List.forall_mem_nil _, rfl, ?_⟩
  rintro d ⟨⟩
  exact mark

theorem endsValue_nil : EndsValue [] :=
  ⟨[], [], List.forall_mem_nil _, rfl, nofun⟩

theorem eq_false_of_mark {isSuch : Char → Bool} (noMark : outerMarks.any isSuch = false) {c : Char}
    (mark : c ∈ outerMarks) : isSuch c = false :=
  Bool.eq_false_iff.mpr (List.any_eq_false.mp noMark c mark)

/-! ## Digits -/

theorem Grouped.opens {form digits : List Char} (grouped : Grouped form digits) :
    ∃ c formRest digitsRest, form = c :: formRest ∧ digits = c :: digitsRest := by
  cases grouped with
  | single c => exact ⟨_, _, _, rfl, rfl⟩
  | next more => exact ⟨_, _, _, rfl, rfl⟩
  | apart more => exact ⟨_, _, _, rfl, rfl⟩

section Digits

variable {isDigit : Char → Bool}

def Stops (isDigit : Char → Bool) (rest : List Char) : Prop :=
  ∀ c, rest.head? = some c → isDigit c = false ∧ c ≠ '_'

theorem moreDigits_of_stop {rest : List Char} (stops : Stops isDigit rest) :
    moreDigits isDigit rest = some ([], rest) := by
  cases rest with
  | nil => rfl
  | cons c rest =>
      obtain ⟨other, notLine⟩ := stops c rfl
      rw [moreDigits.eq_3]
      · simp [other, notLine]
      · rintro d others rfl
        exact absurd rfl notLine

theorem moreDigits_of_digit {c : Char} (digit : isDigit c = true) (notLine : c ≠ '_')
    (rest : List Char) : moreDigits isDigit (c :: rest) = readDigits isDigit (c :: rest) := by
  rw [moreDigits.eq_3]
  · simp [digit, readDigits]
  · rintro d others rfl
    exact absurd rfl notLine

theorem readDigits_of_digit {c : Char} (digit : isDigit c = true) (rest : List Char) :
    readDigits isDigit (c :: rest) =
      (moreDigits isDigit rest).map fun (digits, rest) => (c :: digits, rest) := by
  simp [readDigits, digit]

/-- Grouped digits are read in front of anything that does not go on with them. -/
theorem Grouped.read {form digits : List Char} (grouped : Grouped form digits)
    (allDigits : ∀ c ∈ digits, isDigit c = true) (noLine : isDigit '_' = false) {rest : List Char}
    (stops : Stops isDigit rest) :
    readDigits isDigit (form ++ rest) = some (digits, rest) := by
  induction grouped with
  | single c =>
      rw [List.singleton_append, readDigits_of_digit (allDigits c List.mem_cons_self),
        moreDigits_of_stop stops]
      rfl
  | @next c form digits more ih =>
      obtain ⟨digit, others⟩ := List.forall_mem_cons.mp allDigits
      obtain ⟨d, formRest, digitsRest, rfl, rfl⟩ := more.opens
      have second := others d List.mem_cons_self
      have notLine : d ≠ '_' := by
        rintro rfl
        exact absurd second (by simp [noLine])
      have rest := ih others
      rw [List.cons_append] at rest ⊢
      rw [readDigits_of_digit digit, List.cons_append, moreDigits_of_digit second notLine, rest]
      rfl
  | @apart c form digits more ih =>
      obtain ⟨digit, others⟩ := List.forall_mem_cons.mp allDigits
      obtain ⟨d, formRest, digitsRest, rfl, rfl⟩ := more.opens
      have second := others d List.mem_cons_self
      have skipped : moreDigits isDigit ('_' :: d :: (formRest ++ rest)) =
          readDigits isDigit (d :: (formRest ++ rest)) := by
        simp [moreDigits, readDigits, second]
      have rest := ih others
      rw [List.cons_append] at rest ⊢
      rw [readDigits_of_digit digit, List.cons_append, List.cons_append, skipped, rest]
      rfl

end Digits

theorem EndsValue.stops {rest : List Char} (ends : EndsValue rest) {isDigit : Char → Bool}
    (noMark : outerMarks.any isDigit = false) : Stops isDigit rest := by
  intro c head
  refine ⟨eq_false_of_mark noMark (ends.head head), ?_⟩
  rintro rfl
  exact ends.head_ne (by decide) head

/-! ## Dates begin otherwise -/

theorem readFixed_eq_some {count : Nat} {cs left : List Char} {number : Nat}
    (read : readFixed count cs = some (number, left)) :
    ∃ digits, digits.length = count ∧ (∀ c ∈ digits, c.isDigit = true) ∧ cs = digits ++ left := by
  unfold readFixed at read
  dsimp only at read
  split at read
  · rename_i fits
    obtain ⟨-, rfl⟩ := Prod.mk.inj (Option.some.inj read)
    exact ⟨cs.take count, fits.1, List.all_eq_true.mp fits.2,
      (List.take_append_drop count cs).symm⟩
  · cases read

def Dateless (cs : List Char) : Prop :=
  ∀ c, (cs.dropWhile Char.isDigit).head? = some c → c ≠ '-' ∧ c ≠ ':'

theorem Dateless.readFixed_ne {cs : List Char} (dateless : Dateless cs) (count : Nat) (number : Nat)
    {c : Char} (mark : c = '-' ∨ c = ':') (left : List Char) :
    readFixed count cs ≠ some (number, c :: left) := by
  intro read
  obtain ⟨digits, -, allDigits, rfl⟩ := readFixed_eq_some read
  have notDigit : c.isDigit = false := by rcases mark with rfl | rfl <;> decide
  have behind : (digits ++ c :: left).dropWhile Char.isDigit = c :: left := by
    rw [List.dropWhile_append_of_pos allDigits]
    simp [notDigit]
  have other := dateless c (by rw [behind]; rfl)
  rcases mark with rfl | rfl
  · exact other.1 rfl
  · exact other.2 rfl

theorem readNumberOrDate_of_dateless {cs : List Char}
    (noYear : ∀ year left, readFixed 4 cs ≠ some (year, '-' :: left))
    (noHour : ∀ hour left, readFixed 2 cs ≠ some (hour, ':' :: left)) :
    readNumberOrDate cs = readNumber cs := by
  have hourless : readHour? cs = none := by
    unfold readHour? readTwo
    cases read : readFixed 2 cs with
    | none => rfl
    | some found =>
        obtain ⟨hour, left⟩ := found
        dsimp only
        split
        · rename_i again
          split at again
          · obtain ⟨-, rfl⟩ := Prod.mk.inj (Option.some.inj again)
            exact absurd read (noHour hour _)
          · cases again
        · rfl
  unfold readNumberOrDate
  split
  · rename_i year left read
    exact absurd read (noYear year left)
  · rw [hourless]

theorem Dateless.readNumberOrDate_eq {cs : List Char} (dateless : Dateless cs) :
    readNumberOrDate cs = readNumber cs :=
  readNumberOrDate_of_dateless (fun year left => dateless.readFixed_ne 4 year (Or.inl rfl) left)
    fun hour left => dateless.readFixed_ne 2 hour (Or.inr rfl) left

/-- No date begins with a sign. -/
theorem readNumberOrDate_sign {c : Char} (notDigit : c.isDigit = false) (cs : List Char) :
    readNumberOrDate (c :: cs) = readNumber (c :: cs) := by
  have unfixed (count number : Nat) (left : List Char) :
      readFixed (count + 1) (c :: cs) ≠ some (number, left) := by
    intro read
    obtain ⟨digits, length, allDigits, split⟩ := readFixed_eq_some read
    cases digits with
    | nil => cases length
    | cons d digits =>
        obtain rfl : c = d := (List.cons.inj split).1
        exact absurd (allDigits c List.mem_cons_self) (by simp [notDigit])
  exact readNumberOrDate_of_dateless (fun year left => unfixed 3 year _)
    fun hour left => unfixed 1 hour _

theorem dateless_cons {c : Char} (digit : c.isDigit = true) {cs : List Char}
    (dateless : Dateless cs) : Dateless (c :: cs) := by
  rw [Dateless, List.dropWhile_cons_of_pos digit]
  exact dateless

theorem dateless_of_other {c : Char} (notDigit : c.isDigit = false) (other : c ≠ '-' ∧ c ≠ ':')
    (cs : List Char) : Dateless (c :: cs) := by
  intro d head
  rw [List.dropWhile_cons_of_neg (by simp [notDigit])] at head
  obtain rfl : c = d := Option.some.inj head
  exact other

theorem dateless_mark (c : Char) (notDigit : c.isDigit = false) (other : c ≠ '-' ∧ c ≠ ':')
    (cs : List Char) : Dateless ('0' :: c :: cs) :=
  dateless_cons rfl (dateless_of_other notDigit other cs)

theorem Grouped.dateless {form digits : List Char} (grouped : Grouped form digits)
    (allDigits : ∀ c ∈ digits, c.isDigit = true) {rest : List Char} (dateless : Dateless rest) :
    Dateless (form ++ rest) := by
  induction grouped with
  | single c => exact dateless_cons (allDigits c List.mem_cons_self) dateless
  | next more ih =>
      obtain ⟨digit, others⟩ := List.forall_mem_cons.mp allDigits
      exact dateless_cons digit (ih others)
  | apart more ih =>
      obtain ⟨digit, others⟩ := List.forall_mem_cons.mp allDigits
      exact dateless_cons digit (dateless_of_other rfl (by decide) _)

/-! ## Decimal digits -/

def digitMarks : List Char :=
  "0123456789_-:xob".toList

/-- What may come behind the decimal digits of a number. -/
def EndsDigits (rest : List Char) : Prop :=
  ∀ c, rest.head? = some c → c ∉ digitMarks

theorem EndsValue.endsDigits {rest : List Char} (ends : EndsValue rest) : EndsDigits rest := by
  have apart : ∀ c ∈ outerMarks, c ∉ digitMarks := List.all_iff_forall_prop.mp (by decide)
  exact fun c head => apart c (ends.head head)

theorem not_digit_of_not_mark {c : Char} (inside : c ∉ digitMarks) : c.isDigit = false := by
  rw [Bool.eq_false_iff]
  intro digit
  apply inside
  have single := Text.natDigits_digitValue digit
  have small := Text.digitValue_lt digit
  have marks : ∀ value < 10, (Text.natDigits value).all (· ∈ digitMarks) := by decide
  have areMarks := List.all_iff_forall_prop.mp (marks _ small)
  exact areMarks c (by rw [single]; exact List.mem_singleton_self c)

theorem toDigits_isDigit (number : Nat) : ∀ c ∈ Nat.toDigits 10 number, c.isDigit = true :=
  fun _ => Text.isDigit_of_mem_natDigits

section Decimal

variable {rest : List Char}

theorem EndsDigits.stops (ends : EndsDigits rest) : Stops Char.isDigit rest := by
  intro c head
  refine ⟨not_digit_of_not_mark (ends c head), ?_⟩
  rintro rfl
  exact ends _ head (by decide)

theorem EndsDigits.dateless (ends : EndsDigits rest) : Dateless rest := by
  cases rest with
  | nil =>
      intro c head
      cases head
  | cons d rest =>
      have other := ends d rfl
      apply dateless_of_other (not_digit_of_not_mark other)
      constructor
      · rintro rfl
        exact other (by decide)
      · rintro rfl
        exact other (by decide)

variable {form : List Char} {number : Nat} (grouped : Grouped form (Nat.toDigits 10 number))
include grouped

theorem Grouped.decimal_cases :
    form = ['0'] ∧ number = 0 ∨
      ∃ c tail, form = c :: tail ∧ c.isDigit = true ∧ c ≠ '0' := by
  obtain ⟨c, formRest, digitsRest, rfl, written⟩ := grouped.opens
  rcases Nat.eq_zero_or_pos number with rfl | positive
  · left
    rw [Nat.toDigits_zero] at grouped
    refine ⟨?_, rfl⟩
    cases grouped with
    | single c => rfl
    | next more => obtain ⟨_, _, _, _, impossible⟩ := more.opens; cases impossible
    | apart more => obtain ⟨_, _, _, _, impossible⟩ := more.opens; cases impossible
  · right
    have bare := Text.natDigits_head_ne_zero positive
    refine ⟨c, formRest, rfl, toDigits_isDigit number c (written ▸ List.mem_cons_self), ?_⟩
    rintro rfl
    exact bare (by rw [Text.natDigits, written]; rfl)

theorem Grouped.readDecimal_eq (negative : Bool) (ends : EndsDigits rest) :
    readDecimal negative (form ++ rest) =
      readAfterDigits negative (Nat.toDigits 10 number) rest := by
  have read := grouped.read (toDigits_isDigit number) rfl ends.stops
  rcases grouped.decimal_cases with ⟨rfl, rfl⟩ | ⟨c, tail, rfl, digit, notZero⟩
  · rfl
  · have other (d : Char) (notDigit : d.isDigit = false) : c ≠ d := by
      rintro rfl
      exact absurd digit (by simp [notDigit])
    rw [List.cons_append] at read ⊢
    rw [readDecimal.eq_4, read]
    · exact fun left same => other 'i' rfl (List.cons.inj same).1
    · exact fun left same => other 'n' rfl (List.cons.inj same).1
    · exact fun left same => notZero (List.cons.inj same).1

theorem Grouped.readNumber_eq (ends : EndsDigits rest) :
    readNumber (form ++ rest) = readDecimal false (form ++ rest) := by
  rcases grouped.decimal_cases with ⟨rfl, -⟩ | ⟨c, tail, rfl, digit, notZero⟩
  · have second (c : Char) (mark : c ∈ digitMarks) (left : List Char) :
        '0' :: rest ≠ '0' :: c :: left := by
      intro same
      exact ends c (by rw [(List.cons.inj same).2]; rfl) mark
    rw [List.singleton_append, readNumber.eq_6]
    · exact fun left => nofun
    · exact fun left => nofun
    · exact second 'x' (by decide)
    · exact second 'o' (by decide)
    · exact second 'b' (by decide)
  · have other (d : Char) (notDigit : d.isDigit = false) : c ≠ d := by
      rintro rfl
      exact absurd digit (by simp [notDigit])
    rw [List.cons_append, readNumber.eq_6]
    · exact fun left same => other '+' rfl (List.cons.inj same).1
    · exact fun left same => other '-' rfl (List.cons.inj same).1
    all_goals exact fun left same => notZero (List.cons.inj same).1

/-- The decimal digits of a number are read with their sign, whatever comes behind them. -/
theorem Grouped.readNumberOrDate_eq {sign : List Char} {negative : Bool}
    (signs : Signs sign negative) (ends : EndsDigits rest) :
    readNumberOrDate (sign ++ (form ++ rest)) =
      readAfterDigits negative (Nat.toDigits 10 number) rest := by
  cases signs with
  | none =>
      have dateless := grouped.dateless (toDigits_isDigit number) ends.dateless
      rw [List.nil_append, dateless.readNumberOrDate_eq, grouped.readNumber_eq ends,
        grouped.readDecimal_eq false ends]
  | plus =>
      rw [List.singleton_append, readNumberOrDate_sign rfl]
      exact grouped.readDecimal_eq false ends
  | minus =>
      rw [List.singleton_append, readNumberOrDate_sign rfl]
      exact grouped.readDecimal_eq true ends

end Decimal

/-! ## Whole numbers -/

theorem EndsValue.readAfterDigits_eq {rest : List Char} (ends : EndsValue rest) (negative : Bool)
    (number : Nat) :
    readAfterDigits negative (Nat.toDigits 10 number) rest =
      makeWhole (if negative then -(number : Int) else number) rest := by
  have value : Text.digitsValue (Nat.toDigits 10 number) = number :=
    Text.digitsValue_natDigits number
  cases rest with
  | nil => rw [readAfterDigits, readAfterDigits.makeSigned, value]
  | cons c rest =>
      have other (d : Char) (inside : d ∉ outerMarks) : c ≠ d := by
        rintro rfl
        exact ends.head_ne inside rfl
      have point : c ≠ '.' := other '.' (by decide)
      have small : c ≠ 'e' := other 'e' (by decide)
      have large : c ≠ 'E' := other 'E' (by decide)
      simp only [readAfterDigits, point, small, large, or_self, if_false,
        readAfterDigits.makeSigned, value]

/-- Digits of another radix than ten are read behind its mark. -/
theorem Grouped.readRadix_eq {isDigit : Char → Bool} {form digits : List Char}
    (grouped : Grouped form digits) (allDigits : ∀ c ∈ digits, isDigit c = true)
    (noLine : isDigit '_' = false) (noMark : outerMarks.any isDigit = false) {radix number : Nat}
    (large : 1 < radix) (small : radix ≤ 16) (numeral : Numeral radix digits number)
    {rest : List Char} (ends : EndsValue rest) :
    readRadix radix isDigit (form ++ rest) = makeWhole number rest := by
  simp only [readRadix, grouped.read allDigits noLine (ends.stops noMark),
    numeral.digitsIn_eq large small]

/-- A whole number is read from every form of it; it must be one of 64 bits. -/
theorem SpellsWhole.read {form : List Char} {number : Int} (spells : SpellsWhole form number)
    {rest : List Char} (ends : EndsValue rest) :
    readNumberOrDate (form ++ rest) = makeWhole number rest := by
  cases spells with
  | decimal signs grouped =>
      rw [List.append_assoc, grouped.readNumberOrDate_eq signs ends.endsDigits,
        ends.readAfterDigits_eq]
  | hexadecimal grouped numeral =>
      rw [List.cons_append, List.cons_append,
        (dateless_mark 'x' rfl (by decide) _).readNumberOrDate_eq]
      exact grouped.readRadix_eq numeral.allHex rfl rfl (by decide) (by decide) numeral ends
  | octal grouped numeral =>
      have octal : ∀ digit < 8, isOctalDigit digit.digitChar = true := by decide
      have digits := numeral.all (by decide) (by decide) octal
      rw [List.cons_append, List.cons_append,
        (dateless_mark 'o' rfl (by decide) _).readNumberOrDate_eq]
      exact grouped.readRadix_eq digits rfl rfl (by decide) (by decide) numeral ends
  | binary grouped numeral =>
      have binary : ∀ digit < 2, isBinaryDigit digit.digitChar = true := by decide
      have digits := numeral.all (by decide) (by decide) binary
      rw [List.cons_append, List.cons_append,
        (dateless_mark 'b' rfl (by decide) _).readNumberOrDate_eq]
      exact grouped.readRadix_eq digits rfl rfl (by decide) (by decide) numeral ends

theorem makeWhole_settles {certain : Prop} {number : Int}
    (fits : certain → -9223372036854775808 ≤ number ∧ number ≤ 9223372036854775807)
    (rest : List Char) : Settles certain (makeWhole number rest) (some (.whole number, rest)) := by
  by_cases inside : wholeMin ≤ number ∧ number ≤ wholeMax
  · exact .of_eq (if_pos inside)
  · rw [makeWhole, if_neg inside]
    exact .refused fun sure => inside (fits sure)

def numberMarks : List Char :=
  "+-0123456789".toList

theorem mem_numberMarks_of_digit {c : Char} (digit : c.isDigit = true) : c ∈ numberMarks := by
  have single := Text.natDigits_digitValue digit
  have marks : ∀ value < 10, (Text.natDigits value).all (· ∈ numberMarks) := by decide
  have areMarks := List.all_iff_forall_prop.mp (marks _ (Text.digitValue_lt digit))
  exact areMarks c (by rw [single]; exact List.mem_singleton_self c)

theorem Grouped.opens_sign {sign form : List Char} {negative : Bool} {number : Nat}
    (signs : Signs sign negative) (grouped : Grouped form (Nat.toDigits 10 number)) :
    ∃ c tail, sign ++ form = c :: tail ∧ c ∈ numberMarks := by
  cases signs with
  | none =>
      obtain ⟨c, tail, rest, rfl, written⟩ := grouped.opens
      exact ⟨c, tail, rfl, mem_numberMarks_of_digit
        (toDigits_isDigit number c (written ▸ List.mem_cons_self))⟩
  | plus => exact ⟨'+', form, rfl, by decide⟩
  | minus => exact ⟨'-', form, rfl, by decide⟩

theorem SpellsWhole.opens {form : List Char} {number : Int} (spells : SpellsWhole form number) :
    ∃ c tail, form = c :: tail ∧ c ∈ numberMarks := by
  cases spells with
  | decimal signs grouped => exact grouped.opens_sign signs
  | hexadecimal | octal | binary => exact ⟨_, _, rfl, by decide⟩

end RobotConsole.Toml
