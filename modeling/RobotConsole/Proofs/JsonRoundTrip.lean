import Mathlib.Data.List.Basic
import RobotConsole.Json.Printer
import RobotConsole.Json.Reader
import RobotConsole.Proofs.PlainSpelling
import RobotConsole.Proofs.QuotedLists

/-!
# Written JSON is read back

A text is read back from its quoted form, whatever controls, quotes and backslashes it holds, and a
whole number of 64 bits from its digits.  A printed value begins with no space and ends where a
number ends, so the reader finds the value, and behind it what was behind it.  What it keeps of the
value differs only in the order of members: those of an object are kept in the order of their keys.
-/

set_option autoImplicit false

namespace RobotConsole.Json

/-! ## Strings -/

theorem utf8Length_cons (c : Char) (cs : List Char) :
    utf8Length (c :: cs) = c.utf8Size + utf8Length cs := by
  have shift : ∀ (cs : List Char) (start : Nat),
      cs.foldl (fun length c => length + c.utf8Size) start = start + utf8Length cs := by
    intro cs
    induction cs with
    | nil => exact fun start => rfl
    | cons c cs ih =>
        intro start
        rw [utf8Length, List.foldl_cons, List.foldl_cons, ih, ih (0 + _)]
        omega
  rw [utf8Length, List.foldl_cons, shift]
  omega

theorem length_le_utf8Length (cs : List Char) : cs.length ≤ utf8Length cs := by
  induction cs with
  | nil => exact Nat.zero_le _
  | cons c cs ih =>
      have := c.utf8Size_pos
      rw [utf8Length_cons, List.length_cons]
      omega

/-- A control is read back from its number. -/
theorem readNumberedChar_control (c : Char) (control : c.toNat < 0x20) (rest : List Char) :
    readNumberedChar ('0' :: '0' :: Nat.digitChar (c.toNat / 16) :: Nat.digitChar (c.toNat % 16) ::
      rest) =
      .ok (c, rest) := by
  have long := length_le_utf8Length
    ('0' :: '0' :: Nat.digitChar (c.toNat / 16) :: Nat.digitChar (c.toNat % 16) :: rest)
  simp only [List.length_cons] at long
  obtain ⟨firstIsDigit, first⟩ := Text.digitChar_reads_back (c.toNat / 16) (by omega)
  obtain ⟨lastIsDigit, last⟩ := Text.digitChar_reads_back (c.toNat % 16) (by omega)
  have allDigits : ['0', '0', Nat.digitChar (c.toNat / 16), Nat.digitChar (c.toNat % 16)].all
      Text.isHexDigit = true := by
    simp only [List.all_cons, firstIsDigit, lastIsDigit]
    rfl
  have value : Text.hexDigitsValue
      ['0', '0', Nat.digitChar (c.toNat / 16), Nat.digitChar (c.toNat % 16)] = c.toNat := by
    have zero : Text.hexValue '0' = 0 := rfl
    simp only [Text.hexDigitsValue, List.foldl_cons, List.foldl_nil, first, last, zero]
    omega
  have digits : readFourDigits
      ('0' :: '0' :: Nat.digitChar (c.toNat / 16) :: Nat.digitChar (c.toNat % 16) :: rest) =
        .ok (c.toNat, rest) := by
    rw [readFourDigits, if_neg (by omega)]
    simp only [List.take_succ_cons, List.take_zero, List.drop_succ_cons, List.drop_zero, allDigits,
      value, if_true]
  have high : ¬ (0xDC00 ≤ c.toNat ∧ c.toNat ≤ 0xDFFF) := by omega
  have plain : c.toNat < 0xD800 ∨ 0xDBFF < c.toNat := by omega
  simp only [readNumberedChar, digits, if_neg high, if_pos plain, Char.ofNat_toNat]

/-- An escaped character is read back in front of what is read behind it. -/
theorem readStringChars_escapeChar (c : Char) {fuel : Nat} {rest : List Char}
    {chars left : List Char} (behind : readStringChars fuel rest = .ok (chars, left)) :
    readStringChars (fuel + 1) (escapeChar c ++ rest) = .ok (c :: chars, left) := by
  unfold escapeChar
  split_ifs with quote backslash back feed line return' tab control
  iterate 7
    · subst c
      simp [readStringChars, readEscape, escapedChar?, behind]
  · simp [readStringChars, readEscape, readNumberedChar_control c control, behind]
  · simp [readStringChars, quote, backslash, control, behind]

theorem readStringChars_escaped (chars : List Char) {fuel : Nat} (enough : chars.length < fuel)
    (rest : List Char) :
    readStringChars fuel (chars.flatMap escapeChar ++ '"' :: rest) = .ok (chars, rest) := by
  induction chars generalizing fuel with
  | nil =>
      obtain ⟨fuel, rfl⟩ := Nat.exists_eq_add_of_lt enough
      simp [readStringChars]
  | cons c chars ih =>
      cases fuel with
      | zero => exact absurd enough (Nat.not_lt_zero _)
      | succ fuel =>
          rw [List.flatMap_cons, List.append_assoc]
          exact readStringChars_escapeChar c (ih (Nat.lt_of_succ_lt_succ enough))

theorem length_le_escaped (chars : List Char) :
    chars.length ≤ (chars.flatMap escapeChar).length := by
  induction chars with
  | nil => exact Nat.zero_le _
  | cons c chars ih =>
      have one : 1 ≤ (escapeChar c).length := by
        unfold escapeChar
        split_ifs <;> simp
      rw [List.flatMap_cons, List.length_append, List.length_cons]
      omega

/-- A text is read back behind its opening quote. -/
theorem readString_escaped (text : String) (rest : List Char) :
    readString (text.toList.flatMap escapeChar ++ '"' :: rest) = .ok (text, rest) := by
  have enough : text.toList.length <
      (text.toList.flatMap escapeChar ++ '"' :: rest).length + 1 := by
    have := length_le_escaped text.toList
    rw [List.length_append]
    omega
  rw [readString, readStringChars_escaped _ enough]
  simp only [String.ofList_toList]

/-! ## Numbers -/

def EndsNumber (rest : List Char) : Prop :=
  ∀ c, rest.head? = some c → c.isDigit = false ∧ c ≠ '.' ∧ isExponentLetter c = false

theorem EndsNumber.startsWithDigit_eq {rest : List Char} (ends : EndsNumber rest) :
    startsWithDigit rest = false := by
  cases rest with
  | nil => rfl
  | cons c rest => exact (ends c rfl).1

theorem EndsNumber.readAfterDigits_eq {rest : List Char} (ends : EndsNumber rest) (negative : Bool)
    (significand : Nat) :
    readAfterDigits negative significand rest = .ok (makeInteger negative significand, rest) := by
  cases rest with
  | nil => rfl
  | cons c rest =>
      obtain ⟨-, point, letter⟩ := ends c rfl
      simp [readAfterDigits, point, letter]

theorem le_foldl_digits (digits : List Char) (start : Nat) :
    start ≤ digits.foldl (fun value digit => 10 * value + Text.digitValue digit) start := by
  induction digits generalizing start with
  | nil => exact Nat.le_refl _
  | cons digit digits ih =>
      have := ih (10 * start + Text.digitValue digit)
      rw [List.foldl_cons]
      omega

/-- Digits whose number fits are all taken. -/
theorem takeDigits_append {digits : List Char} (allDigits : ∀ c ∈ digits, c.isDigit = true)
    {start : Nat}
    (fits : digits.foldl (fun value digit => 10 * value + Text.digitValue digit) start <
      significandBound)
    {rest : List Char} (ends : startsWithDigit rest = false) :
    takeDigits start (digits ++ rest) =
      (digits.foldl (fun value digit => 10 * value + Text.digitValue digit) start, digits.length,
        rest) := by
  induction digits generalizing start with
  | nil =>
      cases rest with
      | nil => rfl
      | cons c rest =>
          have other : c.isDigit = false := ends
          simp [takeDigits, other]
  | cons digit digits ih =>
      obtain ⟨isDigit, others⟩ := List.forall_mem_cons.mp allDigits
      rw [List.foldl_cons] at fits ⊢
      have grows := le_foldl_digits digits (10 * start + Text.digitValue digit)
      have next : start * 10 + Text.digitValue digit =
          10 * start + Text.digitValue digit := by omega
      have small : 10 * start + Text.digitValue digit < significandBound := by omega
      rw [List.cons_append, takeDigits, next, if_pos ⟨isDigit, small⟩, ih others fits]
      rfl

/-- The digits of a number are read back. -/
theorem readNumber_natDigits (negative : Bool) {number : Nat} (fits : number < significandBound)
    {rest : List Char} (ends : EndsNumber rest) :
    readNumber negative (Text.natDigits number ++ rest) =
      .ok (makeInteger negative number, rest) := by
  rcases Nat.eq_zero_or_pos number with rfl | positive
  · change readNumber negative ('0' :: rest) = _
    simp only [readNumber, if_true, ends.startsWithDigit_eq, Bool.false_eq_true, if_false]
    exact ends.readAfterDigits_eq negative 0
  · have value := Text.digitsValue_natDigits number
    have allDigits : ∀ c ∈ Text.natDigits number, c.isDigit = true :=
      fun _ => Text.isDigit_of_mem_natDigits
    have bare := Text.natDigits_head_ne_zero positive
    cases digits : Text.natDigits number with
    | nil => exact absurd digits (Text.natDigits_ne_nil number)
    | cons digit others =>
        rw [digits] at value allDigits bare
        obtain ⟨isDigit, othersAreDigits⟩ := List.forall_mem_cons.mp allDigits
        have first : digit ≠ '0' := fun zero => bare (by rw [zero]; rfl)
        have total : others.foldl (fun value digit => 10 * value + Text.digitValue digit)
            (Text.digitValue digit) = number := by
          rw [← value, Text.digitsValue, List.foldl_cons, Nat.mul_zero, Nat.zero_add]
        have taken := takeDigits_append othersAreDigits (total.symm ▸ fits) ends.startsWithDigit_eq
        rw [List.cons_append, readNumber, if_neg first, if_pos isDigit, taken, total]
        simp only [ends.startsWithDigit_eq, Bool.false_eq_true, if_false]
        exact ends.readAfterDigits_eq negative number

/-! ## Values -/

mutual

/-- What a reader keeps of a printed value. -/
def kept : Json → Json
  | .array items => .array (keptItems items)
  | .object members => .object (sortMembers (keptMembers members))
  | value => value

def keptItems : List Json → List Json
  | [] => []
  | item :: rest => kept item :: keptItems rest

def keptMembers : List (String × Json) → List (String × Json)
  | [] => []
  | (key, value) :: rest => (key, kept value) :: keptMembers rest

end

theorem keptItems_eq_map (items : List Json) : keptItems items = items.map kept := by
  induction items with
  | nil => rfl
  | cons item rest ih => rw [keptItems, ih, List.map_cons]

/-- Values without doubles, whose whole numbers have 64 bits, and in which at most so many brackets
stand around each other. -/
inductive Plain : Nat → Json → Prop
  | null {height : Nat} : Plain height .null
  | boolean {height : Nat} (truth : Bool) : Plain height (.boolean truth)
  | integer {height : Nat} {number : Int} (least : -0x8000000000000000 ≤ number)
      (most : number < 0x10000000000000000) : Plain height (.integer number)
  | string {height : Nat} (text : String) : Plain height (.string text)
  | array {height : Nat} {items : List Json} (each : ∀ item ∈ items, Plain height item) :
      Plain (height + 1) (.array items)
  | object {height : Nat} {members : List (String × Json)}
      (each : ∀ member ∈ members, Plain height member.2) : Plain (height + 1) (.object members)

theorem skipSpace_newLine (depth : Nat) (cs : List Char) :
    skipSpace (newLine depth ++ cs) = skipSpace cs := by
  have spaces : ∀ c ∈ newLine depth, isSpace c = true := by
    intro c member
    rcases List.mem_cons.mp member with rfl | space
    · rfl
    · rw [List.eq_of_mem_replicate space]
      rfl
  exact List.dropWhile_append_of_pos spaces

theorem skipSpace_cons {c : Char} (solid : isSpace c = false) (cs : List Char) :
    skipSpace (c :: cs) = c :: cs := by
  simp [skipSpace, solid]

/-- The value is read back, with enough fuel and depth, from any margin and in front of anything
that ends a number. -/
def ReadsBack (height : Nat) (value : Json) : Prop :=
  ∀ (margin fuel depth : Nat) (rest : List Char), EndsNumber rest →
    3 * (prettyChars margin value).length ≤ fuel → height < depth →
      readValue fuel depth (prettyChars margin value ++ rest) = .ok (kept value, rest)

theorem endsNumber_comma (rest : List Char) : EndsNumber (',' :: rest) := by
  rintro c ⟨⟩
  decide

theorem endsNumber_newLine (depth : Nat) (rest : List Char) :
    EndsNumber (newLine depth ++ rest) := by
  rintro c ⟨⟩
  decide

theorem endsNumber_prettyItems (margin : Nat) (items : List Json) (rest : List Char) :
    EndsNumber (prettyItems margin items ++ (newLine margin ++ rest)) := by
  cases items with
  | nil => exact endsNumber_newLine margin rest
  | cons item items => exact endsNumber_comma _

theorem endsNumber_prettyMembers (margin : Nat) (members : List (String × Json))
    (rest : List Char) :
    EndsNumber (prettyMembers margin members ++ (newLine margin ++ rest)) := by
  cases members with
  | nil => exact endsNumber_newLine margin rest
  | cons member members => exact endsNumber_comma _

theorem isSpace_of_isDigit {c : Char} (digit : c.isDigit = true) : isSpace c = false := by
  rw [Bool.eq_false_iff]
  intro space
  simp only [isSpace, Bool.or_eq_true, beq_iff_eq] at space
  rcases space with ((rfl | rfl) | rfl) | rfl <;> exact absurd digit (by decide)

/-- A printed value begins with a character that is no space and closes no array. -/
theorem Plain.pretty_opens {height : Nat} {value : Json} (plain : Plain height value)
    (margin : Nat) :
    ∃ c tail, prettyChars margin value = c :: tail ∧ isSpace c = false ∧ c ≠ ']' := by
  cases plain with
  | null => exact ⟨_, _, prettyChars.eq_1 margin, rfl, by decide⟩
  | boolean truth => cases truth <;> exact ⟨_, _, by rw [prettyChars], rfl, by decide⟩
  | @integer _ number least most =>
      rw [prettyChars, Text.intText]
      split
      · exact ⟨'-', _, String.toList_append, rfl, by decide⟩
      · cases digits : Text.natDigits number.natAbs with
        | nil => exact absurd digits (Text.natDigits_ne_nil _)
        | cons digit others =>
            have isDigit : digit.isDigit = true :=
              Text.isDigit_of_mem_natDigits (digits ▸ List.mem_cons_self)
            refine ⟨digit, others, by rw [Text.natText, String.toList_ofList, digits], ?_, ?_⟩
            · exact isSpace_of_isDigit isDigit
            · rintro rfl
              exact absurd isDigit (by decide)
  | string text => exact ⟨_, _, by rw [prettyChars]; rfl, rfl, by decide⟩
  | @array _ items each => cases items <;> exact ⟨_, _, by rw [prettyChars], rfl, by decide⟩
  | @object _ members each =>
      cases members with
      | nil => exact ⟨_, _, by rw [prettyChars], rfl, by decide⟩
      | cons member members => exact ⟨_, _, by rw [prettyChars], rfl, by decide⟩

/-- A whole number is read back from its sign and digits. -/
theorem readValue_integer {number : Int} (least : -0x8000000000000000 ≤ number)
    (most : number < 0x10000000000000000)
    (fuel depth : Nat) {rest : List Char} (ends : EndsNumber rest) :
    readValue (fuel + 1) depth ((Text.intText number).toList ++ rest) =
      .ok (.integer number, rest) := by
  have fits : number.natAbs < significandBound := by
    rw [significandBound]
    omega
  rw [Text.intText]
  by_cases negative : number < 0
  · have text : ("-" ++ Text.natText number.natAbs).toList ++ rest =
        '-' :: (Text.natDigits number.natAbs ++ rest) := by
      simp [Text.natText]
    have made : makeInteger true number.natAbs = .integer number := by
      have within : ¬ (number.natAbs = 0 ∨ 0x8000000000000000 < number.natAbs) := by omega
      have opposite : -(number.natAbs : Int) = number := by omega
      rw [makeInteger, if_pos rfl, if_neg within, opposite]
    rw [if_pos negative, text, readValue, skipSpace_cons rfl]
    simp [readNumber_natDigits true fits ends, made]
  · have made : makeInteger false number.natAbs = .integer number := by
      have same : (number.natAbs : Int) = number := by omega
      simp [makeInteger, same]
    have read := readNumber_natDigits false fits ends
    rw [if_neg negative, Text.natText, String.toList_ofList]
    cases digits : Text.natDigits number.natAbs with
    | nil => exact absurd digits (Text.natDigits_ne_nil _)
    | cons digit others =>
        have isDigit : digit.isDigit = true :=
          Text.isDigit_of_mem_natDigits (digits ▸ List.mem_cons_self)
        have other : ∀ c : Char, c.isDigit = false → digit ≠ c := by
          rintro c notDigit rfl
          exact absurd isDigit (by simp [notDigit])
        rw [digits, List.cons_append] at read
        rw [List.cons_append, readValue, skipSpace_cons (isSpace_of_isDigit isDigit)]
        simp only [other 'n' rfl, other 't' rfl, other 'f' rfl, other '-' rfl, isDigit, if_false,
          if_true, read, made]

theorem readValue_space (fuel depth : Nat) (cs : List Char) :
    readValue fuel depth (' ' :: cs) = readValue fuel depth cs := by
  cases fuel with
  | zero => simp only [readValue]
  | succ fuel =>
      have same : skipSpace (' ' :: cs) = skipSpace cs := rfl
      simp only [readValue, same]

section Brackets

variable {height depth fuel : Nat} {after left : List Char}

theorem readItem_pretty (deep : height < depth) (margin : Nat) {item : Json}
    (back : ReadsBack height item)
    (enough : 3 * (prettyChars margin item).length ≤ fuel) (ends : EndsNumber after)
    {items : List Json}
    (behind : readItems fuel depth false after = .ok (items, left)) :
    readItem (fuel + 1) depth (prettyChars margin item ++ after) =
      .ok (kept item :: items, left) := by
  simp only [readItem, back margin fuel depth after ends enough deep, behind]

theorem readMember_pretty (deep : height < depth) (margin : Nat) (key : String) {value : Json}
    (back : ReadsBack height value)
    (enough : 3 * (prettyChars margin value).length ≤ fuel) (ends : EndsNumber after)
    {members : List (String × Json)}
    (behind : readMembers fuel depth false after = .ok (members, left)) :
    readMember (fuel + 1) depth
        (key.toList.flatMap escapeChar ++ '"' :: ':' :: ' ' ::
          (prettyChars margin value ++ after)) =
      .ok ((key, kept value) :: members, left) := by
  have colon : isSpace ':' = false := rfl
  simp only [readMember, readString_escaped, skipSpace_cons colon, if_true, readValue_space,
    back margin fuel depth after ends enough deep, behind]

/-- Items behind the first are read back, if each of them is. -/
theorem readItems_prettyItems (deep : height < depth) (margin : Nat) (items : List Json)
    (plain : ∀ item ∈ items, Plain height item) (each : ∀ item ∈ items, ReadsBack height item)
    (fuel : Nat)
    (enough : 3 * (prettyItems margin items).length < fuel) (rest : List Char) :
    readItems fuel depth false (prettyItems margin items ++ (newLine margin ++ ']' :: rest)) =
      .ok (keptItems items, rest) := by
  induction items generalizing fuel with
  | nil =>
      obtain ⟨fuel, rfl⟩ := Nat.exists_eq_add_of_lt enough
      rw [prettyItems, List.nil_append, readItems, skipSpace_newLine, skipSpace_cons rfl]
      simp only [if_true, keptItems]
  | cons item items ih =>
      obtain ⟨firstPlain, othersPlain⟩ := List.forall_mem_cons.mp plain
      obtain ⟨first, others⟩ := List.forall_mem_cons.mp each
      obtain ⟨c, tail, opens, solid, noClose⟩ := firstPlain.pretty_opens (margin + 1)
      simp only [prettyItems, List.length_cons, List.length_append] at enough
      obtain ⟨fuel, rfl⟩ : ∃ less, fuel = less + 2 := ⟨fuel - 2, by omega⟩
      have read := readItem_pretty deep (margin + 1) first (by omega)
          (endsNumber_prettyItems margin items (']' :: rest))
        (ih othersPlain others fuel (by omega))
      rw [opens, List.cons_append] at read
      have comma : isSpace ',' = false := rfl
      have open' : ',' ≠ ']' := by decide
      simp only [prettyItems, opens, List.cons_append, List.append_assoc, readItems,
        skipSpace_cons comma, open',
        if_false, Bool.false_eq_true, if_true, skipSpace_newLine, skipSpace_cons solid, noClose,
        read, keptItems]

/-- Members behind the first are read back, if the value of each of them is. -/
theorem readMembers_prettyMembers (deep : height < depth) (margin : Nat)
    (members : List (String × Json))
    (each : ∀ member ∈ members, ReadsBack height member.2) (fuel : Nat)
    (enough : 3 * (prettyMembers margin members).length < fuel) (rest : List Char) :
    readMembers fuel depth false
      (prettyMembers margin members ++ (newLine margin ++ '\x7d' :: rest)) =
      .ok (keptMembers members, rest) := by
  induction members generalizing fuel with
  | nil =>
      obtain ⟨fuel, rfl⟩ := Nat.exists_eq_add_of_lt enough
      rw [prettyMembers, List.nil_append, readMembers, skipSpace_newLine, skipSpace_cons rfl]
      simp only [if_true, keptMembers]
  | cons member members ih =>
      obtain ⟨key, value⟩ := member
      obtain ⟨first, others⟩ := List.forall_mem_cons.mp each
      have first : ReadsBack height value := first
      simp only [prettyMembers, List.length_cons, List.length_append] at enough
      obtain ⟨fuel, rfl⟩ : ∃ less, fuel = less + 2 := ⟨fuel - 2, by omega⟩
      have read := readMember_pretty deep (margin + 1) key first (by omega)
        (endsNumber_prettyMembers margin members ('\x7d' :: rest)) (ih others fuel (by omega))
      have comma : isSpace ',' = false := rfl
      have quote : isSpace '"' = false := rfl
      have open' : ',' ≠ '\x7d' := by decide
      simp only [prettyMembers, stringChars, List.cons_append, List.append_assoc, List.nil_append,
        readMembers,
        skipSpace_cons comma, open', if_false, Bool.false_eq_true, if_true, skipSpace_newLine,
        skipSpace_cons quote,
        read, keptMembers]

end Brackets

theorem readsBack_array {height : Nat} {items : List Json}
    (plain : ∀ item ∈ items, Plain height item)
    (each : ∀ item ∈ items, ReadsBack height item) : ReadsBack (height + 1) (.array items) := by
  intro margin fuel depth rest ends enough deep
  have bracket : isSpace '[' = false := rfl
  have close : isSpace ']' = false := rfl
  have inside : ¬ depth ≤ 1 := by omega
  cases items with
  | nil =>
      simp only [prettyChars, List.length_cons, List.length_nil] at enough
      obtain ⟨fuel, rfl⟩ : ∃ less, fuel = less + 2 := ⟨fuel - 2, by omega⟩
      simp [prettyChars, readValue, skipSpace_cons bracket, inside, readItems, skipSpace_cons close,
        kept, keptItems]
  | cons item items =>
      obtain ⟨firstPlain, othersPlain⟩ := List.forall_mem_cons.mp plain
      obtain ⟨first, others⟩ := List.forall_mem_cons.mp each
      obtain ⟨c, tail, opens, solid, noClose⟩ := firstPlain.pretty_opens (margin + 1)
      simp only [prettyChars, List.length_cons, List.length_append] at enough
      obtain ⟨fuel, rfl⟩ : ∃ less, fuel = less + 3 := ⟨fuel - 3, by omega⟩
      have deeper : height < depth - 1 := by omega
      have read := readItem_pretty deeper (margin + 1) first (by omega)
        (endsNumber_prettyItems margin items (']' :: rest))
        (readItems_prettyItems deeper margin items othersPlain others fuel (by omega) rest)
      rw [opens, List.cons_append] at read
      simp [prettyChars, opens, readValue, skipSpace_cons bracket, inside, readItems,
        skipSpace_newLine, skipSpace_cons solid, noClose, read, kept, keptItems]

theorem readsBack_object {height : Nat} {members : List (String × Json)}
    (each : ∀ member ∈ members, ReadsBack height member.2) :
    ReadsBack (height + 1) (.object members) := by
  intro margin fuel depth rest ends enough deep
  have brace : isSpace '\x7b' = false := rfl
  have close : isSpace '\x7d' = false := rfl
  have quote : isSpace '"' = false := rfl
  have inside : ¬ depth ≤ 1 := by omega
  cases members with
  | nil =>
      simp only [prettyChars, List.length_cons, List.length_nil] at enough
      obtain ⟨fuel, rfl⟩ : ∃ less, fuel = less + 2 := ⟨fuel - 2, by omega⟩
      simp [prettyChars, readValue, skipSpace_cons brace, inside, readMembers, skipSpace_cons close,
        kept, keptMembers]
  | cons member members =>
      obtain ⟨key, value⟩ := member
      obtain ⟨first, others⟩ := List.forall_mem_cons.mp each
      have first : ReadsBack height value := first
      simp only [prettyChars, List.length_cons, List.length_append] at enough
      obtain ⟨fuel, rfl⟩ : ∃ less, fuel = less + 3 := ⟨fuel - 3, by omega⟩
      have deeper : height < depth - 1 := by omega
      have read := readMember_pretty deeper (margin + 1) key first (by omega)
        (endsNumber_prettyMembers margin members ('\x7d' :: rest))
        (readMembers_prettyMembers deeper margin members others fuel (by omega) rest)
      simp [prettyChars, stringChars, readValue, skipSpace_cons brace, inside, readMembers,
        skipSpace_newLine, skipSpace_cons quote, read, kept, keptMembers]

theorem Plain.exists_less_fuel {height : Nat} {value : Json} (plain : Plain height value)
    {margin fuel : Nat}
    (enough : 3 * (prettyChars margin value).length ≤ fuel) : ∃ less, fuel = less + 1 := by
  obtain ⟨c, tail, opens, -⟩ := plain.pretty_opens margin
  rw [opens, List.length_cons] at enough
  exact ⟨fuel - 1, by omega⟩

/-- A printed value is read back. -/
theorem Plain.readsBack {height : Nat} {value : Json} (plain : Plain height value) :
    ReadsBack height value := by
  have quote : isSpace '"' = false := rfl
  induction plain with
  | @null height =>
      intro margin fuel depth rest ends enough deep
      obtain ⟨fuel, rfl⟩ := (show Plain height .null from .null).exists_less_fuel enough
      simp [prettyChars, readValue, skipSpace, isSpace, readLiteral, kept]
  | @boolean height truth =>
      intro margin fuel depth rest ends enough deep
      obtain ⟨fuel, rfl⟩ := (show Plain height
          (.boolean truth) from .boolean truth).exists_less_fuel enough
      cases truth <;> simp [prettyChars, readValue, skipSpace, isSpace, readLiteral, kept]
  | @integer height number least most =>
      intro margin fuel depth rest ends enough deep
      obtain ⟨fuel, rfl⟩ := (show Plain height
          (.integer number) from .integer least most).exists_less_fuel enough
      simp only [prettyChars, kept]
      exact readValue_integer least most fuel depth ends
  | @string height text =>
      intro margin fuel depth rest ends enough deep
      obtain ⟨fuel, rfl⟩ := (show Plain height (.string text) from .string text).exists_less_fuel
          enough
      simp [prettyChars, stringChars, readValue, skipSpace_cons quote, readString_escaped, kept]
  | array each ih => exact readsBack_array each ih
  | object each ih => exact readsBack_object ih

/-- A printed value is read back from the whole text, with spaces behind it or without. -/
theorem Plain.read_pretty {height : Nat} (shallow : height < depthLimit) {value : Json}
    (plain : Plain height value) {spaces : String} (blank : ∀ c ∈ spaces.toList, isSpace c = true) :
    read (value.pretty ++ spaces) = .ok value.kept := by
  have ends : EndsNumber spaces.toList := by
    intro c first
    have space := blank c (List.mem_of_head? first)
    simp only [isSpace, Bool.or_eq_true, beq_iff_eq] at space
    rcases space with ((rfl | rfl) | rfl) | rfl <;> decide
  have nothing : skipSpace spaces.toList = [] := List.dropWhile_eq_nil_iff.mpr blank
  have text : (value.pretty ++ spaces).toList = prettyChars 0 value ++ spaces.toList := by
    rw [String.toList_append, pretty, String.toList_ofList]
  have enough : 3 * (prettyChars 0 value).length ≤
      3 * (prettyChars 0 value ++ spaces.toList).length + 3 := by
    rw [List.length_append]
    omega
  rw [read, text, readText, plain.readsBack 0 _ depthLimit spaces.toList ends enough shallow]
  simp only [nothing]

end RobotConsole.Json
