import RobotConsole.Proofs.QuotedLists
import RobotConsole.Toml.Scalar

/-!
# Numerals

A number is written in the digits of a radix up to sixteen, with letters of either case and any
count of zeros in front.  The characters of such a numeral are digits of the radix, and their
value is the number.
-/

set_option autoImplicit false

namespace RobotConsole.Toml

/-- The digits write the number in the radix, behind any count of zeros and in either case. -/
def Numeral (radix : Nat) (digits : List Char) (number : Nat) : Prop :=
  ∃ zeros, digits.map Char.toLower = List.replicate zeros '0' ++ Nat.toDigits radix number

/-! ## Digits -/

theorem toLower_cases (c : Char) :
    c.toLower = c ∨ 65 ≤ c.toNat ∧ c.toNat ≤ 90 ∧ c.toLower.toNat = c.toNat + 32 := by
  by_cases capital : c.val ≥ 'A'.val ∧ c.val ≤ 'Z'.val
  · right
    have least : 65 ≤ c.toNat := UInt32.le_iff_toNat_le.mp capital.1
    have most : c.toNat ≤ 90 := UInt32.le_iff_toNat_le.mp capital.2
    refine ⟨least, most, ?_⟩
    have small : c.toLower = ⟨c.val + ('a'.val - 'A'.val), _⟩ := dif_pos capital
    rw [small]
    change (c.val + 32).toNat = c.val.toNat + 32
    have bounded : c.val.toNat ≤ 90 := most
    rw [UInt32.toNat_add]
    exact Nat.mod_eq_of_lt (by simp; omega)
  · exact Or.inl (dif_neg capital)

theorem toNat_digitChar : ∀ digit < 16,
    digit.digitChar.toNat = if digit < 10 then 48 + digit else 87 + digit := by
  decide

/-- A capital stands only for a digit beyond nine. -/
theorem digit_cases {c : Char} {digit : Nat} (small : digit < 16)
    (same : c.toLower = digit.digitChar) :
    c = digit.digitChar ∨ 10 ≤ digit ∧ c.toNat = 55 + digit := by
  rcases toLower_cases c with kept | ⟨least, most, shifted⟩
  · exact Or.inl (kept.symm.trans same)
  · have code := toNat_digitChar digit small
    rw [← same, shifted] at code
    split_ifs at code with decimal
    · omega
    · exact Or.inr ⟨by omega, by omega⟩

theorem eq_digitChar {c : Char} {digit : Nat} (decimal : digit < 10)
    (same : c.toLower = digit.digitChar) : c = digit.digitChar := by
  rcases digit_cases (by omega) same with plain | ⟨large, -⟩
  · exact plain
  · omega

theorem hexDigit_of_toLower {c : Char} {digit : Nat} (small : digit < 16)
    (same : c.toLower = digit.digitChar) :
    Text.isHexDigit c = true ∧ Text.hexValue c = digit := by
  rcases digit_cases small same with rfl | ⟨large, code⟩
  · exact Text.digitChar_reads_back digit small
  · have letters : ∀ digit < 16, 10 ≤ digit →
        Text.isHexDigit (Char.ofNat (55 + digit)) = true ∧
          Text.hexValue (Char.ofNat (55 + digit)) = digit := by
      decide
    have named : c = Char.ofNat (55 + digit) := by rw [← code, Char.ofNat_toNat]
    rw [named]
    exact letters digit small large

theorem mem_toDigits {radix : Nat} (large : 1 < radix) (number : Nat) :
    ∀ c ∈ Nat.toDigits radix number, ∃ digit < radix, c = digit.digitChar := by
  induction number using Nat.strongRecOn with
  | ind number ih =>
      intro c member
      rw [Nat.toDigits_eq_if large] at member
      split at member
      · rename_i small
        exact ⟨number, small, List.mem_singleton.mp member⟩
      · rename_i above
        rcases List.mem_append.mp member with front | last
        · exact ih (number / radix) (Nat.div_lt_self (by omega) large) c front
        · exact ⟨number % radix, Nat.mod_lt _ (by omega), List.mem_singleton.mp last⟩

section Radix

variable {radix : Nat} {digits : List Char} {number : Nat}

theorem Numeral.mem (numeral : Numeral radix digits number) (large : 1 < radix) {c : Char}
    (member : c ∈ digits) : ∃ digit < radix, c.toLower = digit.digitChar := by
  obtain ⟨zeros, written⟩ := numeral
  have among : c.toLower ∈ List.replicate zeros '0' ++ Nat.toDigits radix number :=
    written ▸ List.mem_map_of_mem member
  rcases List.mem_append.mp among with zero | digit
  · exact ⟨0, by omega, List.eq_of_mem_replicate zero⟩
  · exact mem_toDigits large number _ digit

theorem Numeral.ne_nil (numeral : Numeral radix digits number) : digits ≠ [] := by
  obtain ⟨zeros, written⟩ := numeral
  rintro rfl
  exact Nat.toDigits_ne_nil (List.append_eq_nil_iff.mp written.symm).2

/-- Every character of the numeral is such a digit, if this is so of the digits of the radix. -/
theorem Numeral.all {isDigit : Char → Bool} (numeral : Numeral radix digits number)
    (large : 1 < radix) (small : radix ≤ 10)
    (isSuch : ∀ digit < radix, isDigit digit.digitChar = true) :
    ∀ c ∈ digits, isDigit c = true := by
  intro c member
  obtain ⟨digit, below, same⟩ := numeral.mem large member
  rw [eq_digitChar (by omega) same]
  exact isSuch digit below

theorem Numeral.allHex (numeral : Numeral 16 digits number) :
    ∀ c ∈ digits, Text.isHexDigit c = true := by
  intro c member
  obtain ⟨digit, below, same⟩ := numeral.mem (by decide) member
  exact (hexDigit_of_toLower below same).1

theorem digitsIn_append (radix : Nat) (front back : List Char) :
    digitsIn radix (front ++ back) =
      back.foldl (fun value digit => radix * value + Text.hexValue digit) (digitsIn radix front) :=
  List.foldl_append

theorem digitsIn_zeros (radix zeros : Nat) : digitsIn radix (List.replicate zeros '0') = 0 := by
  induction zeros with
  | zero => rfl
  | succ zeros ih =>
      rw [List.replicate_succ', digitsIn_append, ih]
      rfl

theorem digitsIn_toDigits (large : 1 < radix) (small : radix ≤ 16) (number : Nat) :
    digitsIn radix (Nat.toDigits radix number) = number := by
  have value : ∀ digit < radix, Text.hexValue digit.digitChar = digit :=
    fun digit below => (Text.digitChar_reads_back digit (by omega)).2
  induction number using Nat.strongRecOn with
  | ind number ih =>
      rw [Nat.toDigits_eq_if large]
      split
      · rename_i small
        simp [digitsIn, value number small]
      · rename_i above
        have last := value (number % radix) (Nat.mod_lt _ (by omega))
        have front := ih (number / radix) (Nat.div_lt_self (by omega) large)
        rw [digitsIn_append, front, List.foldl_cons, List.foldl_nil, last]
        exact Nat.div_add_mod number radix

theorem digitsIn_map_toLower (allDigits : ∀ c ∈ digits, ∃ digit < 16, c.toLower = digit.digitChar) :
    digitsIn radix (digits.map Char.toLower) = digitsIn radix digits := by
  unfold digitsIn
  generalize 0 = start
  induction digits generalizing start with
  | nil => rfl
  | cons c digits ih =>
      obtain ⟨⟨digit, small, same⟩, others⟩ := List.forall_mem_cons.mp allDigits
      have values : Text.hexValue c.toLower = Text.hexValue c := by
        rw [same, (hexDigit_of_toLower small same).2, (Text.digitChar_reads_back digit small).2]
      rw [List.map_cons, List.foldl_cons, List.foldl_cons, values]
      exact ih others _

theorem Numeral.digitsIn_eq (numeral : Numeral radix digits number) (large : 1 < radix)
    (small : radix ≤ 16) : digitsIn radix digits = number := by
  have allDigits : ∀ c ∈ digits, ∃ digit < 16, c.toLower = digit.digitChar := by
    intro c member
    obtain ⟨digit, below, same⟩ := numeral.mem large member
    exact ⟨digit, by omega, same⟩
  rw [← digitsIn_map_toLower allDigits]
  obtain ⟨zeros, written⟩ := numeral
  have value := digitsIn_toDigits large small number
  have start : digitsIn radix (List.replicate zeros '0') = digitsIn radix [] :=
    digitsIn_zeros radix zeros
  rw [written, digitsIn_append, start]
  exact value

end Radix

end RobotConsole.Toml
