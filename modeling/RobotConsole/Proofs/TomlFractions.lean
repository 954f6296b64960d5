import RobotConsole.Proofs.TomlNumbers

/-!
# How numbers with a fraction or an exponent are written in TOML

Behind the decimal digits of such a number stand a point with further digits, or a power of ten,
or both; or the number is infinite or none at all, by name.  Each of these forms is read as a
number that is not whole.  Only a positive number beyond the finite doubles may be refused.
-/

set_option autoImplicit false

namespace RobotConsole.Toml

/-! ## Forms -/

inductive SpellsFraction : List Char → List Char → Prop
  | none : SpellsFraction [] []
  | digits {form digits : List Char} (grouped : Grouped form digits)
      (decimal : ∀ c ∈ digits, c.isDigit = true) : SpellsFraction ('.' :: form) digits

inductive SpellsPower : List Char → Int → Prop
  | none : SpellsPower [] 0
  | exponent {letter : Char} {sign form digits : List Char} {negative : Bool} {size : Nat}
      (marked : letter = 'e' ∨ letter = 'E') (signs : Signs sign negative)
      (grouped : Grouped form digits) (writes : Text.Writes digits size) :
      SpellsPower (letter :: (sign ++ form)) (if negative then -size else size)

/-- The digits times a power of ten lie nearer to the finite doubles than to what is beyond. -/
def IsFinite (digits : Nat) (power : Int) : Prop :=
  digits * 10 ^ power.toNat < (2 ^ 1024 - 2 ^ 970) * 10 ^ (-power).toNat

instance (digits : Nat) (power : Int) : Decidable (IsFinite digits power) :=
  inferInstanceAs (Decidable (_ < _))

/-- The forms of a number that is not whole.  If they are `limited`, a positive one is finite. -/
inductive SpellsFloat (limited : Prop) : List Char → Prop
  | named {sign name : List Char} {negative : Bool} (signs : Signs sign negative)
      (known : name = "inf".toList ∨ name = "nan".toList) : SpellsFloat limited (sign ++ name)
  | decimal {sign form fractionForm fraction powerForm : List Char} {negative : Bool}
      {number digits : Nat} {power : Int} (signs : Signs sign negative)
      (grouped : Grouped form (Nat.toDigits 10 number))
      (spellsFraction : SpellsFraction fractionForm fraction)
      (spellsPower : SpellsPower powerForm power) (present : fractionForm ++ powerForm ≠ [])
      (writes : Text.Writes (Nat.toDigits 10 number ++ fraction) digits)
      (finite : limited → negative = true ∨ IsFinite digits (power - fraction.length)) :
      SpellsFloat limited (sign ++ (form ++ (fractionForm ++ powerForm)))

/-! ## Finite numbers -/

/-- Rounding adds at most one half. -/
theorem roundQuotient_le (numerator denominator : Nat) :
    2 * Double.roundQuotient numerator denominator * denominator ≤
      2 * numerator + denominator := by
  have split := Nat.div_add_mod numerator denominator
  have even := Nat.mod_lt (numerator / denominator) (by decide : 0 < 2)
  have upper : 2 * (numerator / denominator + 1) * denominator =
      2 * (denominator * (numerator / denominator)) + 2 * denominator := by ring
  have lower : 2 * (numerator / denominator) * denominator =
      2 * (denominator * (numerator / denominator)) := by ring
  unfold Double.roundQuotient
  dsimp only
  split_ifs with below above
  · omega
  · omega
  · -- the even one of two quotients that are equally near
    have cases : numerator / denominator % 2 = 0 ∨ numerator / denominator % 2 = 1 := by omega
    rcases cases with zero | one
    · rw [zero, Nat.add_zero]
      omega
    · rw [one]
      omega

/-- A value below a limit by more than half a step is not rounded up to the limit. -/
theorem count_lt {count step half limit numerator denominator : Nat}
    (rounded : 2 * count * (denominator * step) ≤ 2 * numerator + denominator * step)
    (narrow : step ≤ 2 * half)
    (small : numerator + half * denominator < limit * denominator) : count * step < limit := by
  by_contra! beyond
  have reached : 2 * (limit * denominator) ≤ 2 * count * (denominator * step) := by
    calc 2 * (limit * denominator)
        ≤ 2 * (count * step * denominator) := by gcongr
      _ = 2 * count * (denominator * step) := by ring
  have wide : denominator * step ≤ 2 * (half * denominator) := by
    calc denominator * step
        ≤ denominator * (2 * half) := by gcongr
      _ = 2 * (half * denominator) := by ring
  omega

theorem round_lt {numerator denominator places : Nat} (positive : 0 < denominator)
    (small : numerator + 2 ^ places * denominator < 2 ^ (places + 54) * denominator) :
    Double.round numerator denominator < 2 ^ (places + 54) := by
  have quotient : numerator / denominator < 2 ^ (places + 54) :=
    (Nat.div_lt_iff_lt_mul positive).mpr ((Nat.le_add_right _ _).trans_lt small)
  have most : (numerator / denominator).log2 - 52 ≤ places + 1 := by
    rcases Nat.eq_zero_or_pos (numerator / denominator) with zero | present
    · rw [zero]
      exact Nat.zero_le _
    · have log := (Nat.log2_lt present.ne').mpr quotient
      omega
  have step : 2 ^ ((numerator / denominator).log2 - 52) ≤ 2 * 2 ^ places := by
    rw [← Nat.pow_succ']
    exact Nat.pow_le_pow_right (by decide) most
  exact count_lt (roundQuotient_le numerator (denominator * _)) step small

/-- Digits with many places are beyond the finite numbers. -/
theorem IsFinite.places_le {digits : Nat} {power : Int} (finite : IsFinite digits power)
    (positive : 0 < digits) : ((Text.natDigits digits).length : Int) + power ≤ 310 := by
  have long : 10 ^ ((Text.natDigits digits).length - 1) ≤ digits := by
    by_contra! short
    have least : 0 < (Text.natDigits digits).length :=
      List.length_pos_iff.mpr (Text.natDigits_ne_nil digits)
    rcases Nat.eq_zero_or_pos ((Text.natDigits digits).length - 1) with single | more
    · rw [single, pow_zero] at short
      omega
    · have fits := (Nat.length_toDigits_le_iff (b := 10) (by decide) more).mpr short
      rw [← Text.natDigits] at fits
      omega
  have bound : 2 ^ 1024 - 2 ^ 970 ≤ 10 ^ 309 := by decide +kernel
  have powers : 10 ^ ((Text.natDigits digits).length - 1 + power.toNat) <
      10 ^ (309 + (-power).toNat) := by
    calc 10 ^ ((Text.natDigits digits).length - 1 + power.toNat)
        = 10 ^ ((Text.natDigits digits).length - 1) * 10 ^ power.toNat := pow_add _ _ _
      _ ≤ digits * 10 ^ power.toNat := by gcongr
      _ < (2 ^ 1024 - 2 ^ 970) * 10 ^ (-power).toNat := finite
      _ ≤ 10 ^ 309 * 10 ^ (-power).toNat := by gcongr
      _ = 10 ^ (309 + (-power).toNat) := (pow_add _ _ _).symm
  have exponents := (Nat.pow_lt_pow_iff_right (by decide)).mp powers
  omega

/-- The bound of finite numbers, in units. -/
theorem scaled_lt {digits up down bound one half limit : Nat} (finite : digits * up < bound * down)
    (positive : 0 < one) (scaled : bound * one + half = limit) :
    digits * one * up + half * down < limit * down := by
  calc digits * one * up + half * down
      = digits * up * one + half * down := by ring
    _ < bound * down * one + half * down :=
        Nat.add_lt_add_right (Nat.mul_lt_mul_of_pos_right finite positive) _
    _ = limit * down := by rw [← scaled]; ring

theorem IsFinite.isFinite_eq {digits : Nat} {power : Int} (finite : IsFinite digits power) :
    isFinite digits power = true := by
  unfold isFinite
  dsimp only
  split_ifs with few many
  · rfl
  · have positive : 0 < digits := Nat.pos_of_ne_zero (not_or.mp few).1
    have most := finite.places_le positive
    omega
  · have limit : Double.limit = 2 ^ (2044 + 54) := by decide +kernel
    have unit : 0 < Double.one := by decide +kernel
    have scaled : (2 ^ 1024 - 2 ^ 970) * Double.one + 2 ^ 2044 = 2 ^ (2044 + 54) := by
      decide +kernel
    rw [decide_eq_true_eq, limit]
    exact round_lt (Nat.pow_pos (by decide)) (scaled_lt finite unit scaled)

/-! ## Reading -/

theorem Writes.isDigit {digits : List Char} {number : Nat} (writes : Text.Writes digits number) :
    ∀ c ∈ digits, c.isDigit = true := by
  obtain ⟨zeros, rfl⟩ := writes
  intro c member
  rcases List.mem_append.mp member with zero | digit
  · rw [List.eq_of_mem_replicate zero]
    rfl
  · exact Text.isDigit_of_mem_natDigits digit

theorem readExponent_of_sign {sign : List Char} {negative : Bool} (signs : Signs sign negative)
    {c : Char} (digit : c.isDigit = true) (cs : List Char) :
    readExponent (sign ++ c :: cs) = (readDigits Char.isDigit (c :: cs)).map fun read =>
      (if negative then -(Text.digitsValue read.1 : Int) else Text.digitsValue read.1, read.2) := by
  have other (d : Char) (notDigit : d.isDigit = false) : c ≠ d := by
    rintro rfl
    exact absurd digit (by simp [notDigit])
  cases signs with
  | none =>
      have notPlus := other '+' rfl
      have notMinus := other '-' rfl
      cases read : readDigits Char.isDigit (c :: cs) <;>
        simp [readExponent, notPlus, notMinus, read]
  | plus | minus =>
      simp only [List.singleton_append, readExponent]
      cases readDigits Char.isDigit (c :: cs) <;> rfl

section Reading

variable {negative : Bool} {digits fraction rest : List Char}

/-- A power of ten is read behind the digits and the fraction. -/
theorem SpellsPower.read {form : List Char} {power : Int} (spells : SpellsPower form power)
    (ends : EndsValue rest) :
    readAfterFraction negative digits fraction (form ++ rest) =
      makeFloat negative digits fraction power rest := by
  cases spells with
  | none =>
      cases rest with
      | nil => rfl
      | cons c rest =>
          have other (d : Char) (inside : d ∉ outerMarks) : c ≠ d := by
            rintro rfl
            exact ends.head_ne inside rfl
          have small := other 'e' (by decide)
          have large := other 'E' (by decide)
          simp only [List.nil_append, readAfterFraction, small, large, or_self, if_false]
  | @exponent letter sign form digits negative size marked signs grouped writes =>
      have read := grouped.read (Writes.isDigit writes) rfl (ends.stops rfl)
      obtain ⟨c, tail, others, rfl, rfl⟩ := grouped.opens
      have digit := Writes.isDigit writes c List.mem_cons_self
      rw [List.cons_append] at read
      rw [List.cons_append, List.append_assoc, List.cons_append]
      simp only [readAfterFraction, if_pos marked, readExponent_of_sign signs digit, read,
        Option.map_some, writes.digitsValue_eq]

theorem SpellsPower.stops {form : List Char} {power : Int} (spells : SpellsPower form power)
    (ends : EndsValue rest) : Stops Char.isDigit (form ++ rest) := by
  cases spells with
  | none => exact ends.stops rfl
  | exponent marked =>
      rintro c ⟨⟩
      rcases marked with rfl | rfl <;> decide

/-- The fraction and the power of ten are read behind the digits. -/
theorem SpellsFraction.read {form powerForm : List Char} {power : Int}
    (spells : SpellsFraction form fraction) (spellsPower : SpellsPower powerForm power)
    (present : form ++ powerForm ≠ []) (ends : EndsValue rest) :
    readAfterDigits negative digits (form ++ (powerForm ++ rest)) =
      makeFloat negative digits fraction power rest := by
  cases spells with
  | none =>
      have read : readAfterFraction negative digits [] (powerForm ++ rest) =
          makeFloat negative digits [] power rest := spellsPower.read ends
      cases spellsPower with
      | none => exact absurd rfl present
      | @exponent letter _ _ _ _ _ marked =>
          rw [List.cons_append] at read
          have point : letter ≠ '.' := by
            rintro rfl
            exact absurd marked (by decide)
          rw [List.nil_append, List.cons_append, readAfterDigits, if_neg point, if_pos marked, read]
  | digits grouped decimal =>
      have read := grouped.read decimal rfl (spellsPower.stops ends)
      rw [List.cons_append, readAfterDigits, if_pos rfl, read]
      exact spellsPower.read ends

theorem SpellsFraction.endsDigits {form powerForm : List Char} {power : Int}
    (spells : SpellsFraction form fraction) (spellsPower : SpellsPower powerForm power)
    (ends : EndsValue rest) : EndsDigits (form ++ (powerForm ++ rest)) := by
  cases spells with
  | digits =>
      rintro c ⟨⟩
      decide
  | none =>
      cases spellsPower with
      | none => exact ends.endsDigits
      | exponent marked =>
          rintro c ⟨⟩
          rcases marked with rfl | rfl <;> decide

end Reading

/-- A number that is not whole is read from every form of it with a sign or a digit in front,
unless it is beyond all doubles. -/
theorem SpellsFloat.read {limited : Prop} {c : Char} {tail : List Char}
    (spells : SpellsFloat limited (c :: tail)) (begins : c ∈ numberMarks) {rest : List Char}
    (ends : EndsValue rest) :
    Settles limited (readNumberOrDate (c :: tail ++ rest)) (some (.float, rest)) := by
  generalize written : c :: tail = form at spells ⊢
  cases spells with
  | named signs known =>
      cases signs with
      | none =>
          rcases known with rfl | rfl
          · rw [(List.cons.inj written).1] at begins
            exact absurd begins (by decide)
          · rw [(List.cons.inj written).1] at begins
            exact absurd begins (by decide)
      | plus | minus =>
          rw [List.append_assoc, List.singleton_append, readNumberOrDate_sign rfl]
          rcases known with rfl | rfl <;> exact .of_eq rfl
  | @decimal sign form fractionForm fraction powerForm negative number digits power signs grouped
      spellsFraction spellsPower present writes finite =>
      have marks := spellsFraction.endsDigits spellsPower ends
      simp only [List.append_assoc]
      rw [grouped.readNumberOrDate_eq signs marks, spellsFraction.read spellsPower present ends,
        makeFloat, writes.digitsValue_eq]
      by_cases accepted : (negative || isFinite digits (power - fraction.length)) = true
      · exact .of_eq (if_pos accepted)
      · rw [if_neg accepted]
        refine .refused ?_
        intro sure
        rcases finite sure with rfl | small
        · exact accepted rfl
        · exact accepted (by rw [small.isFinite_eq, Bool.or_true])

end RobotConsole.Toml
