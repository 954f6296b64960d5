import RobotConsole.Index
import RobotConsole.Proofs.CodeOfStem

/-!
# The first code of an address

A code is five groups of hexadecimal digits joined by hyphens.  The code found in an address is the
one behind the first slash that has a code directly behind it, slashes further left having something
else there; where no slash has one, the address is refused as it is.
-/

set_option autoImplicit false

namespace RobotConsole.Code

/-! ## The form of a code -/

def IsHex (c : Char) : Prop :=
  ('0' ≤ c ∧ c ≤ '9') ∨ ('a' ≤ c ∧ c ≤ 'f') ∨ ('A' ≤ c ∧ c ≤ 'F')

/-- Groups of hexadecimal digits of these lengths, joined by hyphens. -/
def HasGroups (lengths : List Nat) (cs : List Char) : Prop :=
  ∃ groups : List (List Char),
    groups.map List.length = lengths ∧ (∀ group ∈ groups, ∀ c ∈ group, IsHex c) ∧
    cs = ['-'].intercalate groups

def HasCodeForm (cs : List Char) : Prop :=
  HasGroups [8, 4, 4, 4, 12] cs

theorem isHexDigit_iff (c : Char) : Text.isHexDigit c = true ↔ IsHex c := by
  have digit : c.isDigit = true ↔ '0' ≤ c ∧ c ≤ '9' := by
    simp [Char.isDigit, Char.le_def]
  simp only [Text.isHexDigit, IsHex, Bool.or_eq_true, Bool.and_eq_true, decide_eq_true_eq, digit,
    or_assoc]

theorem fills_nil (cs : List Char) : fills [] cs = true ↔ cs = [] := by
  cases cs <;> simp [fills]

theorem fills_cons (slot : Slot) (slots : List Slot) (cs : List Char) :
    fills (slot :: slots) cs = true ↔ ∃ c rest, cs = c :: rest ∧ slot.fits c = true ∧
      fills slots rest = true := by
  cases cs <;> simp [fills]

theorem fills_append (front back : List Slot) (cs : List Char) :
    fills (front ++ back) cs = true ↔
      ∃ one two, cs = one ++ two ∧ fills front one = true ∧ fills back two = true := by
  induction front generalizing cs with
  | nil => simp [fills_nil]
  | cons slot front ih =>
      simp only [List.cons_append, fills_cons, ih]
      constructor
      · rintro ⟨c, rest, rfl, fits, one, two, rfl, filled, behind⟩
        exact ⟨c :: one, two, rfl, ⟨c, one, rfl, fits, filled⟩, behind⟩
      · rintro ⟨one, two, rfl, ⟨c, rest, rfl, fits, filled⟩, behind⟩
        exact ⟨c, rest ++ two, rfl, fits, rest, two, rfl, filled, behind⟩

theorem fills_digits (length : Nat) (cs : List Char) :
    fills (List.replicate length .digit) cs = true ↔ cs.length = length ∧ ∀ c ∈ cs, IsHex c := by
  induction length generalizing cs with
  | zero => cases cs <;> simp [fills]
  | succ length ih =>
      simp only [List.replicate_succ, fills_cons, ih, Slot.fits, isHexDigit_iff]
      cases cs with
      | nil => simp
      | cons c rest => simp [and_left_comm]

theorem hasGroups_singleton (length : Nat) (cs : List Char) :
    HasGroups [length] cs ↔ cs.length = length ∧ ∀ c ∈ cs, IsHex c := by
  constructor
  · rintro ⟨groups, lengths, hex, rfl⟩
    obtain ⟨group, rfl, own⟩ := List.map_eq_singleton_iff.mp lengths
    rw [List.intercalate_singleton]
    exact ⟨own, hex group (List.mem_singleton_self group)⟩
  · rintro ⟨own, hex⟩
    exact ⟨[cs], by simp [own], by simpa using hex, List.intercalate_singleton.symm⟩

theorem hasGroups_cons_cons (length next : Nat) (lengths : List Nat) (cs : List Char) :
    HasGroups (length :: next :: lengths) cs ↔
      ∃ group rest, cs = group ++ '-' :: rest ∧ (group.length = length ∧ ∀ c ∈ group, IsHex c) ∧
        HasGroups (next :: lengths) rest := by
  constructor
  · rintro ⟨groups, fit, hex, rfl⟩
    obtain ⟨group, later, rfl, own, fit⟩ := List.map_eq_cons_iff.mp fit
    obtain ⟨second, others, rfl, -, -⟩ := List.map_eq_cons_iff.mp fit
    refine ⟨group, ['-'].intercalate (second :: others), ?_, ⟨own, ?_⟩, second :: others, fit, ?_,
      rfl⟩
    · rw [List.intercalate_cons_cons, List.append_assoc, List.singleton_append]
    · exact hex group List.mem_cons_self
    · exact fun other member => hex other (List.mem_cons_of_mem group member)
  · rintro ⟨group, rest, rfl, ⟨own, hex⟩, groups, fit, later, rfl⟩
    obtain ⟨second, others, rfl, -, -⟩ := List.map_eq_cons_iff.mp fit
    refine ⟨group :: second :: others, ?_, ?_, ?_⟩
    · rw [List.map_cons, own, fit]
    · intro other member
      rcases List.mem_cons.mp member with rfl | member
      · exact hex
      · exact later other member
    · rw [List.intercalate_cons_cons, List.append_assoc, List.singleton_append]

/-- The places of a code take exactly the groups that its shape is made of. -/
theorem fills_groups (lengths : List Nat) (cs : List Char) :
    fills ([Slot.hyphen].intercalate (lengths.map fun length => List.replicate length .digit)) cs =
      true ↔
      HasGroups lengths cs := by
  induction lengths generalizing cs with
  | nil => simp [fills_nil, HasGroups]
  | cons length lengths ih =>
      cases lengths with
      | nil =>
          rw [List.map_singleton, List.intercalate_singleton, fills_digits, hasGroups_singleton]
      | cons next lengths =>
          simp only [List.map_cons] at ih
          rw [List.map_cons, List.map_cons, List.intercalate_cons_cons, List.append_assoc,
            fills_append, hasGroups_cons_cons]
          simp only [fills_digits, List.singleton_append, fills_cons, ih, Slot.fits, beq_iff_eq]
          constructor
          · rintro ⟨group, behind, rfl, own, hyphen, rest, rfl, rfl, later⟩
            exact ⟨group, rest, rfl, own, later⟩
          · rintro ⟨group, rest, rfl, own, later⟩
            exact ⟨group, '-' :: rest, rfl, own, '-', rest, rfl, rfl, later⟩

theorem isCode_iff (cs : List Char) : IsCode cs ↔ HasCodeForm cs :=
  fills_groups groupLengths cs

theorem HasCodeForm.length {cs : List Char} (formed : HasCodeForm cs) : cs.length = shape.length :=
  length_of_fills shape cs ((isCode_iff cs).mpr formed)

/-! ## Places of a url -/

/-- A slash stands at the place, and the code directly behind it. -/
def CodeAt (url : List Char) (place : Nat) (code : List Char) : Prop :=
  HasCodeForm code ∧ ∃ before after, before.length = place ∧ url = before ++ '/' :: (code ++ after)

/-- The code stands behind a slash, and behind no slash further left stands any. -/
def IsFirst (url code : List Char) : Prop :=
  ∃ place, CodeAt url place code ∧ ∀ earlier < place, ∀ other, ¬ CodeAt url earlier other

theorem atStart?_eq_some_iff (cs code : List Char) :
    atStart? cs = some code ↔ HasCodeForm code ∧ ∃ after, cs = code ++ after := by
  constructor
  · intro found
    by_cases front : IsCode (cs.take shape.length)
    · simp only [atStart?, if_pos front, Option.some.injEq] at found
      subst found
      exact ⟨(isCode_iff _).mp front, cs.drop shape.length, (List.take_append_drop _ cs).symm⟩
    · simp [atStart?, front] at found
  · rintro ⟨formed, after, rfl⟩
    have front : (code ++ after).take shape.length = code := by
      rw [← formed.length, List.take_left]
    simp only [atStart?, front, if_pos ((isCode_iff code).mpr formed)]

theorem not_codeAt_nil (place : Nat) (code : List Char) : ¬ CodeAt [] place code := by
  rintro ⟨-, before, after, -, split⟩
  simp at split

theorem codeAt_zero (c : Char) (rest code : List Char) :
    CodeAt (c :: rest) 0 code ↔ c = '/' ∧ atStart? rest = some code := by
  rw [atStart?_eq_some_iff]
  constructor
  · rintro ⟨formed, before, after, start, split⟩
    obtain rfl := List.length_eq_zero_iff.mp start
    obtain ⟨rfl, rfl⟩ := List.cons.inj split
    exact ⟨rfl, formed, after, rfl⟩
  · rintro ⟨rfl, formed, after, rfl⟩
    exact ⟨formed, [], after, rfl, rfl⟩

theorem codeAt_succ (c : Char) (rest : List Char) (place : Nat) (code : List Char) :
    CodeAt (c :: rest) (place + 1) code ↔ CodeAt rest place code := by
  constructor
  · rintro ⟨formed, before, after, start, split⟩
    obtain ⟨first, before, rfl⟩ := List.exists_cons_of_length_eq_add_one start
    obtain ⟨-, split⟩ := List.cons.inj split
    exact ⟨formed, before, after, Nat.succ.inj start, split⟩
  · rintro ⟨formed, before, after, rfl, rfl⟩
    exact ⟨formed, c :: before, after, rfl, rfl⟩

theorem isFirst_cons {c : Char} {rest : List Char} (free : ∀ other, ¬ CodeAt (c :: rest) 0 other)
    (code : List Char) :
    IsFirst (c :: rest) code ↔ IsFirst rest code := by
  constructor
  · rintro ⟨place, found, left⟩
    cases place with
    | zero => exact absurd found (free code)
    | succ place =>
        refine ⟨place, (codeAt_succ c rest place code).mp found, ?_⟩
        intro earlier below other again
        exact left (earlier + 1) (by omega) other ((codeAt_succ c rest earlier other).mpr again)
  · rintro ⟨place, found, left⟩
    refine ⟨place + 1, (codeAt_succ c rest place code).mpr found, ?_⟩
    intro earlier below other again
    cases earlier with
    | zero => exact free other again
    | succ earlier =>
        exact left earlier (by omega) other ((codeAt_succ c rest earlier other).mp again)

theorem exists_first {url : List Char} {place : Nat} {code : List Char}
    (found : CodeAt url place code) :
    ∃ first, IsFirst url first := by
  induction place using Nat.strongRecOn generalizing code with
  | ind place ih =>
      by_cases left : ∀ earlier < place, ∀ other, ¬ CodeAt url earlier other
      · exact ⟨code, place, found, left⟩
      · simp only [not_forall, not_not] at left
        obtain ⟨earlier, below, other, again⟩ := left
        exact ih earlier below again

theorem findChars?_eq_some_iff (url code : List Char) :
    findChars? url = some code ↔ IsFirst url code := by
  induction url with
  | nil => simp [findChars?, IsFirst, not_codeAt_nil]
  | cons c rest ih =>
      by_cases slash : c = '/'
      · cases start : atStart? rest with
        | some found =>
            have here : CodeAt (c :: rest) 0 found := (codeAt_zero c rest found).mpr ⟨slash, start⟩
            rw [findChars?, if_pos slash, start]
            constructor
            · intro same
              obtain rfl := Option.some.inj same
              exact ⟨0, here, fun earlier below => absurd below (Nat.not_lt_zero earlier)⟩
            · rintro ⟨place, again, left⟩
              cases place with
              | zero => rw [← start, ((codeAt_zero c rest code).mp again).2]
              | succ place => exact absurd here (left 0 place.succ_pos found)
        | none =>
            have free : ∀ other, ¬ CodeAt (c :: rest) 0 other := by
              intro other here
              have found := ((codeAt_zero c rest other).mp here).2
              rw [start] at found
              cases found
            rw [findChars?, if_pos slash, start, isFirst_cons free code]
            exact ih
      · have free : ∀ other, ¬ CodeAt (c :: rest) 0 other :=
          fun other here => slash ((codeAt_zero c rest other).mp here).1
        rw [findChars?, if_neg slash, isFirst_cons free code]
        exact ih

theorem findChars?_eq_none_iff (url : List Char) :
    findChars? url = none ↔ ∀ place code, ¬ CodeAt url place code := by
  rw [Option.eq_none_iff_forall_ne_some]
  constructor
  · intro missing place code found
    obtain ⟨first, isFirst⟩ := exists_first found
    exact missing first ((findChars?_eq_some_iff url first).mpr isFirst)
  · intro free code found
    obtain ⟨place, here, -⟩ := (findChars?_eq_some_iff url code).mp found
    exact free place code here

end RobotConsole.Code

namespace RobotConsole.Index

theorem codeOf_eq_ok_iff (url code : String) :
    codeOf url = .ok code ↔ Code.IsFirst url.toList code.toList := by
  rw [← Code.findChars?_eq_some_iff, codeOf, Code.find?]
  cases Code.findChars? url.toList with
  | none => simp
  | some found => simp [String.ext_iff]

theorem codeOf_eq_error_iff (url : String) (fault : Fault) :
    codeOf url = .error fault ↔ fault = .noCode url ∧ ∀ place code,
      ¬ Code.CodeAt url.toList place code := by
  rw [← Code.findChars?_eq_none_iff, codeOf, Code.find?]
  cases Code.findChars? url.toList with
  | none => simp [eq_comm]
  | some found => simp

/-- The code of an address is the one behind the leftmost slash with a code directly behind it, as
it is written there.  An address without such a slash is refused, and with it comes the address as
it is. -/
theorem codeOf_gives_first_code (url : String) :
    (∀ code, codeOf url = .ok code ↔
      ∃ place, Code.CodeAt url.toList place code.toList ∧
        ∀ earlier < place, ∀ other, ¬ Code.CodeAt url.toList earlier other) ∧
    ∀ fault, codeOf url = .error fault ↔
      fault = .noCode url ∧ ∀ place code, ¬ Code.CodeAt url.toList place code :=
  ⟨codeOf_eq_ok_iff url, codeOf_eq_error_iff url⟩

/-! A group that is too short, a code behind another sign than a slash, and two codes, the first of
mixed case. -/

example :
    codeOf ("http://x/1111111-1111-1111-1111-111111111111" ++
      "?id=22222222-2222-2222-2222-222222222222" ++
      "/3F2504E0-4f89-11D3-9a0c-0305E82C3301/44444444-4444-4444-4444-444444444444") =
      .ok "3F2504E0-4f89-11D3-9a0c-0305E82C3301" := by
  decide +kernel

end RobotConsole.Index
