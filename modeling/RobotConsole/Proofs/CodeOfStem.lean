import RobotConsole.Code
import RobotConsole.Proofs.Trimming

/-!
# The code of an address and of its stem

No place of a code is a slash, so slashes at the end of an address can neither complete a code nor
begin one.  The code found in an address is therefore the code found in its stem.
-/

set_option autoImplicit false

namespace RobotConsole.Code

theorem slash_fits_no_slot (slot : Slot) : slot.fits '/' = false := by
  cases slot <;> decide

theorem length_of_fills (slots : List Slot) (cs : List Char) (filled : fills slots cs = true) :
    cs.length = slots.length := by
  induction slots generalizing cs with
  | nil =>
      cases cs with
      | nil => rfl
      | cons c cs => simp [fills] at filled
  | cons slot slots ih =>
      cases cs with
      | nil => simp [fills] at filled
      | cons c cs =>
          simp only [fills, Bool.and_eq_true] at filled
          simp [ih cs filled.2]

theorem no_slash_of_fills (slots : List Slot) (cs : List Char) (filled : fills slots cs = true) :
    '/' ∉ cs := by
  induction slots generalizing cs with
  | nil =>
      cases cs with
      | nil => exact List.not_mem_nil
      | cons c cs => simp [fills] at filled
  | cons slot slots ih =>
      cases cs with
      | nil => simp [fills] at filled
      | cons c cs =>
          simp only [fills, Bool.and_eq_true] at filled
          have headFits : c ≠ '/' := by
            intro slash
            subst slash
            rw [slash_fits_no_slot slot] at filled
            exact absurd filled.1 Bool.false_ne_true
          intro member
          rcases List.mem_cons.mp member with head | tail
          · exact headFits head.symm
          · exact ih cs filled.2 tail

theorem not_isCode_of_short (cs : List Char) (short : cs.length < shape.length) : ¬ IsCode cs := by
  intro code
  have full := length_of_fills shape cs code
  omega

/-- Slashes behind a text do not make it start with a code. -/
theorem atStart?_append_slashes (cs slashes : List Char) (allSlashes : ∀ c ∈ slashes, c = '/') :
    atStart? (cs ++ slashes) = atStart? cs := by
  unfold atStart?
  by_cases long : shape.length ≤ cs.length
  · rw [List.take_append_of_le_length long]
  · have short : cs.length < shape.length := Nat.lt_of_not_le long
    have plain : ¬ IsCode (cs.take shape.length) := by
      apply not_isCode_of_short
      rw [List.length_take]
      omega
    have extended : ¬ IsCode ((cs ++ slashes).take shape.length) := by
      intro code
      have full := length_of_fills shape _ code
      have noSlash := no_slash_of_fills shape _ code
      rw [List.take_append] at full noSlash
      cases taken : slashes.take (shape.length - cs.length) with
      | nil =>
          rw [taken, List.append_nil, List.length_take] at full
          omega
      | cons c rest =>
          have member : c ∈ slashes.take (shape.length - cs.length) := by
            rw [taken]
            exact List.mem_cons_self
          have slash : c = '/' := allSlashes c (List.mem_of_mem_take member)
          exact noSlash (List.mem_append_right _ (slash ▸ member))
    simp only [plain, extended, if_false]

theorem findChars?_slashes (slashes : List Char) (allSlashes : ∀ c ∈ slashes, c = '/') :
    findChars? slashes = none := by
  induction slashes with
  | nil => rfl
  | cons c rest ih =>
      have tail : ∀ c ∈ rest, c = '/' :=
        fun c member => allSlashes c (List.mem_cons_of_mem _ member)
      have none_starts : atStart? rest = none := by
        have bare := atStart?_append_slashes [] rest tail
        rw [List.nil_append] at bare
        rw [bare]
        decide
      simp only [findChars?, none_starts, ih tail, ite_self]

theorem findChars?_append_slashes (cs slashes : List Char) (allSlashes : ∀ c ∈ slashes, c = '/') :
    findChars? (cs ++ slashes) = findChars? cs := by
  induction cs with
  | nil => exact findChars?_slashes slashes allSlashes
  | cons c rest ih =>
      simp only [List.cons_append, findChars?, atStart?_append_slashes rest slashes allSlashes, ih]

/-- The code of an address does not depend on the slashes at its end. -/
@[simp]
theorem find?_stem (url : String) : find? (Address.stem url) = find? url := by
  obtain ⟨slashes, split, allSlashes⟩ := Address.exists_slashes url.toList
  have same : findChars? url.toList = findChars? (Address.stemChars url.toList) := by
    conv_lhs => rw [split]
    exact findChars?_append_slashes _ slashes allSlashes
  unfold find?
  rw [Address.toList_stem, same]

end RobotConsole.Code
