import Mathlib.Data.List.DropRight
import RobotConsole.Address

/-!
# Laws of trimming

Cutting a run of characters off the end of a text leaves nothing more to cut, and a text trimmed at
both ends is the same whatever blanks stood around it.  For addresses this means that an address
without slashes at its end is its own stem, and that what lies under an address does not depend on
the slashes at its end.
-/

set_option autoImplicit false

namespace RobotConsole.Text

theorem dropEndWhile_eq_rdropWhile (drop : Char → Bool) (cs : List Char) :
    dropEndWhile drop cs = cs.rdropWhile drop := rfl

theorem dropEndWhile_idempotent (drop : Char → Bool) (cs : List Char) :
    dropEndWhile drop (dropEndWhile drop cs) = dropEndWhile drop cs := by
  simp only [dropEndWhile_eq_rdropWhile]
  exact List.rdropWhile_idempotent drop cs

theorem exists_dropped (drop : Char → Bool) (cs : List Char) :
    ∃ dropped, cs = dropEndWhile drop cs ++ dropped ∧ ∀ c ∈ dropped, drop c = true := by
  refine ⟨cs.rtakeWhile drop, ?_, ?_⟩
  · rw [dropEndWhile_eq_rdropWhile, List.rdropWhile_append_rtakeWhile]
  · intro c member
    exact List.mem_rtakeWhile_imp member

theorem not_dropped_of_head? {drop : Char → Bool} {cs : List Char} {c : Char}
    (head : (cs.dropWhile drop).head? = some c) : drop c = false := by
  have stopped := List.head?_dropWhile_not drop cs
  rw [head] at stopped
  exact stopped

theorem dropEndWhile_eq_nil_iff (drop : Char → Bool) (cs : List Char) :
    dropEndWhile drop cs = [] ↔ ∀ c ∈ cs, drop c = true := by
  rw [dropEndWhile_eq_rdropWhile, List.rdropWhile_eq_nil_iff]

theorem dropEndWhile_append_of_ne_nil (drop : Char → Bool) (front : List Char) {back : List Char}
    (kept : dropEndWhile drop back ≠ []) :
    dropEndWhile drop (front ++ back) = front ++ dropEndWhile drop back := by
  have someKept : (back.reverse.dropWhile drop).isEmpty ≠ true := by
    intro noneKept
    apply kept
    rw [dropEndWhile, List.isEmpty_iff.mp noneKept, List.reverse_nil]
  rw [dropEndWhile, List.reverse_append, List.dropWhile_append, if_neg someKept,
    List.reverse_append, List.reverse_reverse, dropEndWhile]

theorem dropWhile_append_of_ne_nil (drop : Char → Bool) {front : List Char}
    (kept : front.dropWhile drop ≠ [])
    (back : List Char) : (front ++ back).dropWhile drop = front.dropWhile drop ++ back := by
  rw [List.dropWhile_append, if_neg]
  simpa using kept

theorem dropEndWhile_dropWhile_eq_nil (drop : Char → Bool) {cs : List Char}
    (nothing : dropEndWhile drop (cs.dropWhile drop) = []) : cs.dropWhile drop = [] := by
  have dropped := (dropEndWhile_eq_nil_iff drop _).mp nothing
  cases left : cs.dropWhile drop with
  | nil => rfl
  | cons c rest =>
      have kept : drop c = false := not_dropped_of_head? (by rw [left]; rfl)
      rw [left] at dropped
      rw [dropped c List.mem_cons_self] at kept
      exact absurd kept.symm Bool.false_ne_true

/-- It does not matter which end is cut first. -/
theorem dropWhile_dropEndWhile (drop : Char → Bool) (cs : List Char) :
    (dropEndWhile drop cs).dropWhile drop = dropEndWhile drop (cs.dropWhile drop) := by
  have front : ∀ c ∈ cs.takeWhile drop, drop c = true := fun c => List.mem_takeWhile_imp
  cases middle : dropEndWhile drop (cs.dropWhile drop) with
  | nil =>
      have all := List.dropWhile_eq_nil_iff.mp (dropEndWhile_dropWhile_eq_nil drop middle)
      rw [(dropEndWhile_eq_nil_iff drop cs).mpr all]
      rfl
  | cons c rest =>
      -- the first character that stays at the head stays at the end, too
      have whole : dropEndWhile drop cs = cs.takeWhile drop ++ c :: rest := by
        have present : dropEndWhile drop (cs.dropWhile drop) ≠ [] := by simp [middle]
        have split := dropEndWhile_append_of_ne_nil drop (cs.takeWhile drop) present
        rwa [List.takeWhile_append_dropWhile, middle] at split
      obtain ⟨dropped, behind, -⟩ := exists_dropped drop (cs.dropWhile drop)
      have kept : drop c = false := not_dropped_of_head? (by rw [behind, middle]; rfl)
      rw [whole, List.dropWhile_append_of_pos front, List.dropWhile_cons, if_neg (by simp [kept])]

theorem trimChars_blanks_around (lead cs trail : List Char)
    (leadBlank : ∀ c ∈ lead, isBlank c = true) (trailBlank : ∀ c ∈ trail, isBlank c = true) :
    trimChars (lead ++ cs ++ trail) = trimChars cs := by
  unfold trimChars
  rw [List.append_assoc, List.dropWhile_append_of_pos leadBlank, List.dropWhile_append]
  split
  · -- nothing but blanks: both sides are empty
    rename_i allBlank
    have left : trail.dropWhile isBlank = [] := List.dropWhile_eq_nil_iff.mpr trailBlank
    have right : cs.dropWhile isBlank = [] := List.isEmpty_iff.mp allBlank
    rw [left, right]
  · exact dropEndWhile_append_of_all isBlank _ trail trailBlank

def IsBlank (text : String) : Prop :=
  ∀ c ∈ text.toList, isBlank c = true

instance (text : String) : Decidable (IsBlank text) :=
  List.decidableBAll (fun c => isBlank c = true) text.toList

theorem trim_blanks_around (lead text trail : String) (leadBlank : IsBlank lead)
    (trailBlank : IsBlank trail) :
    trim (lead ++ text ++ trail) = trim text := by
  unfold trim
  rw [String.toList_append, String.toList_append,
    trimChars_blanks_around lead.toList text.toList trail.toList leadBlank trailBlank]

end RobotConsole.Text

namespace RobotConsole.Address

theorem stemChars_stemChars (url : List Char) : stemChars (stemChars url) = stemChars url :=
  Text.dropEndWhile_idempotent isSlash url

@[simp]
theorem toList_stem (url : String) : (stem url).toList = stemChars url.toList := by
  simp [stem]

/-- A stem has no slashes left at its end. -/
@[simp]
theorem stem_stem (url : String) : stem (stem url) = stem url := by
  simp only [stem, String.toList_ofList, stemChars_stemChars]

/-- An address is its stem with slashes behind it. -/
theorem exists_slashes (url : List Char) :
    ∃ slashes, url = stemChars url ++ slashes ∧ ∀ c ∈ slashes, c = '/' := by
  obtain ⟨slashes, split, allSlashes⟩ := Text.exists_dropped isSlash url
  refine ⟨slashes, split, ?_⟩
  intro c member
  have slash := allSlashes c member
  simpa [isSlash] using slash

/-- The address is the url with slashes behind it, and the url ends with none. -/
structure IsStem (url address : String) : Prop where
  slashes : ∃ count, address.toList = url.toList ++ List.replicate count '/'
  bare : url.toList.getLast? ≠ some '/'

theorem isStem_iff {url address : String} : IsStem url address ↔ stem address = url := by
  constructor
  · rintro ⟨⟨count, split⟩, bare⟩
    have slashes : ∀ c ∈ List.replicate count '/', isSlash c = true := by
      intro c member
      rw [List.eq_of_mem_replicate member]
      rfl
    have kept : url.toList.rdropWhile isSlash = url.toList := by
      rw [List.rdropWhile_eq_self_iff]
      intro present
      have last := bare
      rw [List.getLast?_eq_some_getLast present] at last
      simpa [isSlash] using last
    rw [← String.toList_inj, toList_stem, split, stemChars,
      Text.dropEndWhile_append_of_all isSlash _ _ slashes]
    exact kept
  · rintro rfl
    obtain ⟨slashes, split, allSlashes⟩ := exists_slashes address.toList
    refine ⟨⟨slashes.length, ?_⟩, ?_⟩
    · rw [toList_stem, ← List.eq_replicate_of_mem allSlashes]
      exact split
    · intro ends
      -- one more slash would be cut off the stem, which would then be longer than itself
      obtain ⟨front, same⟩ := List.getLast?_eq_some_iff.mp ends
      have again := stemChars_stemChars address.toList
      rw [toList_stem] at same
      rw [same, stemChars, Text.dropEndWhile_eq_rdropWhile,
        List.rdropWhile_concat_pos _ _ _ rfl] at again
      have shorter := (List.rdropWhile_prefix isSlash (l := front)).length_le
      rw [again, List.length_append] at shorter
      exact absurd shorter (by simp)

/-- The slashes at the end of a base do not count. -/
@[simp]
theorem join_stem (base relative : String) : join (stem base) relative = join base relative := by
  simp only [join, joinChars, toList_stem, stemChars_stemChars]

/-- Under an address lies the stem, one slash, and the relative part, if that does not start with a
slash itself. -/
theorem join_eq_append (base relative : String)
    (bare : relative.toList.dropWhile isSlash = relative.toList) :
    join base relative = stem base ++ "/" ++ relative := by
  apply String.toList_inj.mp
  simp [join, joinChars, bare]

end RobotConsole.Address
