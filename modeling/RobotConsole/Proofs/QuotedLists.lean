import Mathlib.Tactic.SplitIfs
import RobotConsole.Text.Quoted

/-!
# Quoted lists tell what was quoted

A quoted character shows by itself where it ends and which character it stands for, whatever is
written behind it.  The closing quote begins no quoted character, and the closing bracket no further
member of a list, so the same holds of quoted texts and of quoted lists: two lists with one quoted
form are the same list.  All characters of a quoted form are marked, so it stays on one line.
-/

set_option autoImplicit false

namespace RobotConsole.Text

/-! ## Hexadecimal digits -/

theorem digitChar_reads_back : ∀ digit < 16,
    isHexDigit digit.digitChar = true ∧ hexValue digit.digitChar = digit := by
  decide

theorem isHexDigit_of_mem_toDigits (number : Nat) :
    ∀ c ∈ Nat.toDigits 16 number, isHexDigit c = true := by
  induction number using Nat.strongRecOn with
  | ind number ih =>
      intro c member
      rw [Nat.toDigits_eq_if (by decide)] at member
      split at member
      · rename_i small
        rw [List.mem_singleton.mp member]
        exact (digitChar_reads_back number small).1
      · rename_i large
        rcases List.mem_append.mp member with front | last
        · exact ih (number / 16) (by omega) c front
        · rw [List.mem_singleton.mp last]
          exact (digitChar_reads_back (number % 16) (by omega)).1

theorem hexDigitsValue_concat (digits : List Char) (digit : Char) :
    hexDigitsValue (digits ++ [digit]) = 16 * hexDigitsValue digits + hexValue digit := by
  simp [hexDigitsValue]

theorem hexDigitsValue_toDigits (number : Nat) :
    hexDigitsValue (Nat.toDigits 16 number) = number := by
  induction number using Nat.strongRecOn with
  | ind number ih =>
      rw [Nat.toDigits_eq_if (by decide)]
      split
      · rename_i small
        simp [hexDigitsValue, (digitChar_reads_back number small).2]
      · rename_i large
        have last := (digitChar_reads_back (number % 16) (by omega)).2
        rw [hexDigitsValue_concat, ih (number / 16) (by omega), last]
        omega

/-! ## Writing that shows where it ends -/

/-- What is written tells the item and its own end, whatever comes behind it. -/
def SelfDelimiting {Item : Type} (write : Item → List Char) : Prop :=
  ∀ item other after rest, write item ++ after = write other ++ rest → item = other ∧ after = rest

theorem SelfDelimiting.closed {Item : Type} {write : Item → List Char} (ends : SelfDelimiting write)
    (close : Char) (opens : ∀ item, ∃ c cs, write item = c :: cs ∧ c ≠ close) :
    SelfDelimiting fun items : List Item => items.flatMap write ++ [close] := by
  intro items
  induction items with
  | nil =>
      intro others after rest same
      cases others with
      | nil => simpa using same
      | cons other others =>
          obtain ⟨c, cs, written, apart⟩ := opens other
          simp only [List.flatMap_nil, List.flatMap_cons, written, List.cons_append,
            List.nil_append, List.cons.injEq] at same
          exact absurd same.1.symm apart
  | cons item items ih =>
      intro others after rest same
      cases others with
      | nil =>
          obtain ⟨c, cs, written, apart⟩ := opens item
          simp only [List.flatMap_nil, List.flatMap_cons, written, List.cons_append,
            List.nil_append, List.cons.injEq] at same
          exact absurd same.1 apart
      | cons other others =>
          simp only [List.flatMap_cons, List.append_assoc] at same
          obtain ⟨rfl, later⟩ := ends item other _ _ same
          obtain ⟨rfl, behind⟩ :=
            ih others after rest (by simpa only [List.append_assoc] using later)
          exact ⟨rfl, behind⟩

/-! ## Characters -/

def unquoteChar? : List Char → Option (Char × List Char)
  | '\\' :: '0' :: rest => some ('\x00', rest)
  | '\\' :: 't' :: rest => some ('\t', rest)
  | '\\' :: 'r' :: rest => some ('\r', rest)
  | '\\' :: 'n' :: rest => some ('\n', rest)
  | '\\' :: 'u' :: '\x7b' :: rest =>
      some (Char.ofNat (hexDigitsValue (rest.takeWhile isHexDigit)),
        (rest.dropWhile isHexDigit).drop 1)
  | '\\' :: c :: rest => some (c, rest)
  | c :: rest => some (c, rest)
  | [] => none

theorem unquoteChar?_number (c : Char) (rest : List Char) :
    unquoteChar? (['\\', 'u', '\x7b'] ++ Nat.toDigits 16 c.toNat ++ ['\x7d'] ++ rest) =
      some (c, rest) := by
  have digits := isHexDigit_of_mem_toDigits c.toNat
  have close : ¬ isHexDigit '\x7d' = true := by decide
  have front : (Nat.toDigits 16 c.toNat ++ '\x7d' :: rest).takeWhile isHexDigit =
      Nat.toDigits 16 c.toNat := by
    rw [List.takeWhile_append_of_pos digits, List.takeWhile_cons_of_neg close, List.append_nil]
  have back : (Nat.toDigits 16 c.toNat ++ '\x7d' :: rest).dropWhile isHexDigit =
      '\x7d' :: rest := by
    rw [List.dropWhile_append_of_pos digits, List.dropWhile_cons_of_neg close]
  simp only [List.cons_append, List.nil_append, List.append_assoc, unquoteChar?, front, back,
    hexDigitsValue_toDigits, Char.ofNat_toNat, List.drop_one, List.tail_cons]

theorem unquoteChar?_quoteChar (c : Char) (rest : List Char) :
    unquoteChar? (quoteChar c ++ rest) = some (c, rest) := by
  unfold quoteChar
  split_ifs with nul tab carriage feed quote backslash unmarked
  · rw [nul]; rfl
  · rw [tab]; rfl
  · rw [carriage]; rfl
  · rw [feed]; rfl
  · rw [quote]; rfl
  · rw [backslash]; rfl
  · exact unquoteChar?_number c rest
  · rw [List.singleton_append]
    unfold unquoteChar?
    split <;> simp_all

theorem selfDelimiting_quoteChar : SelfDelimiting quoteChar := by
  intro c other after rest same
  have read := unquoteChar?_quoteChar c after
  rw [same, unquoteChar?_quoteChar] at read
  simpa [eq_comm] using read

theorem quoteChar_opens (c : Char) : ∃ head tail, quoteChar c = head :: tail ∧ head ≠ '"' := by
  unfold quoteChar
  split_ifs with nul tab carriage feed quote backslash unmarked
  case neg => exact ⟨c, [], rfl, quote⟩
  all_goals exact ⟨'\\', _, rfl, by decide⟩

/-! ## Texts and lists -/

theorem selfDelimiting_quoteChars : SelfDelimiting quoteChars := by
  intro cs other after rest same
  simp only [quoteChars, List.append_assoc, List.append_cancel_left_eq] at same
  exact selfDelimiting_quoteChar.closed '"' quoteChar_opens cs other after rest
    (by simpa using same)

def quoteMember (text : String) : List Char :=
  [',', ' '] ++ quoteChars text.toList

theorem quoteRest_eq_flatMap (texts : List String) :
    quoteRest texts = texts.flatMap quoteMember := by
  induction texts with
  | nil => rfl
  | cons text rest ih => simp only [quoteRest, ih, quoteMember, List.flatMap_cons]

theorem selfDelimiting_quoteMember : SelfDelimiting quoteMember := by
  intro text other after rest same
  simp only [quoteMember, List.append_assoc, List.append_cancel_left_eq] at same
  obtain ⟨texts, behind⟩ := selfDelimiting_quoteChars text.toList other.toList after rest same
  exact ⟨String.toList_inj.mp texts, behind⟩

theorem selfDelimiting_quoteRest : SelfDelimiting fun texts => quoteRest texts ++ [']'] := by
  have members := selfDelimiting_quoteMember.closed ']' fun text =>
      ⟨',', ' ' :: quoteChars text.toList, rfl, by decide⟩
  simpa only [quoteRest_eq_flatMap] using members

theorem quoteListChars_inj (texts others : List String)
    (same : quoteListChars texts = quoteListChars others) :
    texts = others := by
  cases texts with
  | nil =>
      cases others with
      | nil => rfl
      | cons other others => simp [quoteListChars, quoteChars] at same
  | cons text texts =>
      cases others with
      | nil => simp [quoteListChars, quoteChars] at same
      | cons other others =>
          simp only [quoteListChars, List.append_assoc, List.append_cancel_left_eq] at same
          obtain ⟨first, later⟩ := selfDelimiting_quoteChars text.toList other.toList _ _ same
          obtain ⟨members, -⟩ := selfDelimiting_quoteRest texts others [] [] (by simpa using later)
          rw [String.toList_inj.mp first, members]

/-! ## Marked characters -/

def isSign (c : Char) : Bool :=
  decide (0x20 ≤ c.toNat) && decide (c.toNat < 0x7F)

theorem marked_of_signs {cs : List Char} (signs : cs.all isSign = true) :
    ∀ c ∈ cs, isUnmarked c = false := by
  intro c member
  have sign := List.all_eq_true.mp signs c member
  simp only [isSign, Bool.and_eq_true, decide_eq_true_eq] at sign
  rw [isUnmarked, if_neg (Nat.not_lt.mpr sign.1), if_pos sign.2]

theorem isSign_of_isHexDigit {c : Char} (hex : isHexDigit c = true) : isSign c = true := by
  simp [isHexDigit, Char.isDigit, Char.le_def, UInt32.le_iff_toNat_le] at hex
  simp only [isSign, Bool.and_eq_true, decide_eq_true_eq]
  omega

theorem quoteChar_marked (c : Char) : ∀ shown ∈ quoteChar c, isUnmarked shown = false := by
  unfold quoteChar
  split_ifs with nul tab carriage feed quote backslash unmarked
  · exact marked_of_signs rfl
  · exact marked_of_signs rfl
  · exact marked_of_signs rfl
  · exact marked_of_signs rfl
  · exact marked_of_signs rfl
  · exact marked_of_signs rfl
  · have digits : (Nat.toDigits 16 c.toNat).all isSign = true := by
      rw [List.all_eq_true]
      intro digit member
      exact isSign_of_isHexDigit (isHexDigit_of_mem_toDigits c.toNat digit member)
    have lead : ['\\', 'u', '\x7b'].all isSign = true := rfl
    have close : ['\x7d'].all isSign = true := rfl
    apply marked_of_signs
    rw [List.all_append, List.all_append, lead, digits, close]
    rfl
  · simpa using unmarked

theorem quoteChars_marked (cs : List Char) : ∀ shown ∈ quoteChars cs, isUnmarked shown = false := by
  have quote : ∀ shown ∈ ['"'], isUnmarked shown = false := marked_of_signs rfl
  have inside : ∀ shown ∈ cs.flatMap quoteChar, isUnmarked shown = false := by
    intro shown member
    obtain ⟨c, -, own⟩ := List.mem_flatMap.mp member
    exact quoteChar_marked c shown own
  exact List.forall_mem_append.mpr ⟨List.forall_mem_append.mpr ⟨quote, inside⟩, quote⟩

theorem quoteRest_marked (texts : List String) :
    ∀ shown ∈ quoteRest texts, isUnmarked shown = false := by
  have comma : ∀ shown ∈ [',', ' '], isUnmarked shown = false := marked_of_signs rfl
  intro shown member
  rw [quoteRest_eq_flatMap] at member
  obtain ⟨text, -, own⟩ := List.mem_flatMap.mp member
  exact List.forall_mem_append.mpr ⟨comma, quoteChars_marked text.toList⟩ shown own

theorem quoteListChars_marked (texts : List String) :
    ∀ shown ∈ quoteListChars texts, isUnmarked shown = false := by
  cases texts with
  | nil => exact marked_of_signs rfl
  | cons text rest =>
      have opening : ∀ shown ∈ ['['], isUnmarked shown = false := marked_of_signs rfl
      have closing : ∀ shown ∈ [']'], isUnmarked shown = false := marked_of_signs rfl
      have front := List.forall_mem_append.mpr ⟨opening, quoteChars_marked text.toList⟩
      have members := List.forall_mem_append.mpr ⟨front, quoteRest_marked rest⟩
      exact List.forall_mem_append.mpr ⟨members, closing⟩

/-- Whatever characters the texts hold, their quoted list is the quoted list of no other texts, and
lies on one line. -/
theorem quoteList_tells_texts (texts others : List String) :
    (quoteList texts = quoteList others ↔ texts = others) ∧
    '\n' ∉ (quoteList texts).toList ∧ '\r' ∉ (quoteList texts).toList := by
  have marked := quoteListChars_marked texts
  refine ⟨⟨?_, ?_⟩, ?_, ?_⟩
  · intro same
    exact quoteListChars_inj texts others (String.ofList_inj.mp same)
  · rintro rfl
    rfl
  · intro member
    rw [quoteList, String.toList_ofList] at member
    exact absurd (marked '\n' member) (by decide)
  · intro member
    rw [quoteList, String.toList_ofList] at member
    exact absurd (marked '\r' member) (by decide)

/-! A separator inside a member is not one between two members. -/

example : quoteList ["a\", \"b"] = "[\"a\\\", \\\"b\"]" ∧
    quoteList ["a", "b"] = "[\"a\", \"b\"]" := by
  decide

end RobotConsole.Text
