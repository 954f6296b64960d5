import Mathlib.Data.Bool.AllAny
import Mathlib.Data.List.TakeWhile
import RobotConsole.Proofs.TomlNumerals

/-!
# How texts are written in TOML

A text may stand between double quotes or between apostrophes, on one line or, between three of
them, on several.  Between double quotes characters may be escaped, and on several lines a backslash
at the end of a line joins the next line to it.  Each of these forms is read as the text that it
spells, in front of anything that does not begin with a further mark.
-/

set_option autoImplicit false

namespace RobotConsole.Toml

/-! ## Forms -/

def Gap (c : Char) : Prop :=
  c = ' ' ∨ c = '\t'

instance (c : Char) : Decidable (Gap c) :=
  inferInstanceAs (Decidable (c = ' ' ∨ c = '\t'))

def InLine (c : Char) : Prop :=
  c = '\t' ∨ 32 ≤ c.toNat ∧ c.toNat ≠ 127

instance (c : Char) : Decidable (InLine c) :=
  inferInstanceAs (Decidable (c = '\t' ∨ 32 ≤ c.toNat ∧ c.toNat ≠ 127))

/-- An escape behind its backslash, and the character that it stands for. -/
inductive Escapes : List Char → Char → Prop
  | backspace : Escapes ['b'] '\x08'
  | tab : Escapes ['t'] '\t'
  | lineFeed : Escapes ['n'] '\n'
  | formFeed : Escapes ['f'] '\x0C'
  | carriageReturn : Escapes ['r'] '\r'
  | quote : Escapes ['"'] '"'
  | backslash : Escapes ['\\'] '\\'
  | short {digits : List Char} {c : Char} (four : digits.length = 4)
      (numeral : Numeral 16 digits c.toNat) : Escapes ('u' :: digits) c
  | long {digits : List Char} {c : Char} (eight : digits.length = 8)
      (numeral : Numeral 16 digits c.toNat) : Escapes ('U' :: digits) c

inductive BasicBody : List Char → List Char → Prop
  | nil : BasicBody [] []
  | plain {c : Char} {body chars : List Char} (inLine : InLine c) (notQuote : c ≠ '"')
      (notEscape : c ≠ '\\') (more : BasicBody body chars) : BasicBody (c :: body) (c :: chars)
  | escaped {code : List Char} {c : Char} {body chars : List Char} (escape : Escapes code c)
      (more : BasicBody body chars) : BasicBody ('\\' :: (code ++ body)) (c :: chars)

def IsLiteral (chars : List Char) : Prop :=
  ∀ c ∈ chars, InLine c ∧ c ≠ '\x27'

instance (chars : List Char) : Decidable (IsLiteral chars) :=
  List.decidableBAll (fun c => InLine c ∧ c ≠ '\x27') chars

def IsBreak (cs : List Char) : Prop :=
  cs = ['\n'] ∨ cs = ['\r', '\n']

inductive Blanks : List Char → Prop
  | nil : Blanks []
  | gap {c : Char} {blanks : List Char} (gap : Gap c) (more : Blanks blanks) : Blanks (c :: blanks)
  | lineBreak {cs blanks : List Char} (isBreak : IsBreak cs) (more : Blanks blanks) :
      Blanks (cs ++ blanks)

def Solid (cs : List Char) : Prop :=
  ∀ c, cs.head? = some c → ¬ Gap c ∧ c ≠ '\n' ∧ c ≠ '\r'

/-- What stands between the marks of a text over several lines, behind so many single marks, and the
text that it spells. -/
inductive LinesBody (mark : Char) (escapes : Bool) : Nat → List Char → List Char → Prop
  | nil {run : Nat} : LinesBody mark escapes run [] []
  | mark {run : Nat} {body chars : List Char} (few : run < 2)
      (more : LinesBody mark escapes (run + 1) body chars) :
      LinesBody mark escapes run (mark :: body) (mark :: chars)
  | plain {run : Nat} {c : Char} {body chars : List Char} (inLine : InLine c) (notMark : c ≠ mark)
      (notEscape : escapes = true → c ≠ '\\') (more : LinesBody mark escapes 0 body chars) :
      LinesBody mark escapes run (c :: body) (c :: chars)
  | lineBreak {run : Nat} {cs body chars : List Char} (isBreak : IsBreak cs)
      (more : LinesBody mark escapes 0 body chars) :
      LinesBody mark escapes run (cs ++ body) ('\n' :: chars)
  | escaped {run : Nat} {code : List Char} {c : Char} {body chars : List Char}
      (may : escapes = true)
      (escape : Escapes code c) (more : LinesBody mark escapes 0 body chars) :
      LinesBody mark escapes run ('\\' :: (code ++ body)) (c :: chars)
  | joined {run : Nat} {gaps cs blanks body chars : List Char} (may : escapes = true)
      (allGaps : ∀ c ∈ gaps, Gap c) (isBreak : IsBreak cs) (areBlanks : Blanks blanks)
      (solid : Solid body) (more : LinesBody mark escapes 0 body chars) :
      LinesBody mark escapes run ('\\' :: (gaps ++ (cs ++ (blanks ++ body)))) chars

/-- The break right after the opening marks, which does not count; without one the text begins with
no break. -/
def OpensLines (first body : List Char) : Prop :=
  IsBreak first ∨ first = [] ∧ ∀ c, body.head? = some c → c ≠ '\n' ∧ c ≠ '\r'

inductive SpellsText : List Char → List Char → Prop
  | basic {body chars : List Char} (spells : BasicBody body chars) :
    SpellsText ('"' :: (body ++ ['"'])) chars
  | literal {chars : List Char} (isLiteral : IsLiteral chars) :
      SpellsText ('\x27' :: (chars ++ ['\x27'])) chars
  | basicLines {first body chars : List Char} (opens : OpensLines first body)
      (spells : LinesBody '"' true 0 body chars) :
      SpellsText ('"' :: '"' :: '"' :: (first ++ (body ++ ['"', '"', '"']))) chars
  | literalLines {first body chars : List Char} (opens : OpensLines first body)
      (spells : LinesBody '\x27' false 0 body chars) :
      SpellsText ('\x27' :: '\x27' :: '\x27' :: (first ++ (body ++ ['\x27', '\x27', '\x27']))) chars

/-! ## Characters -/

@[simp]
theorem isGap_iff (c : Char) : isGap c = true ↔ Gap c := by
  simp [isGap, Gap]

@[simp]
theorem isLineChar_iff (c : Char) : isLineChar c = true ↔ InLine c := by
  simp [isLineChar, InLine]

/-! ## Escapes -/

theorem readNumberedChar_append {digits : List Char} {c : Char} {count : Nat}
    (length : digits.length = count) (numeral : Numeral 16 digits c.toNat) (rest : List Char) :
    readNumberedChar count (digits ++ rest) = some (c, rest) := by
  have hex : digits.all Text.isHexDigit = true := List.all_eq_true.mpr numeral.allHex
  have value : Text.hexDigitsValue digits = c.toNat :=
    numeral.digitsIn_eq (by decide) (by decide)
  have front : (digits ++ rest).take count = digits := by rw [← length, List.take_left]
  have back : (digits ++ rest).drop count = rest := by rw [← length, List.drop_left]
  have valid : c.toNat.isValidChar := c.valid
  simp only [readNumberedChar, front, back, length, hex, value, valid, and_self, if_true,
    Char.ofNat_toNat]

theorem Escapes.read {code : List Char} {c : Char} (escape : Escapes code c) (rest : List Char) :
    readEscape (code ++ rest) = some (c, rest) := by
  cases escape with
  | short four numeral => exact readNumberedChar_append four numeral rest
  | long eight numeral => exact readNumberedChar_append eight numeral rest
  | backspace | tab | lineFeed | formFeed | carriageReturn | quote | backslash => rfl

theorem Escapes.solid {code : List Char} {c : Char} (escape : Escapes code c) (rest : List Char) :
    Solid (code ++ rest) := by
  cases escape <;> rintro d ⟨⟩ <;> decide

/-! ## One line -/

theorem BasicBody.read {body chars : List Char} (spells : BasicBody body chars) (fuel : Nat)
    (enough : body.length < fuel)
    (rest : List Char) : readBasic fuel (body ++ '"' :: rest) = some (chars, rest) := by
  induction spells generalizing fuel with
  | nil =>
      obtain ⟨fuel, rfl⟩ := Nat.exists_eq_add_of_lt enough
      simp [readBasic]
  | plain inLine notQuote notEscape more ih =>
      obtain ⟨fuel, rfl⟩ := Nat.exists_eq_add_one.mpr (show 0 < fuel by omega)
      rw [List.length_cons] at enough
      simp [readBasic, notQuote, notEscape, inLine, ih fuel (by omega)]
  | escaped escape more ih =>
      obtain ⟨fuel, rfl⟩ := Nat.exists_eq_add_one.mpr (show 0 < fuel by omega)
      rw [List.length_cons, List.length_append] at enough
      simp [readBasic, escape.read, ih fuel (by omega)]

theorem IsLiteral.read {chars : List Char} (isLiteral : IsLiteral chars) (rest : List Char) :
    readLiteral (chars ++ '\x27' :: rest) = some (chars, rest) := by
  induction chars with
  | nil => simp [readLiteral]
  | cons c chars ih =>
      obtain ⟨⟨inLine, notMark⟩, others⟩ := List.forall_mem_cons.mp isLiteral
      simp [readLiteral, notMark, inLine, ih others]

/-! ## Gaps and breaks -/

theorem IsBreak.length_pos {cs : List Char} (isBreak : IsBreak cs) : 0 < cs.length := by
  rcases isBreak with rfl | rfl <;> decide

theorem afterBreak?_break {cs : List Char} (isBreak : IsBreak cs) (rest : List Char) :
    afterBreak? (cs ++ rest) = some rest := by
  rcases isBreak with rfl | rfl <;> rfl

theorem afterBreak?_of_other {c : Char} (notFeed : c ≠ '\n') (notReturn : c ≠ '\r')
    (rest : List Char) :
    afterBreak? (c :: rest) = none := by
  simp [afterBreak?, notFeed, notReturn]

theorem Solid.afterBreak?_eq {cs : List Char} (solid : Solid cs) : afterBreak? cs = none := by
  cases cs with
  | nil => rfl
  | cons c cs => exact afterBreak?_of_other (solid c rfl).2.1 (solid c rfl).2.2 cs

theorem Solid.skipGaps_eq {cs : List Char} (solid : Solid cs) : skipGaps cs = cs := by
  cases cs with
  | nil => rfl
  | cons c cs => simp [skipGaps, (solid c rfl).1]

theorem skipGaps_append {gaps : List Char} (allGaps : ∀ c ∈ gaps, Gap c) (rest : List Char) :
    skipGaps (gaps ++ rest) = skipGaps rest :=
  List.dropWhile_append_of_pos fun c member => (isGap_iff c).mpr (allGaps c member)

theorem afterBreak?_of_gap {c : Char} (gap : Gap c) (rest : List Char) :
    afterBreak? (c :: rest) = none := by
  apply afterBreak?_of_other
  · rintro rfl
    exact absurd gap (by decide)
  · rintro rfl
    exact absurd gap (by decide)

theorem afterBreak?_of_inLine {c : Char} (inLine : InLine c) (rest : List Char) :
    afterBreak? (c :: rest) = none := by
  apply afterBreak?_of_other
  · rintro rfl
    exact absurd inLine (by decide)
  · rintro rfl
    exact absurd inLine (by decide)

theorem Solid.skipGapsAndBreaks_eq {cs : List Char} (solid : Solid cs) (fuel : Nat) :
    skipGapsAndBreaks fuel cs = cs := by
  cases fuel with
  | zero => rfl
  | succ fuel =>
      simp only [skipGapsAndBreaks, solid.afterBreak?_eq]
      cases cs with
      | nil => rfl
      | cons c cs => simp [(solid c rfl).1]

theorem Blanks.skip {blanks : List Char} (areBlanks : Blanks blanks) {rest : List Char}
    (solid : Solid rest) (fuel : Nat)
    (enough : blanks.length ≤ fuel) : skipGapsAndBreaks fuel (blanks ++ rest) = rest := by
  induction areBlanks generalizing fuel with
  | nil => exact solid.skipGapsAndBreaks_eq fuel
  | gap gap more ih =>
      rw [List.length_cons] at enough
      obtain ⟨fuel, rfl⟩ := Nat.exists_eq_add_one.mpr (show 0 < fuel by omega)
      rw [List.cons_append, skipGapsAndBreaks, afterBreak?_of_gap gap]
      simp [gap, ih fuel (by omega)]
  | @lineBreak cs blanks isBreak more ih =>
      have present := isBreak.length_pos
      rw [List.length_append] at enough
      obtain ⟨fuel, rfl⟩ := Nat.exists_eq_add_one.mpr (show 0 < fuel by omega)
      simp only [List.append_assoc, skipGapsAndBreaks, afterBreak?_break isBreak]
      exact ih fuel (by omega)

/-! ## Several lines -/

section Lines

variable {mark : Char} {escapes : Bool}

/-- A run of marks in the text is shorter than the closing one, or stands right before it. -/
theorem LinesBody.run_cases (quoting : mark = '"' ∨ mark = '\x27') {run : Nat}
    {body chars : List Char} (spells : LinesBody mark escapes run body chars) (few : run ≤ 2) :
    ∃ count, count + run ≤ 2 ∧
      (body = List.replicate count mark ∧ chars = List.replicate count mark ∨
        ∃ c tail, c ≠ mark ∧ body = List.replicate count mark ++ c :: tail) := by
  have backslash : '\\' ≠ mark := by rcases quoting with rfl | rfl <;> decide
  induction spells with
  | nil => exact ⟨0, by omega, Or.inl ⟨rfl, rfl⟩⟩
  | mark less more ih =>
      obtain ⟨count, most, cases⟩ := ih (by omega)
      refine ⟨count + 1, by omega, ?_⟩
      rcases cases with ⟨rfl, rfl⟩ | ⟨c, tail, other, rfl⟩
      · exact Or.inl ⟨rfl, rfl⟩
      · exact Or.inr ⟨c, tail, other, rfl⟩
  | plain inLine notMark notEscape more => exact ⟨0, by omega, Or.inr ⟨_, _, notMark, rfl⟩⟩
  | lineBreak isBreak more =>
      refine ⟨0, by omega, Or.inr ?_⟩
      rcases isBreak with rfl | rfl
      · exact ⟨'\n', _, by rcases quoting with rfl | rfl <;> decide, rfl⟩
      · exact ⟨'\r', _, by rcases quoting with rfl | rfl <;> decide, rfl⟩
  | escaped may escape more => exact ⟨0, by omega, Or.inr ⟨_, _, backslash, rfl⟩⟩
  | joined may allGaps isBreak areBlanks solid more =>
      exact ⟨0, by omega, Or.inr ⟨_, _, backslash, rfl⟩⟩

theorem takeWhile_marks (count : Nat) {rest : List Char} (ends : rest.head? ≠ some mark) :
    (List.replicate count mark ++ rest).takeWhile (· == mark) = List.replicate count mark := by
  have marks : ∀ c ∈ List.replicate count mark, (c == mark) = true := by
    intro c member
    simpa using List.eq_of_mem_replicate member
  rw [List.takeWhile_append_of_pos marks]
  cases rest with
  | nil => simp
  | cons c rest =>
      have other : ¬ (c == mark) = true := by simpa using ends
      simp [other]

theorem closingOf_inside {count : Nat} (few : count < 3) {rest : List Char}
    (ends : rest.head? ≠ some mark) :
    closingOf mark (List.replicate count mark ++ rest) = .inside := by
  rw [closingOf, takeWhile_marks count ends, List.length_replicate]
  exact if_pos few

theorem closingOf_closed {extra : Nat} (few : extra ≤ 2) {rest : List Char}
    (ends : rest.head? ≠ some mark) :
    closingOf mark (List.replicate (extra + 3) mark ++ rest) = .closed extra := by
  have many : ¬ extra + 3 < 3 := by omega
  have most : extra + 3 ≤ 5 := by omega
  simp only [closingOf, takeWhile_marks _ ends, List.length_replicate, if_neg many, if_pos most,
    Nat.add_sub_cancel]

/-- The marks before the closing ones belong to the text. -/
theorem readLines_closing {extra : Nat} (few : extra ≤ 2) (fuel : Nat) {rest : List Char}
    (ends : rest.head? ≠ some mark) :
    readLines mark escapes (fuel + 1) (List.replicate (extra + 3) mark ++ rest) =
      some (List.replicate extra mark, rest) := by
  have first : List.replicate (extra + 3) mark ++ rest =
      mark :: (List.replicate (extra + 2) mark ++ rest) := rfl
  have left : (List.replicate (extra + 2) mark ++ rest).drop (extra + 2) = rest :=
    List.drop_left' List.length_replicate
  rw [first, readLines, if_pos rfl, ← first, closingOf_closed few ends]
  simp only [left]

theorem readLines_mark {rest : List Char} (inside : closingOf mark (mark :: rest) = .inside)
    (fuel : Nat) :
    readLines mark escapes (fuel + 1) (mark :: rest) =
      (readLines mark escapes fuel rest).map fun read => (mark :: read.1, read.2) := by
  rw [readLines, if_pos rfl, inside]

theorem readLines_plain {c : Char} (inLine : InLine c) (notMark : c ≠ mark)
    (notEscape : escapes = true → c ≠ '\\') (fuel : Nat) (rest : List Char) :
    readLines mark escapes (fuel + 1) (c :: rest) =
      (readLines mark escapes fuel rest).map fun read => (c :: read.1, read.2) := by
  have bare : (escapes && c == '\\') = false := by simpa using notEscape
  rw [readLines, if_neg notMark, bare, afterBreak?_of_inLine inLine]
  simp only [Bool.false_eq_true, if_false, isLineChar_iff, inLine, if_true]

theorem readLines_break (quoting : mark = '"' ∨ mark = '\x27') {cs : List Char}
    (isBreak : IsBreak cs) (fuel : Nat) (rest : List Char) :
    readLines mark escapes (fuel + 1) (cs ++ rest) =
      (readLines mark escapes fuel rest).map fun read => ('\n' :: read.1, read.2) := by
  obtain ⟨c, tail, rfl, notMark, bare⟩ : ∃ c tail, cs = c :: tail ∧ c ≠ mark ∧
      (c == '\\') = false := by
    rcases isBreak with rfl | rfl <;> rcases quoting with rfl | rfl <;>
      exact ⟨_, _, rfl, by decide, by decide⟩
  have broken := afterBreak?_break isBreak rest
  rw [List.cons_append] at broken ⊢
  rw [readLines, if_neg notMark, bare, Bool.and_false, broken]
  rfl

theorem readLines_escaped (quoting : mark = '"' ∨ mark = '\x27') {code : List Char} {c : Char}
    (escape : Escapes code c) (fuel : Nat) (rest : List Char) :
    readLines mark true (fuel + 1) ('\\' :: (code ++ rest)) =
      (readLines mark true fuel rest).map fun read => (c :: read.1, read.2) := by
  have backslash : '\\' ≠ mark := by rcases quoting with rfl | rfl <;> decide
  have solid := escape.solid rest
  rw [readLines, if_neg backslash, solid.skipGaps_eq, solid.afterBreak?_eq, escape.read]
  rfl

theorem readLines_joined (quoting : mark = '"' ∨ mark = '\x27') {gaps cs : List Char}
    (allGaps : ∀ c ∈ gaps, Gap c) (isBreak : IsBreak cs) (fuel : Nat) (rest : List Char) :
    readLines mark true (fuel + 1) ('\\' :: (gaps ++ (cs ++ rest))) =
      readLines mark true fuel (skipGapsAndBreaks rest.length rest) := by
  have backslash : '\\' ≠ mark := by rcases quoting with rfl | rfl <;> decide
  have bare : skipGaps (cs ++ rest) = cs ++ rest := by rcases isBreak with rfl | rfl <;> rfl
  rw [readLines, if_neg backslash, skipGaps_append allGaps, bare, afterBreak?_break isBreak]
  rfl

/-- What stands between the marks is read up to the closing ones, whatever comes behind these but a
further mark. -/
theorem LinesBody.read (quoting : mark = '"' ∨ mark = '\x27') {run : Nat} {body chars : List Char}
    (spells : LinesBody mark escapes run body chars) (few : run ≤ 2) (fuel : Nat)
    (enough : body.length < fuel)
    {rest : List Char} (ends : rest.head? ≠ some mark) :
    readLines mark escapes fuel (body ++ (mark :: mark :: mark :: rest)) = some (chars, rest) := by
  obtain ⟨fuel, rfl⟩ := Nat.exists_eq_add_one.mpr (show 0 < fuel by omega)
  induction spells generalizing fuel with
  | nil => exact readLines_closing (Nat.zero_le 2) fuel ends
  | @mark run body chars less more ih =>
      obtain ⟨count, most, closing | ⟨c, tail, other, inside⟩⟩ :=
        (LinesBody.mark less more).run_cases quoting few
      · -- the marks run up to the closing ones
        have run : mark :: body ++ mark :: mark :: mark :: rest =
            List.replicate (count + 3) mark ++ rest := by
          rw [closing.1, ← List.replicate_append_replicate, List.append_assoc]
          rfl
        rw [run, closing.2]
        exact readLines_closing (by omega) fuel ends
      · have run : closingOf mark (mark :: (body ++ mark :: mark :: mark :: rest)) = .inside := by
          rw [← List.cons_append, inside, List.append_assoc]
          apply closingOf_inside (by omega)
          simpa using other
        rw [List.length_cons] at enough
        obtain ⟨fuel, rfl⟩ := Nat.exists_eq_add_one.mpr (show 0 < fuel by omega)
        rw [List.cons_append, readLines_mark run, ih (by omega) fuel (by omega)]
        rfl
  | @plain run c body chars inLine notMark notEscape more ih =>
      rw [List.length_cons] at enough
      obtain ⟨fuel, rfl⟩ := Nat.exists_eq_add_one.mpr (show 0 < fuel by omega)
      rw [List.cons_append, readLines_plain inLine notMark notEscape, ih (by omega) fuel (by omega)]
      rfl
  | @lineBreak run cs body chars isBreak more ih =>
      have present := isBreak.length_pos
      rw [List.length_append] at enough
      obtain ⟨fuel, rfl⟩ := Nat.exists_eq_add_one.mpr (show 0 < fuel by omega)
      rw [List.append_assoc, readLines_break quoting isBreak, ih (by omega) fuel (by omega)]
      rfl
  | @escaped run code c body chars may escape more ih =>
      subst may
      rw [List.length_cons, List.length_append] at enough
      obtain ⟨fuel, rfl⟩ := Nat.exists_eq_add_one.mpr (show 0 < fuel by omega)
      rw [List.cons_append, List.append_assoc, readLines_escaped quoting escape,
        ih (by omega) fuel (by omega)]
      rfl
  | @joined run gaps cs blanks body chars may allGaps isBreak areBlanks solid more ih =>
      subst may
      simp only [List.length_cons, List.length_append] at enough
      obtain ⟨fuel, rfl⟩ := Nat.exists_eq_add_one.mpr (show 0 < fuel by omega)
      have solid : Solid (body ++ mark :: mark :: mark :: rest) := by
        cases body with
        | nil =>
            rintro c ⟨⟩
            rcases quoting with rfl | rfl <;> decide
        | cons c body => exact solid
      have skipped := areBlanks.skip solid (blanks ++ (body ++ mark :: mark :: mark :: rest)).length
        (by rw [List.length_append]; omega)
      simp only [List.cons_append, List.append_assoc]
      rw [readLines_joined quoting allGaps isBreak, skipped]
      exact ih (by omega) fuel (by omega)

end Lines

theorem OpensLines.dropFirstBreak_eq {first body : List Char} (opens : OpensLines first body)
    {mark : Char} (quoting : mark = '"' ∨ mark = '\x27') (rest : List Char) :
    dropFirstBreak (first ++ (body ++ mark :: rest)) = body ++ mark :: rest := by
  rcases opens with isBreak | ⟨rfl, other⟩
  · rw [dropFirstBreak, afterBreak?_break isBreak]
    rfl
  · have noBreak : afterBreak? (body ++ mark :: rest) = none := by
      cases body with
      | nil =>
          rcases quoting with rfl | rfl
          · exact afterBreak?_of_other (by decide) (by decide) rest
          · exact afterBreak?_of_other (by decide) (by decide) rest
      | cons c body => exact afterBreak?_of_other (other c rfl).1 (other c rfl).2 _
    rw [List.nil_append, dropFirstBreak, noBreak]
    rfl

/-- A text is read from every form of it, if no further mark comes behind it. -/
theorem SpellsText.read {form chars : List Char} (spells : SpellsText form chars) {rest : List Char}
    (noQuote : rest.head? ≠ some '"') (noApostrophe : rest.head? ≠ some '\x27') :
    readText (form ++ rest) = some (String.ofList chars, rest) := by
  cases spells with
  | @basic body chars spells =>
      have read := spells.read ((body ++ '"' :: rest).length + 1)
          (by rw [List.length_append]; omega) rest
      have form : '"' :: (body ++ ['"']) ++ rest = '"' :: (body ++ '"' :: rest) := by simp
      rw [form, readText.eq_3]
      · rw [read]
        rfl
      · intro others triple
        cases spells with
        | nil => exact noQuote (by rw [(List.cons.inj triple).2]; rfl)
        | plain inLine notQuote => exact notQuote (List.cons.inj triple).1
        | escaped escape => exact absurd (List.cons.inj triple).1 (by decide)
  | @literal chars isLiteral =>
      have form : '\x27' :: (chars ++ ['\x27']) ++ rest =
          '\x27' :: (chars ++ '\x27' :: rest) := by simp
      rw [form, readText.eq_4]
      · rw [isLiteral.read]
        rfl
      · intro others triple
        cases chars with
        | nil => exact noApostrophe (by rw [(List.cons.inj triple).2]; rfl)
        | cons c chars => exact (isLiteral c List.mem_cons_self).2 (List.cons.inj triple).1
  | @basicLines first body chars opens spells =>
      have form : '"' :: '"' :: '"' :: (first ++ (body ++ ['"', '"', '"'])) ++ rest =
          '"' :: '"' :: '"' :: (first ++ (body ++ '"' :: '"' :: '"' :: rest)) := by simp
      rw [form, readText, opens.dropFirstBreak_eq (Or.inl rfl),
        spells.read (Or.inl rfl) (Nat.zero_le 2) _ (by rw [List.length_append]; omega) noQuote]
      rfl
  | @literalLines first body chars opens spells =>
      have form : '\x27' :: '\x27' :: '\x27' :: (first ++ (body ++ ['\x27', '\x27', '\x27'])) ++
          rest =
          '\x27' :: '\x27' :: '\x27' ::
            (first ++ (body ++ '\x27' :: '\x27' :: '\x27' :: rest)) := by simp
      rw [form, readText, opens.dropFirstBreak_eq (Or.inr rfl),
        spells.read (Or.inr rfl) (Nat.zero_le 2) _ (by rw [List.length_append]; omega) noApostrophe]
      rfl

end RobotConsole.Toml
