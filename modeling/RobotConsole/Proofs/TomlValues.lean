import RobotConsole.Proofs.TomlDates
import RobotConsole.Proofs.TomlDefinitions

/-!
# How keys and values are written in TOML

A key has parts, bare or quoted, with dots between them.  A value is a text, a number, a boolean
or a date, or an array of values, which may run over several lines, or a table of pairs in braces.
Each of these forms is read as the item that it spells.  Within limits the reading is certain:
whole numbers of 64 bits, finite numbers, keys of fewer than 80 parts, and a depth that the reader
allows.  Beyond them a value may be refused, but is never read as another one.
-/

set_option autoImplicit false

namespace RobotConsole.Toml

/-! ## Forms of keys -/

def IsBare (c : Char) : Prop :=
  c.isAlphanum = true ∨ c = '_' ∨ c = '-'

instance (c : Char) : Decidable (IsBare c) :=
  inferInstanceAs (Decidable (_ ∨ _ ∨ _))

/-- The forms of one part of a key. -/
inductive SpellsPart : List Char → String → Prop
  | bare {form : List Char} (present : form ≠ []) (allBare : ∀ c ∈ form, IsBare c) :
      SpellsPart form (String.ofList form)
  | basic {body chars : List Char} (spells : BasicBody body chars) :
      SpellsPart ('"' :: (body ++ ['"'])) (String.ofList chars)
  | literal {chars : List Char} (isLiteral : IsLiteral chars) :
      SpellsPart ('\x27' :: (chars ++ ['\x27'])) (String.ofList chars)

inductive SpellsNames : List Char → List String → Prop
  | last {form : List Char} {name : String} (part : SpellsPart form name) :
      SpellsNames form [name]
  | next {form before behind more : List Char} {name : String} {names : List String}
      (part : SpellsPart form name) (gapsBefore : AreGaps before) (gapsBehind : AreGaps behind)
      (others : SpellsNames more names) :
      SpellsNames (form ++ (before ++ '.' :: (behind ++ more))) (name :: names)

/-- The forms of a key.  If they are `limited`, it has fewer than 80 parts. -/
structure SpellsKey (limited : Prop) (form : List Char) (key : Key) : Prop where
  names : SpellsNames form key.parts
  short : limited → key.parts.length < 80

/-! ## Forms of values -/

section Forms

variable (limited : Prop)

inductive SpellsScalar : List Char → Item → Prop
  | text {form chars : List Char} (spells : SpellsText form chars) :
      SpellsScalar form (.text (String.ofList chars))
  | whole {form : List Char} {number : Int} (spells : SpellsWhole form number)
      (fits : limited → -9223372036854775808 ≤ number ∧ number ≤ 9223372036854775807) :
      SpellsScalar form (.whole number)
  | boolean {form : List Char} (known : form = "true".toList ∨ form = "false".toList) :
      SpellsScalar form .boolean
  | float {form : List Char} (spells : SpellsFloat limited form) : SpellsScalar form .float
  | date {form : List Char} (spells : SpellsDate form) : SpellsScalar form .date

inductive Padding : List Char → Prop
  | nil : Padding []
  | gap {c : Char} {padding : List Char} (gap : Gap c) (more : Padding padding) :
      Padding (c :: padding)
  | lineBreak {cs padding : List Char} (isBreak : IsBreak cs) (more : Padding padding) :
      Padding (cs ++ padding)
  | comment {words cs padding : List Char} (inLine : ∀ c ∈ words, InLine c)
      (isBreak : IsBreak cs) (more : Padding padding) :
      Padding ('#' :: (words ++ (cs ++ padding)))

variable (Spells : List Char → Item → Prop)

inductive MoreItems : List Char → Prop
  | close {padding : List Char} (isPadding : Padding padding) : MoreItems (padding ++ [']'])
  | comma {padding further : List Char} (isPadding : Padding padding)
      (isFurther : Padding further) : MoreItems (padding ++ ',' :: (further ++ [']']))
  | item {padding further form more : List Char} {item : Item} (isPadding : Padding padding)
      (isFurther : Padding further) (spells : Spells form item) (others : MoreItems more) :
      MoreItems (padding ++ ',' :: (further ++ (form ++ more)))

inductive SpellsItems : List Char → Prop
  | empty {padding : List Char} (isPadding : Padding padding) : SpellsItems (padding ++ [']'])
  | full {padding form more : List Char} {item : Item} (isPadding : Padding padding)
      (spells : Spells form item) (others : MoreItems Spells more) :
      SpellsItems (padding ++ (form ++ more))

inductive SpellsPair : List Char → Key → Item → Prop
  | intro {keyForm before behind valueForm : List Char} {key : Key} {item : Item}
      (spellsKey : SpellsKey limited keyForm key) (gapsBefore : AreGaps before)
      (gapsBehind : AreGaps behind) (spells : Spells valueForm item) :
      SpellsPair (keyForm ++ (before ++ '=' :: (behind ++ valueForm))) key item

inductive MorePairs : List Char → List (Key × Item) → Prop
  | close {gaps : List Char} (areGaps : AreGaps gaps) : MorePairs (gaps ++ ['\x7d']) []
  | pair {gaps further form more : List Char} {key : Key} {item : Item}
      {pairs : List (Key × Item)} (areGaps : AreGaps gaps) (areFurther : AreGaps further)
      (spells : SpellsPair limited Spells form key item) (others : MorePairs more pairs) :
      MorePairs (gaps ++ ',' :: (further ++ (form ++ more))) ((key, item) :: pairs)

/-- A table in braces behind the opening one. -/
inductive SpellsPairs : List Char → List (Key × Item) → Prop
  | empty {gaps : List Char} (areGaps : AreGaps gaps) : SpellsPairs (gaps ++ ['\x7d']) []
  | full {gaps form more : List Char} {key : Key} {item : Item} {pairs : List (Key × Item)}
      (areGaps : AreGaps gaps) (spells : SpellsPair limited Spells form key item)
      (others : MorePairs limited Spells more pairs) :
      SpellsPairs (gaps ++ (form ++ more)) ((key, item) :: pairs)

def definePairs (entries : Entries) (pairs : List (Key × Item)) : Option Entries :=
  pairs.foldlM (fun entries pair => entries.define pair.1.path pair.1.last pair.2) entries

/-- The forms of a value that may hold others.  The keys of a table in braces are consistent. -/
inductive SpellsOver : List Char → Item → Prop
  | scalar {form : List Char} {item : Item} (spells : SpellsScalar limited form item) :
      SpellsOver form item
  | array {body : List Char} (items : SpellsItems Spells body) : SpellsOver ('[' :: body) .array
  | braces {body : List Char} {pairs : List (Key × Item)}
      (spells : SpellsPairs limited Spells body pairs)
      (consistent : limited → IsConsistent (pairs.map fun pair => .pair pair.1 pair.2)) :
      SpellsOver ('\x7b' :: body) (.braces ((definePairs [] pairs).getD []))

/-- The forms of a value, with others in it down to a depth. -/
def SpellsValue : Nat → List Char → Item → Prop
  | 0 => SpellsScalar limited
  | depth + 1 => SpellsOver limited (SpellsValue depth)

end Forms

/-! ## Keys -/

theorem isBareKeyChar_iff (c : Char) : isBareKeyChar c = true ↔ IsBare c := by
  simp [isBareKeyChar, IsBare, or_assoc]

def keyMarks : List Char :=
  [' ', '\t', '.', '=', ']']

theorem skipGaps_cons {c : Char} (noGap : ¬ Gap c) (cs : List Char) :
    skipGaps (c :: cs) = c :: cs := by
  simp [skipGaps, noGap]

theorem SpellsPart.opens {form : List Char} {name : String} (part : SpellsPart form name) :
    ∃ c tail, form = c :: tail ∧ c ∉ outerMarks ∧ c ≠ '[' := by
  cases part with
  | @bare form present allBare =>
      cases form with
      | nil => exact absurd rfl present
      | cons c tail =>
          have isBare := allBare c List.mem_cons_self
          have noMark : ∀ c ∈ outerMarks, ¬ IsBare c :=
            List.all_iff_forall_prop.mp (by decide)
          refine ⟨c, tail, rfl, fun mark => noMark c mark isBare, ?_⟩
          rintro rfl
          exact absurd isBare (by decide)
  | basic spells => exact ⟨_, _, rfl, by decide, by decide⟩
  | literal isLiteral => exact ⟨_, _, rfl, by decide, by decide⟩

/-- A part of a key is read in front of what may follow it. -/
theorem SpellsPart.read {form : List Char} {name : String} (part : SpellsPart form name)
    {c : Char} (mark : c ∈ keyMarks) (rest : List Char) :
    readKeyPart (form ++ c :: rest) = some (name, c :: rest) := by
  cases part with
  | @bare form present allBare =>
      have noMark : ∀ c ∈ keyMarks, isBareKeyChar c = false :=
        List.all_iff_forall_prop.mp (by decide)
      have areBare : ∀ c ∈ form, isBareKeyChar c = true :=
        fun c member => (isBareKeyChar_iff c).mpr (allBare c member)
      have notQuote (d : Char) (notBare : isBareKeyChar d = false) (left : List Char) :
          form ++ c :: rest ≠ d :: left := by
        cases form with
        | nil => exact absurd rfl present
        | cons first tail =>
            intro same
            obtain rfl : first = d := (List.cons.inj same).1
            exact absurd (areBare first List.mem_cons_self) (by simp [notBare])
      rw [readKeyPart.eq_3 _ (notQuote '"' rfl) (notQuote '\x27' rfl),
        List.takeWhile_append_of_pos areBare, List.dropWhile_append_of_pos areBare]
      simp [noMark c mark, present]
  | @basic body chars spells =>
      have read := spells.read ((body ++ '"' :: c :: rest).length + 1)
        (by rw [List.length_append]; omega) (c :: rest)
      rw [List.cons_append, List.append_assoc, List.singleton_append, readKeyPart, read]
      rfl
  | literal isLiteral =>
      rw [List.cons_append, List.append_assoc, List.singleton_append, readKeyPart, isLiteral.read]
      rfl

/-- Gaps and a mark that follow a part of a key begin with a mark. -/
theorem AreGaps.exists_mark {gaps : List Char} (areGaps : AreGaps gaps) {c : Char}
    (mark : c ∈ keyMarks) (rest : List Char) :
    ∃ d tail, gaps ++ c :: rest = d :: tail ∧ d ∈ keyMarks := by
  cases gaps with
  | nil => exact ⟨c, rest, rfl, mark⟩
  | cons gap gaps =>
      refine ⟨gap, _, rfl, ?_⟩
      rcases areGaps gap List.mem_cons_self with rfl | rfl <;> decide

/-- A part of a key is read with the gaps around it. -/
theorem SpellsPart.readAmongGaps {form before behind : List Char} {name : String}
    (part : SpellsPart form name) (gapsBefore : AreGaps before) (gapsBehind : AreGaps behind)
    {c : Char} (mark : c ∈ keyMarks) (noGap : ¬ Gap c) (rest : List Char) :
    ∃ left, readKeyPart (skipGaps (before ++ (form ++ (behind ++ c :: rest)))) = some (name, left) ∧
      skipGaps left = c :: rest := by
  obtain ⟨d, tail, split, follows⟩ := gapsBehind.exists_mark mark rest
  obtain ⟨first, others, opens, solid, -⟩ := part.opens
  have noFirst : ¬ Gap first := by
    rintro (rfl | rfl) <;> exact solid (by decide)
  refine ⟨behind ++ c :: rest, ?_, by rw [skipGaps_append gapsBehind, skipGaps_cons noGap]⟩
  have read := part.read follows tail
  rw [← split] at read
  rw [skipGaps_append gapsBefore, opens, List.cons_append, skipGaps_cons noFirst,
    ← List.cons_append, ← opens, read]

theorem SpellsNames.read {form : List Char} {names : List String} (spells : SpellsNames form names)
    {before behind : List Char} (gapsBefore : AreGaps before) (gapsBehind : AreGaps behind)
    {c : Char} (closes : c = '=' ∨ c = ']') (rest : List Char) (fuel : Nat)
    (enough : form.length < fuel) :
    readKeyParts fuel (before ++ (form ++ (behind ++ c :: rest))) = some (names, c :: rest) := by
  have mark : c ∈ keyMarks := by rcases closes with rfl | rfl <;> decide
  have noGap : ¬ Gap c := by rcases closes with rfl | rfl <;> decide
  have noPoint : c ≠ '.' := by rcases closes with rfl | rfl <;> decide
  induction spells generalizing before fuel with
  | last part =>
      obtain ⟨fuel, rfl⟩ := Nat.exists_eq_add_one.mpr (show 0 < fuel by omega)
      obtain ⟨left, read, skipped⟩ := part.readAmongGaps gapsBefore gapsBehind mark noGap rest
      rw [readKeyParts, read]
      dsimp only
      rw [skipped]
      split
      · rename_i left point
        exact absurd (List.cons.inj point).1 noPoint
      · rfl
  | @next form gaps further more name names part gapsBetween gapsFurther others ih =>
      obtain ⟨fuel, rfl⟩ := Nat.exists_eq_add_one.mpr (show 0 < fuel by omega)
      simp only [List.length_append, List.length_cons] at enough
      have point : '.' ∈ keyMarks := by decide
      obtain ⟨left, read, skipped⟩ := part.readAmongGaps gapsBefore gapsBetween point (by decide)
        (further ++ (more ++ (behind ++ c :: rest)))
      simp only [List.append_assoc, List.cons_append]
      rw [readKeyParts, read]
      dsimp only
      rw [skipped]
      simp only [ih gapsFurther fuel (by omega), Option.map_some]

/-- A key is read with the gaps around it, unless it has too many parts. -/
theorem SpellsKey.read {limited : Prop} {form : List Char} {key : Key}
    (spells : SpellsKey limited form key) {before behind : List Char}
    (gapsBefore : AreGaps before) (gapsBehind : AreGaps behind) {c : Char}
    (closes : c = '=' ∨ c = ']') (rest : List Char) :
    Settles limited (readKey (before ++ (form ++ (behind ++ c :: rest))))
      (some (key, c :: rest)) := by
  have parts := spells.names.read gapsBefore gapsBehind closes rest
    ((before ++ (form ++ (behind ++ c :: rest))).length + 1)
    (by simp only [List.length_append]; omega)
  have last : key.parts.getLast? = some key.last := List.getLast?_concat
  have front : key.parts.dropLast = key.path := List.dropLast_concat
  rw [readKey, parts]
  dsimp only
  rw [last, front]
  by_cases short : key.parts.length < nestingLimit
  · exact .of_eq (if_pos short)
  · dsimp only
    rw [if_neg short]
    exact .refused fun sure => short (spells.short sure)

theorem SpellsNames.opens {form : List Char} {names : List String}
    (spells : SpellsNames form names) :
    ∃ c tail, form = c :: tail ∧ c ∉ outerMarks ∧ c ≠ '[' := by
  cases spells with
  | last part => exact part.opens
  | next part =>
      obtain ⟨c, tail, rfl, opens⟩ := part.opens
      exact ⟨c, _, rfl, opens⟩

/-! ## Between items -/

theorem skipLines_of_skipGaps {cs others : List Char} (same : skipGaps cs = skipGaps others)
    (fuel : Nat) : skipLines fuel cs = skipLines fuel others := by
  cases fuel with
  | zero => rfl
  | succ fuel => rw [skipLines, skipLines, same]

theorem IsBreak.skipLines_eq {cs : List Char} (isBreak : IsBreak cs) (rest : List Char)
    (fuel : Nat) : skipLines (fuel + 1) (cs ++ rest) = skipLines fuel rest := by
  rcases isBreak with rfl | rfl <;> rfl

/-- Padding is passed over up to what begins no more of it. -/
theorem Padding.skip {padding : List Char} (isPadding : Padding padding) {c : Char}
    (solid : ¬ Gap c ∧ c ≠ '#' ∧ c ≠ '\n' ∧ c ≠ '\r') (rest : List Char) (fuel : Nat)
    (enough : padding.length < fuel) :
    skipLines fuel (padding ++ c :: rest) = some (c :: rest) := by
  obtain ⟨fuel, rfl⟩ := Nat.exists_eq_add_one.mpr (show 0 < fuel by omega)
  induction isPadding generalizing fuel with
  | nil =>
      obtain ⟨noGap, noComment, noFeed, noReturn⟩ := solid
      rw [List.nil_append, skipLines, skipGaps_cons noGap]
      simp [noComment, noFeed, noReturn]
  | @gap blank padding gap more ih =>
      have same : skipGaps (blank :: (padding ++ c :: rest)) = skipGaps (padding ++ c :: rest) :=
        skipGaps_append (areGaps_singleton gap) _
      rw [List.length_cons] at enough
      rw [List.cons_append, skipLines_of_skipGaps same]
      exact ih fuel (by omega)
  | @lineBreak cs padding isBreak more ih =>
      have present := isBreak.length_pos
      rw [List.length_append] at enough
      obtain ⟨fuel, rfl⟩ := Nat.exists_eq_add_one.mpr (show 0 < fuel by omega)
      rw [List.append_assoc, isBreak.skipLines_eq]
      exact ih fuel (by omega)
  | @comment words cs padding inLine isBreak more ih =>
      have stop : (cs ++ (padding ++ c :: rest)).dropWhile isLineChar =
          cs ++ (padding ++ c :: rest) := by
        rcases isBreak with rfl | rfl <;> rfl
      have areLine : ∀ c ∈ words, isLineChar c = true :=
        fun c member => (isLineChar_iff c).mpr (inLine c member)
      simp only [List.length_append, List.length_cons] at enough
      obtain ⟨fuel, rfl⟩ := Nat.exists_eq_add_one.mpr (show 0 < fuel by omega)
      simp only [List.cons_append, List.append_assoc]
      rw [skipLines, skipGaps_cons (by decide)]
      simp only [List.dropWhile_append_of_pos areLine, stop, afterBreak?_break isBreak,
        Option.bind_some]
      exact ih fuel (by omega)

theorem Padding.endsValue {padding : List Char} (isPadding : Padding padding) {rest : List Char}
    (ends : EndsValue rest) : EndsValue (padding ++ rest) := by
  induction isPadding with
  | nil => exact ends
  | @gap blank padding gap more ih =>
      have ends := EndsValue.gaps (areGaps_singleton gap) ih
      rwa [List.singleton_append] at ends
  | lineBreak isBreak more ih =>
      rcases isBreak with rfl | rfl
      · exact endsValue_of_mark (by decide) _
      · exact endsValue_of_mark (by decide) _
  | comment inLine isBreak more ih => exact endsValue_of_mark (by decide) _

theorem solid_of_not_mark {c : Char} (inside : c ∉ outerMarks) :
    ¬ Gap c ∧ c ≠ '#' ∧ c ≠ '\n' ∧ c ≠ '\r' := by
  refine ⟨?_, ?_, ?_, ?_⟩
  · rintro (rfl | rfl) <;> exact inside (by decide)
  all_goals
    rintro rfl
    exact inside (by decide)

/-! ## Values without others -/

section Scalar

variable {limited : Prop} {form rest : List Char} {item : Item}

theorem SpellsText.opens {chars : List Char} (spells : SpellsText form chars) :
    ∃ c tail, form = c :: tail ∧ (c = '"' ∨ c = '\x27') := by
  cases spells with
  | basic | basicLines => exact ⟨_, _, rfl, Or.inl rfl⟩
  | literal | literalLines => exact ⟨_, _, rfl, Or.inr rfl⟩

theorem SpellsFloat.opens (spells : SpellsFloat limited form) :
    (∃ c tail, form = c :: tail ∧ c ∈ numberMarks) ∨
      form = "inf".toList ∨ form = "nan".toList := by
  cases spells with
  | named signs known =>
      cases signs with
      | none => exact Or.inr known
      | plus => exact Or.inl ⟨'+', _, rfl, by decide⟩
      | minus => exact Or.inl ⟨'-', _, rfl, by decide⟩
  | decimal signs grouped =>
      obtain ⟨c, tail, opens, mark⟩ := grouped.opens_sign signs
      rw [← List.append_assoc, opens]
      exact Or.inl ⟨c, _, rfl, mark⟩

theorem readValue_number {c : Char} (mark : c ∈ numberMarks) (rest : List Char)
    (fuel depth : Nat) : readValue (fuel + 1) depth (c :: rest) = readNumberOrDate (c :: rest) := by
  have others : ∀ c ∈ numberMarks, ¬ (c = '"' ∨ c = '\x27') ∧ c ≠ '[' ∧ c ≠ '\x7b' ∧ c ≠ 't' ∧
      c ≠ 'f' ∧ c ≠ 'i' ∧ c ≠ 'n' ∧ (c = '+' ∨ c = '-' ∨ c.isDigit = true) :=
    List.all_iff_forall_prop.mp (by decide)
  obtain ⟨quote, bracket, brace, t, f, i, n, begins⟩ := others c mark
  rw [readValue]
  simp only [quote, bracket, brace, t, f, i, n, begins, if_false, if_true]

theorem readValue_boolean (known : form = "true".toList ∨ form = "false".toList)
    (rest : List Char) (fuel depth : Nat) :
    readValue (fuel + 1) depth (form ++ rest) = some (.boolean, rest) := by
  rcases known with rfl | rfl <;> simp [readValue, expect]

theorem readValue_named (known : form = "inf".toList ∨ form = "nan".toList)
    (rest : List Char) (fuel depth : Nat) :
    readValue (fuel + 1) depth (form ++ rest) = some (.float, rest) := by
  rcases known with rfl | rfl <;> simp [readValue, expect]

/-- A value that holds no others is read, unless it is beyond the limits. -/
theorem SpellsScalar.read (spells : SpellsScalar limited form item) (ends : EndsValue rest)
    (fuel depth : Nat) :
    Settles limited (readValue (fuel + 1) depth (form ++ rest)) (some (item, rest)) := by
  cases spells with
  | text spells =>
      have read := spells.read (ends.head_ne (by decide)) (ends.head_ne (by decide))
      obtain ⟨c, tail, rfl, quote⟩ := spells.opens
      rw [List.cons_append] at read ⊢
      rw [readValue, if_pos quote, read]
      exact .of_eq rfl
  | whole spells fits =>
      have read := spells.read ends
      obtain ⟨c, tail, rfl, mark⟩ := spells.opens
      rw [List.cons_append] at read ⊢
      rw [readValue_number mark, read]
      exact makeWhole_settles fits rest
  | boolean known => exact .of_eq (readValue_boolean known rest fuel depth)
  | float spells =>
      rcases spells.opens with ⟨c, tail, rfl, mark⟩ | known
      · rw [List.cons_append, readValue_number mark]
        exact spells.read mark ends
      · exact .of_eq (readValue_named known rest fuel depth)
  | date spells =>
      have read := spells.read ends
      obtain ⟨c, tail, rfl, mark⟩ := spells.opens
      rw [List.cons_append] at read ⊢
      rw [readValue_number mark, read]
      exact .of_eq rfl

theorem SpellsScalar.opens (spells : SpellsScalar limited form item) :
    ∃ c tail, form = c :: tail ∧ c ∉ outerMarks := by
  have number {form : List Char} (opens : ∃ c tail, form = c :: tail ∧ c ∈ numberMarks) :
      ∃ c tail, form = c :: tail ∧ c ∉ outerMarks := by
    have apart : ∀ c ∈ numberMarks, c ∉ outerMarks := List.all_iff_forall_prop.mp (by decide)
    obtain ⟨c, tail, rfl, mark⟩ := opens
    exact ⟨c, tail, rfl, apart c mark⟩
  cases spells with
  | text spells =>
      obtain ⟨c, tail, rfl, quote⟩ := spells.opens
      exact ⟨c, tail, rfl, by rcases quote with rfl | rfl <;> decide⟩
  | whole spells => exact number spells.opens
  | boolean known => rcases known with rfl | rfl <;> exact ⟨_, _, rfl, by decide⟩
  | float spells =>
      rcases spells.opens with opens | rfl | rfl
      · exact number opens
      · exact ⟨_, _, rfl, by decide⟩
      · exact ⟨_, _, rfl, by decide⟩
  | date spells => exact number spells.opens

end Scalar

/-! ## Values with others in them -/

/-- The forms are those of values that are read at a depth. -/
structure Reads (limited : Prop) (depth : Nat) (Spells : List Char → Item → Prop) : Prop where
  opens : ∀ {form : List Char} {item : Item}, Spells form item →
    ∃ c tail, form = c :: tail ∧ c ∉ outerMarks
  read : ∀ {form : List Char} {item : Item}, Spells form item → ∀ {rest : List Char},
    EndsValue rest → ∀ fuel, 3 * form.length ≤ fuel →
      Settles limited (readValue fuel depth (form ++ rest)) (some (item, rest))

section Reading

variable {limited : Prop} {depth : Nat} {Spells : List Char → Item → Prop}

theorem MoreItems.endsValue {more : List Char} (others : MoreItems Spells more)
    (rest : List Char) : EndsValue (more ++ rest) := by
  cases others with
  | close isPadding | comma isPadding | item isPadding =>
      rw [List.append_assoc]
      exact isPadding.endsValue (endsValue_of_mark (by decide) _)

/-- An item is read, and then the rest of its array. -/
theorem Reads.readItem (reads : Reads limited depth Spells) {form more rest : List Char}
    {item : Item} (spells : Spells form item) (ends : EndsValue (more ++ rest)) {fuel : Nat}
    (enough : 3 * form.length ≤ fuel)
    (others : Settles limited (readItems fuel depth false (more ++ rest)) (some rest)) :
    Settles limited (readItem (fuel + 1) depth (form ++ (more ++ rest))) (some rest) := by
  rw [Toml.readItem]
  rcases reads.read spells ends fuel enough with read | ⟨read, unsure⟩
  · rw [read]
    exact others
  · rw [read]
    exact .refused unsure

theorem readItems_close (rest : List Char) {padding : List Char} (isPadding : Padding padding)
    (first : Bool) (fuel depth : Nat) :
    readItems (fuel + 1) depth first (padding ++ ']' :: rest) = some rest := by
  have skipped := isPadding.skip (c := ']') (by decide) rest
    ((padding ++ ']' :: rest).length + 1) (by rw [List.length_append]; omega)
  rw [readItems, skipped]
  rfl

/-- Behind a comma the array ends, or a further item begins. -/
theorem readItems_comma {padding : List Char} (isPadding : Padding padding) (rest : List Char)
    (fuel depth : Nat) :
    readItems (fuel + 1) depth false (padding ++ ',' :: rest) =
      match skipLines (rest.length + 1) rest with
      | some (']' :: rest) => some rest
      | some rest => readItem fuel depth rest
      | none => none := by
  have skipped := isPadding.skip (c := ',') (by decide) rest
    ((padding ++ ',' :: rest).length + 1) (by rw [List.length_append]; omega)
  rw [readItems, skipped]
  rfl

theorem MoreItems.read (reads : Reads limited depth Spells) {body : List Char}
    (others : MoreItems Spells body) (rest : List Char) (fuel : Nat)
    (enough : 3 * body.length + 2 ≤ fuel) :
    Settles limited (readItems fuel depth false (body ++ rest)) (some rest) := by
  obtain ⟨fuel, rfl⟩ := Nat.exists_eq_add_one.mpr (show 0 < fuel by omega)
  induction others generalizing fuel with
  | close isPadding =>
      rw [List.append_assoc]
      exact .of_eq (readItems_close rest isPadding false fuel depth)
  | @comma padding further isPadding isFurther =>
      have skipped := isFurther.skip (c := ']') (by decide) rest
        ((further ++ ']' :: rest).length + 1) (by rw [List.length_append]; omega)
      simp only [List.append_assoc, List.cons_append, List.nil_append]
      rw [readItems_comma isPadding, skipped]
      exact .of_eq rfl
  | @item padding further form more item isPadding isFurther spells others ih =>
      obtain ⟨c, tail, opens, solid⟩ := reads.opens spells
      have present : 0 < form.length := by rw [opens]; exact Nat.succ_pos _
      simp only [List.length_append, List.length_cons] at enough
      obtain ⟨fuel, rfl⟩ : ∃ less, fuel = less + 1 + 1 := ⟨fuel - 2, by omega⟩
      have read := reads.readItem spells (others.endsValue rest) (by omega) (ih fuel (by omega))
      simp only [List.append_assoc, List.cons_append]
      rw [readItems_comma isPadding]
      rw [opens, List.cons_append] at read ⊢
      rw [isFurther.skip (solid_of_not_mark solid) _ _ (by rw [List.length_append]; omega)]
      split
      · rename_i left closes
        rw [(List.cons.inj (Option.some.inj closes)).1] at solid
        exact absurd (by decide) solid
      · rename_i left more
        rw [← Option.some.inj more]
        exact read
      · rename_i nothing
        cases nothing

theorem SpellsItems.read (reads : Reads limited depth Spells) {body : List Char}
    (items : SpellsItems Spells body) (rest : List Char) (fuel : Nat)
    (enough : 3 * body.length + 2 ≤ fuel) :
    Settles limited (readItems fuel depth true (body ++ rest)) (some rest) := by
  obtain ⟨fuel, rfl⟩ := Nat.exists_eq_add_one.mpr (show 0 < fuel by omega)
  cases items with
  | empty isPadding =>
      rw [List.append_assoc]
      exact .of_eq (readItems_close rest isPadding true fuel depth)
  | @full padding form more item isPadding spells others =>
      obtain ⟨c, tail, opens, solid⟩ := reads.opens spells
      have noClose : c ≠ ']' := by
        rintro rfl
        exact solid (by decide)
      have present : 0 < form.length := by rw [opens]; exact Nat.succ_pos _
      simp only [List.length_append] at enough
      obtain ⟨fuel, rfl⟩ := Nat.exists_eq_add_one.mpr (show 0 < fuel by omega)
      have more := others.read reads rest fuel (by omega)
      have read := reads.readItem spells (others.endsValue rest) (by omega) more
      simp only [List.append_assoc]
      rw [readItems]
      rw [opens, List.cons_append] at read ⊢
      rw [isPadding.skip (solid_of_not_mark solid) _ _ (by rw [List.length_append]; omega)]
      simp only [if_neg noClose, if_true]
      exact read

/-! ### Tables in braces -/

theorem MorePairs.endsValue {more : List Char} {pairs : List (Key × Item)}
    (others : MorePairs limited Spells more pairs) (rest : List Char) :
    EndsValue (more ++ rest) := by
  cases others with
  | close areGaps | pair areGaps =>
      rw [List.append_assoc]
      exact EndsValue.gaps areGaps (endsValue_of_mark (by decide) _)

theorem SpellsPair.opens {form : List Char} {key : Key} {item : Item}
    (pair : SpellsPair limited Spells form key item) :
    ∃ c tail, form = c :: tail ∧ c ∉ outerMarks ∧ c ≠ '[' := by
  cases pair with
  | intro spellsKey =>
      obtain ⟨c, tail, rfl, opens⟩ := spellsKey.names.opens
      exact ⟨c, _, rfl, opens⟩

/-- A pair is read, and then the rest of its table, unless the key is taken. -/
theorem SpellsPair.read (reads : Reads limited depth Spells) {form more rest : List Char}
    {key : Key} {item : Item} (pair : SpellsPair limited Spells form key item)
    {gaps : List Char} (areGaps : AreGaps gaps) (ends : EndsValue (more ++ rest)) {fuel : Nat}
    (enough : 3 * form.length ≤ fuel) {entries : Entries} {expected : Reading Entries}
    (others : ∀ changed ∈ entries.define key.path key.last item,
      Settles limited (readPairs fuel depth false changed (more ++ rest)) expected)
    (refused : entries.define key.path key.last item = none → expected = none) :
    Settles limited (readPair (fuel + 1) depth entries (gaps ++ (form ++ (more ++ rest))))
      expected := by
  cases pair with
  | @intro keyForm before behind valueForm _ _ spellsKey gapsBefore gapsBehind spells =>
      have readKey := spellsKey.read areGaps gapsBefore (Or.inl rfl)
        (behind ++ (valueForm ++ (more ++ rest)))
      simp only [List.length_append, List.length_cons] at enough
      have readValue := reads.read spells ends fuel (by omega)
      obtain ⟨c, tail, rfl, solid⟩ := reads.opens spells
      have skipped : skipGaps (behind ++ (c :: tail ++ (more ++ rest))) =
          c :: tail ++ (more ++ rest) := by
        rw [skipGaps_append gapsBehind, List.cons_append,
          skipGaps_cons (solid_of_not_mark solid).1]
      simp only [List.append_assoc, List.cons_append] at readKey readValue skipped ⊢
      rw [readPair]
      rcases readKey with read | ⟨read, unsure⟩
      · rw [read]
        simp only [skipped]
        rcases readValue with read | ⟨read, unsure⟩
        · rw [read]
          dsimp only
          cases defined : entries.define key.path key.last item with
          | none => exact .of_eq (refused defined).symm
          | some changed => exact others changed defined
        · rw [read]
          exact .refused unsure
      · rw [read]
        exact .refused unsure

theorem MorePairs.read (reads : Reads limited depth Spells) {body : List Char}
    {pairs : List (Key × Item)} (others : MorePairs limited Spells body pairs)
    (rest : List Char) (entries : Entries) (fuel : Nat) (enough : 3 * body.length + 2 ≤ fuel) :
    Settles limited (readPairs fuel depth false entries (body ++ rest))
      ((definePairs entries pairs).map fun entries => (entries, rest)) := by
  obtain ⟨fuel, rfl⟩ := Nat.exists_eq_add_one.mpr (show 0 < fuel by omega)
  induction others generalizing entries fuel with
  | close areGaps =>
      rw [List.append_assoc, readPairs, skipGaps_append areGaps]
      exact .of_eq rfl
  | @pair gaps further form more key item pairs areGaps areFurther spells others ih =>
      simp only [List.length_append, List.length_cons] at enough
      have present : 0 < form.length := by
        cases spells
        simp
      obtain ⟨fuel, rfl⟩ : ∃ less, fuel = less + 1 + 1 := ⟨fuel - 2, by omega⟩
      simp only [List.append_assoc, List.cons_append]
      rw [readPairs, skipGaps_append areGaps, skipGaps_cons (by decide)]
      refine spells.read reads areFurther (others.endsValue rest) (by omega) ?_ ?_
      · intro changed defined
        have more := ih changed fuel (by omega)
        rwa [definePairs, List.foldlM_cons, defined]
      · intro taken
        rw [definePairs, List.foldlM_cons, taken]
        rfl

theorem SpellsPairs.read (reads : Reads limited depth Spells) {body : List Char}
    {pairs : List (Key × Item)} (spells : SpellsPairs limited Spells body pairs)
    (rest : List Char) (entries : Entries) (fuel : Nat) (enough : 3 * body.length + 2 ≤ fuel) :
    Settles limited (readPairs fuel depth true entries (body ++ rest))
      ((definePairs entries pairs).map fun entries => (entries, rest)) := by
  obtain ⟨fuel, rfl⟩ := Nat.exists_eq_add_one.mpr (show 0 < fuel by omega)
  cases spells with
  | empty areGaps =>
      rw [List.append_assoc, readPairs, skipGaps_append areGaps]
      exact .of_eq rfl
  | @full gaps form more key item pairs areGaps spells others =>
      obtain ⟨c, tail, opens, solid, -⟩ := spells.opens
      have noClose : c ≠ '\x7d' := by
        rintro rfl
        exact solid (by decide)
      have present : 0 < form.length := by rw [opens]; exact Nat.succ_pos _
      simp only [List.length_append] at enough
      obtain ⟨fuel, rfl⟩ := Nat.exists_eq_add_one.mpr (show 0 < fuel by omega)
      have read : Settles limited (readPair (fuel + 1) depth entries (form ++ (more ++ rest)))
          ((definePairs entries ((key, item) :: pairs)).map fun entries => (entries, rest)) := by
        refine spells.read reads areGaps_nil (others.endsValue rest) (by omega) ?_ ?_
        · intro changed defined
          have more := others.read reads rest changed fuel (by omega)
          rwa [definePairs, List.foldlM_cons, defined]
        · intro taken
          rw [definePairs, List.foldlM_cons, taken]
          rfl
      simp only [List.append_assoc]
      rw [opens, List.cons_append] at read ⊢
      rw [readPairs, skipGaps_append areGaps, skipGaps_cons (solid_of_not_mark solid).1]
      simp only [if_neg noClose, if_true]
      exact read

end Reading

/-! ### Values -/

theorem SpellsScalar.isTable_eq {limited : Prop} {form : List Char} {item : Item}
    (spells : SpellsScalar limited form item) : item.isTable = false := by
  cases spells <;> rfl

theorem SpellsValue.isTable_eq {limited : Prop} {depth : Nat} {form : List Char} {item : Item}
    (spells : SpellsValue limited depth form item) : item.isTable = false := by
  cases depth with
  | zero => exact SpellsScalar.isTable_eq spells
  | succ depth =>
      cases spells with
      | scalar spells => exact spells.isTable_eq
      | array | braces => rfl

theorem foldlM_pairs (pairs : List (Key × Item)) (entries : Entries) :
    (pairs.map fun pair => Expression.pair pair.1 pair.2).foldlM State.apply ⟨entries, []⟩ =
      (definePairs entries pairs).map fun entries => ⟨entries, []⟩ := by
  induction pairs generalizing entries with
  | nil => rfl
  | cons pair pairs ih =>
      have applied : State.apply ⟨entries, []⟩ (.pair pair.1 pair.2) =
          (entries.define pair.1.path pair.1.last pair.2).map fun entries => ⟨entries, []⟩ := rfl
      rw [List.map_cons, List.foldlM_cons, applied, definePairs, List.foldlM_cons]
      cases entries.define pair.1.path pair.1.last pair.2 with
      | none => rfl
      | some changed => exact ih changed

/-- The keys of a table in braces are accepted, if they are consistent. -/
theorem definePairs_of_consistent {pairs : List (Key × Item)}
    (consistent : IsConsistent (pairs.map fun pair => .pair pair.1 pair.2))
    (plain : ∀ pair ∈ pairs, pair.2.isTable = false) :
    ∃ entries, definePairs [] pairs = some entries := by
  have isPlain : ∀ expression ∈ pairs.map fun pair => Expression.pair pair.1 pair.2,
      expression.IsPlain := by
    intro expression member
    obtain ⟨pair, among, rfl⟩ := List.mem_map.mp member
    exact plain pair among
  obtain ⟨final, run⟩ := consistent.accepted isPlain
  rw [foldlM_pairs] at run
  obtain ⟨entries, defined, -⟩ := Option.map_eq_some_iff.mp run
  exact ⟨entries, defined⟩

theorem MorePairs.plain {limited : Prop} {Spells : List Char → Item → Prop}
    (noTables : ∀ form item, Spells form item → item.isTable = false) {body : List Char}
    {pairs : List (Key × Item)} (others : MorePairs limited Spells body pairs) :
    ∀ pair ∈ pairs, pair.2.isTable = false := by
  induction others with
  | close areGaps => exact List.forall_mem_nil _
  | pair areGaps areFurther spells others ih =>
      cases spells with
      | intro key before behind spells =>
          exact List.forall_mem_cons.mpr ⟨noTables _ _ spells, ih⟩

theorem SpellsPairs.plain {limited : Prop} {Spells : List Char → Item → Prop}
    (noTables : ∀ form item, Spells form item → item.isTable = false) {body : List Char}
    {pairs : List (Key × Item)} (spells : SpellsPairs limited Spells body pairs) :
    ∀ pair ∈ pairs, pair.2.isTable = false := by
  cases spells with
  | empty areGaps => exact List.forall_mem_nil _
  | full areGaps spells others =>
      cases spells with
      | intro key before behind spells =>
          exact List.forall_mem_cons.mpr ⟨noTables _ _ spells, others.plain noTables⟩

theorem reads_scalar (limited : Prop) (depth : Nat) :
    Reads limited depth (SpellsScalar limited) where
  opens := SpellsScalar.opens
  read := by
    intro form item spells rest ends fuel enough
    obtain ⟨c, tail, rfl, -⟩ := spells.opens
    rw [List.length_cons] at enough
    obtain ⟨fuel, rfl⟩ := Nat.exists_eq_add_one.mpr (show 0 < fuel by omega)
    exact spells.read ends fuel depth

/-- What is read one level below is read in arrays and in braces. -/
theorem Reads.over {limited : Prop} {depth : Nat} {Spells : List Char → Item → Prop}
    (reads : Reads limited (depth - 1) Spells) (deep : limited → 1 < depth)
    (noTables : ∀ form item, Spells form item → item.isTable = false) :
    Reads limited depth (SpellsOver limited Spells) := by
  constructor
  · intro form item spells
    cases spells with
    | scalar spells => exact spells.opens
    | array | braces => exact ⟨_, _, rfl, by decide⟩
  · intro form item spells rest ends fuel enough
    cases spells with
    | scalar spells => exact (reads_scalar limited depth).read spells ends fuel enough
    | @array body items =>
        rw [List.length_cons] at enough
        obtain ⟨fuel, rfl⟩ := Nat.exists_eq_add_one.mpr (show 0 < fuel by omega)
        have read := items.read reads rest fuel (by omega)
        rw [List.cons_append, readValue]
        simp only [Char.reduceEq, or_self, if_false, if_true]
        split
        · exact .refused fun sure => by have := deep sure; omega
        · exact read.map _
    | @braces body pairs spells consistent =>
        rw [List.length_cons] at enough
        obtain ⟨fuel, rfl⟩ := Nat.exists_eq_add_one.mpr (show 0 < fuel by omega)
        have read := spells.read reads rest [] fuel (by omega)
        rw [List.cons_append, readValue]
        simp only [Char.reduceEq, or_self, if_false, if_true]
        split
        · exact .refused fun sure => by have := deep sure; omega
        · refine (read.map _).trans ?_
          cases defined : definePairs [] pairs with
          | some entries => exact .of_eq rfl
          | none =>
              refine .refused fun sure => ?_
              obtain ⟨entries, accepted⟩ :=
                definePairs_of_consistent (consistent sure) (spells.plain noTables)
              rw [defined] at accepted
              cases accepted

/-- A value is read at every depth beyond its own, unless it is beyond the limits. -/
theorem reads_value {limited : Prop} (depth allowed : Nat) (within : limited → depth < allowed) :
    Reads limited allowed (SpellsValue limited depth) := by
  induction depth generalizing allowed with
  | zero => exact reads_scalar limited allowed
  | succ depth ih =>
      have reads := ih (allowed - 1) fun sure => by have := within sure; omega
      refine reads.over (fun sure => ?_) fun _ _ spells => SpellsValue.isTable_eq spells
      have := within sure
      omega

end RobotConsole.Toml
