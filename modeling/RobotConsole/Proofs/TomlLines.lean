import RobotConsole.Proofs.TomlValues

/-!
# The lines of a TOML document

A document is written in lines.  A line is blank, or it has an expression after some gaps: a pair
of a key and a value, or a header in brackets.  At its end there may be a comment.  The lines are
read one after the other, as the expressions that they spell; a line beyond the limits of keys and
values may be refused.
-/

set_option autoImplicit false

namespace RobotConsole.Toml

/-! ## Lines -/

def IsComment (comment : List Char) : Prop :=
  comment = [] ∨ ∃ words, comment = '#' :: words ∧ ∀ c ∈ words, InLine c

inductive LineEnd : List Char → List Char → Prop
  | broken {gaps comment cs next : List Char} (areGaps : AreGaps gaps)
      (isComment : IsComment comment) (isBreak : IsBreak cs) :
      LineEnd (gaps ++ (comment ++ (cs ++ next))) next
  | last {gaps comment : List Char} (areGaps : AreGaps gaps) (isComment : IsComment comment) :
      LineEnd (gaps ++ comment) []

/-- The forms of an expression.  If they are `limited`, values are nested fewer than 80 deep. -/
inductive SpellsExpression (limited : Prop) : List Char → Expression → Prop
  | pair {form : List Char} {key : Key} {item : Item} {depth : Nat}
      (spells : SpellsPair limited (SpellsValue limited depth) form key item)
      (shallow : limited → depth < 80) : SpellsExpression limited form (.pair key item)
  | header {before form behind : List Char} {key : Key} (gapsBefore : AreGaps before)
      (spells : SpellsKey limited form key) (gapsBehind : AreGaps behind) :
      SpellsExpression limited ('[' :: (before ++ (form ++ (behind ++ [']'])))) (.header key)
  | member {before form behind : List Char} {key : Key} (gapsBefore : AreGaps before)
      (spells : SpellsKey limited form key) (gapsBehind : AreGaps behind) :
      SpellsExpression limited ('[' :: '[' :: (before ++ (form ++ (behind ++ [']', ']']))))
        (.member key)

/-- Lines that spell some expressions, up to what is left of the document. -/
inductive Lines (limited : Prop) (left : List Char) : List Char → List Expression → Prop
  | done : Lines limited left left []
  | blank {line next : List Char} {expressions : List Expression} (present : line ≠ [])
      (ends : LineEnd line next) (more : Lines limited left next expressions) :
      Lines limited left line expressions
  | expression {gaps form rest next : List Char} {expression : Expression}
      {expressions : List Expression} (areGaps : AreGaps gaps)
      (spells : SpellsExpression limited form expression) (ends : LineEnd rest next)
      (more : Lines limited left next expressions) :
      Lines limited left (gaps ++ (form ++ rest)) (expression :: expressions)

/-- The characters of a text behind the byte order mark that may stand at its start. -/
def content (text : String) : List Char :=
  if text.toList.head? = some '\uFEFF' then text.toList.tail else text.toList

theorem skipGaps_break {cs : List Char} (isBreak : IsBreak cs) (rest : List Char) :
    skipGaps (cs ++ rest) = cs ++ rest := by
  rcases isBreak with rfl | rfl <;> rfl

theorem endLine_gaps {gaps : List Char} (areGaps : AreGaps gaps) (rest : List Char) :
    endLine (gaps ++ rest) = endLine rest := by
  rw [endLine, endLine, skipGaps_append areGaps]

theorem endLine_skipGaps (cs : List Char) : endLine (skipGaps cs) = endLine cs := by
  have split : cs = cs.takeWhile isGap ++ skipGaps cs := List.takeWhile_append_dropWhile.symm
  have areGaps : AreGaps (cs.takeWhile isGap) :=
    fun c member => (isGap_iff c).mp (List.mem_takeWhile_imp member)
  exact (endLine_gaps areGaps (skipGaps cs)).symm.trans (congrArg endLine split.symm)

theorem endLine_comment {comment : List Char} (isComment : IsComment comment) {rest : List Char}
    (stop : rest.dropWhile isLineChar = rest) (solid : skipGaps rest = rest)
    (bare : rest.head? ≠ some '#') :
    endLine (comment ++ rest) = if rest.isEmpty then some [] else afterBreak? rest := by
  rcases isComment with rfl | ⟨words, rfl, inLine⟩
  · rw [List.nil_append, endLine, solid]
    cases rest with
    | nil => rfl
    | cons c rest =>
        have other : c ≠ '#' := fun same => bare (congrArg some same)
        simp [other]
  · have areLine : ∀ c ∈ words, isLineChar c = true :=
      fun c member => (isLineChar_iff c).mpr (inLine c member)
    have skipped : (words ++ rest).dropWhile isLineChar = rest := by
      rw [List.dropWhile_append_of_pos areLine, stop]
    rw [List.cons_append, endLine, skipGaps_cons (by decide)]
    simp only [skipped]

theorem LineEnd.read {rest next : List Char} (ends : LineEnd rest next) :
    endLine rest = some next := by
  cases ends with
  | @broken gaps comment cs next areGaps isComment isBreak =>
      have stop : (cs ++ next).dropWhile isLineChar = cs ++ next := by
        rcases isBreak with rfl | rfl <;> rfl
      have bare : (cs ++ next).head? ≠ some '#' := by
        rcases isBreak with rfl | rfl <;> simp
      have present : (cs ++ next).isEmpty = false := by
        rcases isBreak with rfl | rfl <;> rfl
      rw [endLine_gaps areGaps, endLine_comment isComment stop (skipGaps_break isBreak next) bare,
        present, afterBreak?_break isBreak]
      rfl
  | @last gaps comment areGaps isComment =>
      have stop : [].dropWhile isLineChar = [] := rfl
      have read := endLine_comment isComment stop rfl nofun
      rw [List.append_nil] at read
      rw [endLine_gaps areGaps, read]
      rfl

theorem IsComment.endsValue {comment : List Char} (isComment : IsComment comment)
    {rest : List Char} (ends : EndsValue rest) : EndsValue (comment ++ rest) := by
  rcases isComment with rfl | ⟨words, rfl, -⟩
  · exact ends
  · exact endsValue_of_mark (by decide) _

theorem IsBreak.endsValue {cs : List Char} (isBreak : IsBreak cs) (rest : List Char) :
    EndsValue (cs ++ rest) := by
  rcases isBreak with rfl | rfl
  · exact endsValue_of_mark (by decide) _
  · exact endsValue_of_mark (by decide) _

/-- What ends a line ends the value before it. -/
theorem LineEnd.endsValue {rest next : List Char} (ends : LineEnd rest next) : EndsValue rest := by
  cases ends with
  | broken areGaps isComment isBreak =>
      exact EndsValue.gaps areGaps (isComment.endsValue (isBreak.endsValue _))
  | last areGaps isComment =>
      have ends := EndsValue.gaps areGaps (isComment.endsValue endsValue_nil)
      rwa [List.append_nil] at ends

/-- After its gaps, the end of a line begins with a comment or a break. -/
theorem LineEnd.head_skipGaps {line next : List Char} (ends : LineEnd line next) {c : Char}
    (head : (skipGaps line).head? = some c) : c = '#' ∨ c = '\n' ∨ c = '\r' := by
  cases ends with
  | broken areGaps isComment isBreak =>
      rw [skipGaps_append areGaps] at head
      rcases isComment with rfl | ⟨words, rfl, -⟩
      · rw [List.nil_append, skipGaps_break isBreak] at head
        rcases isBreak with rfl | rfl
        · exact Or.inr (Or.inl (Option.some.inj head).symm)
        · exact Or.inr (Or.inr (Option.some.inj head).symm)
      · exact Or.inl (Option.some.inj head).symm
  | last areGaps isComment =>
      rw [skipGaps_append areGaps] at head
      rcases isComment with rfl | ⟨words, rfl, -⟩
      · cases head
      · exact Or.inl (Option.some.inj head).symm

theorem LineEnd.length_lt {line next : List Char} (ends : LineEnd line next)
    (present : line ≠ []) : next.length < line.length := by
  cases ends with
  | broken areGaps isComment isBreak =>
      rcases isBreak with rfl | rfl <;> simp only [List.length_append, List.length_cons] <;> omega
  | last areGaps isComment => exact List.length_pos_iff.mpr present

theorem LineEnd.length_le {line next : List Char} (ends : LineEnd line next) :
    next.length ≤ line.length := by
  cases ends with
  | broken areGaps isComment isBreak => simp only [List.length_append]; omega
  | last areGaps isComment => exact Nat.zero_le _

/-! ## Expressions -/

section Expressions

variable {limited : Prop} {form rest next : List Char}

theorem SpellsExpression.opens {expression : Expression}
    (spells : SpellsExpression limited form expression) :
    ∃ c tail, form = c :: tail ∧ c ∉ outerMarks := by
  cases spells with
  | pair spells shallow =>
      obtain ⟨c, tail, opens, solid, -⟩ := spells.opens
      exact ⟨c, tail, opens, solid⟩
  | header | member => exact ⟨_, _, rfl, by decide⟩

theorem SpellsPair.readExpression_settles {depth : Nat} {key : Key} {item : Item}
    (spells : SpellsPair limited (SpellsValue limited depth) form key item)
    (shallow : limited → depth < 80) (ends : LineEnd rest next) :
    Settles limited (readExpression (form ++ rest)) (some (.pair key item, next)) := by
  have reads : Reads limited nestingLimit _ := reads_value depth 80 shallow
  obtain ⟨first, others, opens, -, noBracket⟩ := spells.opens
  have noHeader (left : List Char) : form ++ rest ≠ '[' :: left := by
    intro same
    rw [opens, List.cons_append] at same
    exact noBracket (List.cons.inj same).1
  rw [readExpression.eq_3 _ (fun left => noHeader _) noHeader]
  cases spells with
  | @intro keyForm before behind valueForm _ _ spellsKey gapsBefore gapsBehind spells =>
      have key := spellsKey.read areGaps_nil gapsBefore (Or.inl rfl)
        (behind ++ (valueForm ++ rest))
      have value := reads.read spells ends.endsValue (3 * (valueForm ++ rest).length + 3)
        (by rw [List.length_append]; omega)
      obtain ⟨c, tail, rfl, solid⟩ := reads.opens spells
      have skipped : skipGaps (behind ++ (c :: tail ++ rest)) = c :: tail ++ rest := by
        rw [skipGaps_append gapsBehind, List.cons_append,
          skipGaps_cons (solid_of_not_mark solid).1]
      simp only [List.append_assoc, List.cons_append, List.nil_append] at key skipped ⊢
      rcases key with read | ⟨read, unsure⟩
      · rw [read]
        simp only [skipped, readWholeValue]
        rcases value with read | ⟨read, unsure⟩
        · rw [List.cons_append] at read
          simp only [read, ends.read]
          exact .of_eq rfl
        · rw [List.cons_append] at read
          rw [read]
          exact .refused unsure
      · rw [read]
        exact .refused unsure

/-- An expression is read with the end of its line, unless it is beyond the limits. -/
theorem SpellsExpression.read {expression : Expression}
    (spells : SpellsExpression limited form expression) (ends : LineEnd rest next) :
    Settles limited (readExpression (form ++ rest)) (some (expression, next)) := by
  cases spells with
  | pair spells shallow => exact spells.readExpression_settles shallow ends
  | @header before form behind key gapsBefore spells gapsBehind =>
      have read := spells.read gapsBefore gapsBehind (Or.inr rfl) rest
      have single (left : List Char) :
          before ++ (form ++ (behind ++ ']' :: rest)) ≠ '[' :: left := by
        obtain ⟨c, tail, opens, -, noBracket⟩ := spells.names.opens
        intro same
        cases before with
        | nil =>
            rw [List.nil_append, opens] at same
            exact noBracket (List.cons.inj same).1
        | cons gap before =>
            obtain rfl : gap = '[' := (List.cons.inj same).1
            exact absurd (gapsBefore '[' List.mem_cons_self) (by decide)
      simp only [List.append_assoc, List.cons_append, List.nil_append]
      rw [readExpression.eq_2 _ fun left same => single left same]
      rcases read with read | ⟨read, unsure⟩
      · rw [read]
        simp only [ends.read]
        exact .of_eq rfl
      · rw [read]
        exact .refused unsure
  | @member before form behind key gapsBefore spells gapsBehind =>
      have read := spells.read gapsBefore gapsBehind (Or.inr rfl) (']' :: rest)
      simp only [List.append_assoc, List.cons_append, List.nil_append]
      rw [readExpression]
      rcases read with read | ⟨read, unsure⟩
      · rw [read]
        simp only [ends.read]
        exact .of_eq rfl
      · rw [read]
        exact .refused unsure

theorem SpellsExpression.isPlain {expression : Expression}
    (spells : SpellsExpression limited form expression) : expression.IsPlain := by
  cases spells with
  | pair spells shallow =>
      cases spells with
      | intro key before behind spells => exact SpellsValue.isTable_eq spells
  | header | member => trivial

end Expressions

/-! ## Documents -/

/-- A line is read up to its expression, if that begins with no mark of a blank line. -/
theorem readExpressions_gaps {gaps : List Char} (areGaps : AreGaps gaps) {c : Char}
    (solid : c ∉ outerMarks) (rest : List Char) (fuel : Nat) (state : State) :
    readExpressions (fuel + 1) state (gaps ++ c :: rest) =
      (readExpression (c :: rest)).bind fun read =>
        (state.apply read.1).bind fun state => readExpressions fuel state read.2 := by
  obtain ⟨noGap, noComment, noFeed, noReturn⟩ := solid_of_not_mark solid
  rw [readExpressions, skipGaps_append areGaps, skipGaps_cons noGap]
  simp only [noComment, noFeed, noReturn, or_self, if_false]
  cases readExpression (c :: rest) with
  | none => rfl
  | some read =>
      simp only [Option.bind_some]
      cases state.apply read.1 <;> rfl

/-- A blank line is passed over. -/
theorem readExpressions_blank {line next : List Char} (ends : LineEnd line next) (fuel : Nat)
    (state : State) :
    readExpressions (fuel + 1) state line = readExpressions fuel state next ∨
      next = [] ∧ readExpressions (fuel + 1) state line = some state := by
  have read := ends.read
  rw [← endLine_skipGaps] at read
  rw [readExpressions]
  cases begins : skipGaps line with
  | nil =>
      rw [begins] at read
      exact Or.inr ⟨(Option.some.inj read).symm, rfl⟩
  | cons c rest =>
      have mark : c = '#' ∨ c = '\n' ∨ c = '\r' := ends.head_skipGaps (by rw [begins]; rfl)
      rw [begins] at read
      left
      simp only [if_pos mark, read, Option.bind_some]

section Documents

variable {limited : Prop} {expressions : List Expression}

/-- The expressions of lines are applied one after the other, before what is left is read. -/
theorem Lines.read {left text : List Char} (lines : Lines limited left text expressions)
    (fuel : Nat) (enough : text.length < fuel) :
    ∃ less, left.length < less ∧ ∀ state, Settles limited (readExpressions fuel state text)
      ((expressions.foldlM State.apply state).bind fun state =>
        readExpressions less state left) := by
  induction lines generalizing fuel with
  | done => exact ⟨fuel, enough, fun state => .of_eq rfl⟩
  | @blank line next expressions present ends more ih =>
      have shorter := ends.length_lt present
      obtain ⟨fuel, rfl⟩ := Nat.exists_eq_add_one.mpr (show 0 < fuel by omega)
      obtain ⟨less, enough, rest⟩ := ih fuel (by omega)
      refine ⟨less, enough, ?_⟩
      intro state
      have rest := rest state
      rcases readExpressions_blank ends fuel state with same | ⟨rfl, done⟩
      · rwa [same]
      · obtain ⟨fuel, rfl⟩ := Nat.exists_eq_add_one.mpr (show 0 < fuel by omega)
        rw [done]
        exact rest
  | @expression gaps form rest next expression expressions areGaps spells ends more ih =>
      obtain ⟨c, tail, opens, solid⟩ := spells.opens
      have shorter := ends.length_le
      have present : 0 < form.length := by rw [opens]; exact Nat.succ_pos _
      rw [List.length_append, List.length_append] at enough
      obtain ⟨fuel, rfl⟩ := Nat.exists_eq_add_one.mpr (show 0 < fuel by omega)
      obtain ⟨less, enough, others⟩ := ih fuel (by omega)
      refine ⟨less, enough, ?_⟩
      intro state
      have read := spells.read ends
      rw [opens, List.cons_append] at read ⊢
      rw [readExpressions_gaps areGaps solid, List.foldlM_cons]
      rcases read with read | ⟨read, unsure⟩
      · rw [read]
        cases applied : state.apply expression with
        | none => simp only [Option.bind_some, applied]; exact .of_eq rfl
        | some state => simp only [Option.bind_some, applied]; exact others state
      · rw [read]
        exact .refused unsure

theorem Lines.isPlain {left text : List Char} (lines : Lines limited left text expressions) :
    ∀ expression ∈ expressions, expression.IsPlain := by
  induction lines with
  | done => exact List.forall_mem_nil _
  | blank present ends more ih => exact ih
  | expression areGaps spells ends more ih => exact List.forall_mem_cons.mpr ⟨spells.isPlain, ih⟩

end Documents

end RobotConsole.Toml
