import RobotConsole.Proofs.Sessions

/-!
# The rows of a table over a session

A turn edits a table in one of two ways, if at all: it adds a row at the end, or it thins the table
out, which leaves the other rows in their order.  So every row was added by some turn, and a row
that is the first with its code stays the first until a turn takes it away.
-/

set_option autoImplicit false

namespace RobotConsole

open Index (Tables RobotRow ExecutionRow PeriodicalRow)

/-! ## Edits of a table -/

/-- From `rows` to `left` a table has been edited at most once: by a row that `adds` holds of, or by
taking away rows that `removes` holds of. -/
inductive Edited {Row : Type} (adds removes : Row → Prop) (rows : List Row) : List Row → Prop where
  | same : Edited adds removes rows rows
  | grown {row : Row} (added : adds row) : Edited adds removes rows (rows ++ [row])
  | thinned {keep : Row → Bool} (removed : ∀ row, keep row = false → removes row) :
      Edited adds removes rows (rows.filter keep)

namespace Edited

variable {Row : Type} {adds removes : Row → Prop} {rows left : List Row} {row : Row}

theorem mem_cases (edited : Edited adds removes rows left) (member : row ∈ left) :
    row ∈ rows ∨ adds row := by
  cases edited with
  | same => exact Or.inl member
  | grown added =>
      rcases List.mem_append.mp member with old | new
      · exact Or.inl old
      · rw [List.mem_singleton.mp new]
        exact Or.inr added
  | thinned => exact Or.inl (List.mem_of_mem_filter member)

theorem stays (edited : Edited adds removes rows left) (member : row ∈ rows)
    (spared : ¬ removes row) : row ∈ left := by
  cases edited with
  | same => exact member
  | grown => exact List.mem_append_left _ member
  | @thinned keep removed =>
      apply List.mem_filter.mpr
      refine ⟨member, ?_⟩
      cases kept : keep row with
      | true => rfl
      | false => exact absurd (removed row kept) spared

/-- The first row of its sort is still the first if it is still there. -/
theorem find?_stays (edited : Edited adds removes rows left) {wanted : Row → Bool}
    (first : rows.find? wanted = some row) (there : row ∈ left) : left.find? wanted = some row := by
  cases edited with
  | same => exact first
  | grown => rw [List.find?_append, first, Option.some_or]
  | @thinned keep removed =>
      have kept : keep row = true := (List.mem_filter.mp there).2
      obtain ⟨fits, before, after, split, others⟩ := List.find?_eq_some_iff_append.mp first
      apply List.find?_eq_some_iff_append.mpr
      refine ⟨fits, before.filter keep, after.filter keep, ?_, ?_⟩
      · rw [split, List.filter_append, List.filter_cons_of_pos kept]
      · intro other member
        exact others other (List.mem_of_mem_filter member)

theorem without {codeOf : Row → String} {code : String}
    (removed : ∀ row, codeOf row = code → removes row) :
    Edited adds removes rows (rows.filter fun row => codeOf row != code) := by
  refine .thinned ?_
  intro row dropped
  have same : codeOf row = code := by simpa using dropped
  exact removed row same

end Edited

/-! ## What a turn adds and removes -/

namespace Turn

/-- The service has told the turn of a resource. -/
def Tells (turn : Turn) (url code : String) : Prop :=
  ∃ location, turn.exchange.Creates location code ∧ Address.stem location = url

def AddsRobot (turn : Turn) (row : RobotRow) : Prop :=
  (∃ server xml file, turn.command = .createRobot server xml file) ∧ turn.Tells row.url row.code

def AddsExecution (turn : Turn) (row : ExecutionRow) : Prop :=
  (∃ inputs, turn.command = .executeRobot row.robot inputs) ∧ turn.Tells row.url row.code

def AddsPeriodical (turn : Turn) (row : PeriodicalRow) : Prop :=
  (∃ period inputs, turn.command = .scheduleRobot row.robot period inputs) ∧
    turn.Tells row.url row.code

def MayRemoveRobot (turn : Turn) (row : RobotRow) : Prop :=
  turn.command = .deleteRobot row.code

def MayRemoveExecution (turn : Turn) (row : ExecutionRow) : Prop :=
  turn.command = .deleteExecution row.code ∨ turn.command = .deleteRobot row.robot

def MayRemovePeriodical (turn : Turn) (row : PeriodicalRow) : Prop :=
  turn.command = .deletePeriodical row.code ∨ turn.command = .deleteRobot row.robot

variable {turn : Turn} {tables left : Tables}

theorem tells_of_created {reply : Response} {rest : List Answer} {url code : String}
    (answered : turn.exchange.answers = .response reply :: rest)
    (created : Created reply url code) :
    turn.Tells url code := by
  obtain ⟨location, located, isStem⟩ := created.located
  have stem := Address.isStem_iff.mp isStem
  have coded : Code.find? location = some code := by
    rw [← Code.find?_stem, stem]
    exact created.coded
  exact ⟨location, ⟨⟨reply, rest, answered, created.least, created.most, located⟩, coded⟩, stem⟩

theorem Leaves.robots_edited (leaves : turn.Leaves tables left) :
    Edited turn.AddsRobot turn.MayRemoveRobot tables.robots left.robots := by
  cases leaves with
  | alone => exact .same
  | changed answered due =>
      generalize asked : turn.command = command at due
      cases due with
      | robot rooted given created =>
          exact .grown ⟨⟨_, _, _, asked⟩, tells_of_created answered created⟩
      | robotRemoval =>
          apply Edited.without
          intro row same
          rw [MayRemoveRobot, same]
          exact asked
      | execution | periodical | executionRemoval | periodicalRemoval => exact .same
  | @brokenOff code steps deletion =>
      rcases Tables.deletion_cases code steps tables with none | executions | history | whole
      · rw [none]
        exact .same
      · rw [executions]
        exact .same
      · rw [history]
        exact .same
      · rw [whole]
        apply Edited.without
        intro row same
        rw [MayRemoveRobot, same]
        exact deletion

theorem Leaves.executions_edited (leaves : turn.Leaves tables left) :
    Edited turn.AddsExecution turn.MayRemoveExecution tables.executions left.executions := by
  -- the rows of a robot go in the first step of its deletion
  have ofRobot : ∀ code, turn.command = .deleteRobot code →
      Edited turn.AddsExecution turn.MayRemoveExecution tables.executions
        (tables.dropExecutionsOf code).executions := by
    intro code deletion
    apply Edited.without
    intro row same
    rw [MayRemoveExecution, same]
    exact Or.inr deletion
  cases leaves with
  | alone => exact .same
  | changed answered due =>
      generalize asked : turn.command = command at due
      cases due with
      | execution found created => exact .grown ⟨⟨_, asked⟩, tells_of_created answered created⟩
      | robotRemoval => exact ofRobot _ asked
      | executionRemoval =>
          apply Edited.without
          intro row same
          rw [MayRemoveExecution, same]
          exact Or.inl asked
      | robot | periodical | periodicalRemoval => exact .same
  | @brokenOff code steps deletion =>
      rcases Tables.deletion_cases code steps tables with none | executions | history | whole
      · rw [none]
        exact .same
      · rw [executions]
        exact ofRobot code deletion
      · rw [history]
        exact ofRobot code deletion
      · rw [whole]
        exact ofRobot code deletion

theorem Leaves.periodicals_edited (leaves : turn.Leaves tables left) :
    Edited turn.AddsPeriodical turn.MayRemovePeriodical tables.periodicals left.periodicals := by
  -- the rows of a robot go in the second step of its deletion
  have ofRobot : ∀ code, turn.command = .deleteRobot code →
      Edited turn.AddsPeriodical turn.MayRemovePeriodical tables.periodicals
        (tables.dropPeriodicalsOf code).periodicals := by
    intro code deletion
    apply Edited.without
    intro row same
    rw [MayRemovePeriodical, same]
    exact Or.inr deletion
  cases leaves with
  | alone => exact .same
  | changed answered due =>
      generalize asked : turn.command = command at due
      cases due with
      | periodical found created => exact .grown ⟨⟨_, _, asked⟩, tells_of_created answered created⟩
      | robotRemoval => exact ofRobot _ asked
      | periodicalRemoval =>
          apply Edited.without
          intro row same
          rw [MayRemovePeriodical, same]
          exact Or.inl asked
      | robot | execution | executionRemoval => exact .same
  | @brokenOff code steps deletion =>
      rcases Tables.deletion_cases code steps tables with none | executions | history | whole
      · rw [none]
        exact .same
      · rw [executions]
        exact .same
      · rw [history]
        exact ofRobot code deletion
      · rw [whole]
        exact ofRobot code deletion

end Turn

/-! ## Sessions -/

namespace Session

/-- At every turn of a session something holds of the turn and of the tables that it finds. -/
def Throughout (holds : Turn → Tables → Prop) : List Turn → Tables → Prop
  | [], _ => True
  | turn :: rest, tables => holds turn tables ∧ Throughout holds rest (turn.run tables)

theorem Throughout.imp {holds weaker : Turn → Tables → Prop}
    (weaken : ∀ turn tables, holds turn tables → weaker turn tables)
    {turns : List Turn} {tables : Tables} (throughout : Throughout holds turns tables) :
    Throughout weaker turns tables := by
  induction turns generalizing tables with
  | nil => exact trivial
  | cons turn rest ih => exact ⟨weaken turn tables throughout.1, ih throughout.2⟩

section Rows

variable {Row : Type} {rowsOf : Tables → List Row} {adds removes : Turn → Row → Prop}
  (edited : ∀ turn tables, Edited (adds turn) (removes turn) (rowsOf tables)
    (rowsOf (turn.run tables)))
include edited

/-- Every row that a session leaves was there before, or was added by a turn. -/
theorem mem_cases (turns : List Turn) (tables : Tables) (row : Row)
    (member : row ∈ rowsOf (run turns tables)) :
    row ∈ rowsOf tables ∨ ∃ turn ∈ turns, adds turn row := by
  induction turns generalizing tables with
  | nil => exact Or.inl member
  | cons turn rest ih =>
      rcases ih (turn.run tables) member with earlier | ⟨later, among, added⟩
      · rcases (edited turn tables).mem_cases earlier with before | added
        · exact Or.inl before
        · exact Or.inr ⟨turn, List.mem_cons_self, added⟩
      · exact Or.inr ⟨later, List.mem_cons_of_mem _ among, added⟩

/-- The first row of its sort stays the first while no turn takes it away. -/
theorem find?_stays {wanted : Row → Bool} {row : Row} (turns : List Turn) (tables : Tables)
    (first : (rowsOf tables).find? wanted = some row)
    (spared : Throughout (fun turn tables =>
      removes turn row → row ∈ rowsOf tables → row ∈ rowsOf (turn.run tables)) turns tables) :
    (rowsOf (run turns tables)).find? wanted = some row := by
  induction turns generalizing tables with
  | nil => exact first
  | cons turn rest ih =>
      obtain ⟨now, later⟩ := spared
      have before : row ∈ rowsOf tables := List.mem_of_find?_eq_some first
      have there : row ∈ rowsOf (turn.run tables) := by
        by_cases removed : removes turn row
        · exact now removed before
        · exact (edited turn tables).stays before removed
      exact ih (turn.run tables) ((edited turn tables).find?_stays first there) later

end Rows

end Session

end RobotConsole
