import RobotConsole.Proofs.Listing
import RobotConsole.Proofs.Sessions

/-!
# No history without its robot

A row of an execution or a periodical execution names its robot by the robot's code, and nothing in
the index makes sure that the robot is there.  A row is added only after the robot has been found,
and the deletion of a robot takes the rows of its history before its own, so that none is left over
when the deletion breaks off between two steps.  Hence in every session whatever the index has an
address for is also listed.
-/

set_option autoImplicit false

namespace RobotConsole

open Index (Tables)

namespace Index.Tables

/-- The index knows the robot of every row. -/
structure NoOrphans (tables : Tables) : Prop where
  executions : ∀ row ∈ tables.executions, tables.Knows row.robot
  periodicals : ∀ row ∈ tables.periodicals, tables.Knows row.robot

namespace NoOrphans

theorem empty : NoOrphans Tables.empty :=
  ⟨fun _ member => absurd member List.not_mem_nil, fun _ member => absurd member List.not_mem_nil⟩

variable {tables : Tables}

/-! ## Adding rows -/

theorem pushRobot (fine : tables.NoOrphans) (row : RobotRow) :
    (tables.pushRobot row).NoOrphans := by
  have known : ∀ robot, tables.Knows robot → (tables.pushRobot row).Knows robot := by
    rintro robot ⟨found, member, coded⟩
    exact ⟨found, List.mem_append_left _ member, coded⟩
  exact ⟨fun row member => known _ (fine.executions row member),
    fun row member => known _ (fine.periodicals row member)⟩

theorem pushExecution (fine : tables.NoOrphans) (row : ExecutionRow)
    (known : tables.Knows row.robot) :
    (tables.pushExecution row).NoOrphans := by
  refine ⟨?_, fine.periodicals⟩
  intro other member
  rcases List.mem_append.mp member with old | new
  · exact fine.executions other old
  · rw [List.mem_singleton.mp new]
    exact known

theorem pushPeriodical (fine : tables.NoOrphans) (row : PeriodicalRow)
    (known : tables.Knows row.robot) :
    (tables.pushPeriodical row).NoOrphans := by
  refine ⟨fine.executions, ?_⟩
  intro other member
  rcases List.mem_append.mp member with old | new
  · exact fine.periodicals other old
  · rw [List.mem_singleton.mp new]
    exact known

/-! ## Dropping rows -/

theorem dropExecutions (fine : tables.NoOrphans) (keep : ExecutionRow → Bool) :
    NoOrphans { tables with executions := tables.executions.filter keep } :=
  ⟨fun row member => fine.executions row (List.mem_of_mem_filter member), fine.periodicals⟩

theorem dropPeriodicals (fine : tables.NoOrphans) (keep : PeriodicalRow → Bool) :
    NoOrphans { tables with periodicals := tables.periodicals.filter keep } :=
  ⟨fine.executions, fun row member => fine.periodicals row (List.mem_of_mem_filter member)⟩

/-- Robots may go once their history is gone. -/
theorem dropRobots (fine : tables.NoOrphans) (code : String)
    (executionsGone : ∀ row ∈ tables.executions, row.robot ≠ code)
    (periodicalsGone : ∀ row ∈ tables.periodicals, row.robot ≠ code) :
    (tables.dropRobots code).NoOrphans := by
  have known : ∀ robot, robot ≠ code → tables.Knows robot →
      (tables.dropRobots code).Knows robot := by
    rintro robot other ⟨found, member, coded⟩
    refine ⟨found, List.mem_filter.mpr ⟨member, ?_⟩, coded⟩
    rw [coded]
    exact bne_iff_ne.mpr other
  constructor
  · intro row member
    exact known _ (executionsGone row member) (fine.executions row member)
  · intro row member
    exact known _ (periodicalsGone row member) (fine.periodicals row member)

theorem dropHistory (fine : tables.NoOrphans) (code : String) :
    ((tables.dropExecutionsOf code).dropPeriodicalsOf code).NoOrphans :=
  (fine.dropExecutions _).dropPeriodicals _

theorem dropRobot (fine : tables.NoOrphans) (code : String) :
    ((Change.dropRobot code).apply tables).NoOrphans := by
  -- the robot goes when the first two steps have taken every row of its history
  apply (fine.dropHistory code).dropRobots code
  · intro row member
    exact bne_iff_ne.mp (List.mem_filter.mp member).2
  · intro row member
    exact bne_iff_ne.mp (List.mem_filter.mp member).2

/-- However many of its steps a deletion takes, it leaves no row without its robot. -/
theorem deletion (fine : tables.NoOrphans) (code : String) (steps : Nat) :
    (applySteps ((deletionSteps code).take steps) tables).NoOrphans := by
  rcases deletion_cases code steps tables with none | executions | history | whole
  · rw [none]
    exact fine
  · rw [executions]
    exact fine.dropExecutions _
  · rw [history]
    exact fine.dropHistory code
  · rw [whole]
    exact fine.dropRobot code

end NoOrphans

theorem knows_of_robotUrl? {tables : Tables} {code url : String}
    (found : tables.robotUrl? code = some url) :
    tables.Knows code :=
  mem_of_find?_code found

end Index.Tables

/-! ## Commands and sessions -/

theorem Due.noOrphans {surroundings : Surroundings} {tables : Tables} {reply : Response}
    {command : Command}
    {request : Request} {change : Change}
    (due : Due surroundings tables reply command request change)
    (fine : tables.NoOrphans) : (change.apply tables).NoOrphans := by
  cases due with
  | robot => exact fine.pushRobot _
  | execution found => exact fine.pushExecution _ (Tables.knows_of_robotUrl? found)
  | periodical found => exact fine.pushPeriodical _ (Tables.knows_of_robotUrl? found)
  | robotRemoval => exact fine.dropRobot _
  | executionRemoval => exact fine.dropExecutions _
  | periodicalRemoval => exact fine.dropPeriodicals _

theorem Turn.Leaves.noOrphans {turn : Turn} {tables left : Tables}
    (leaves : turn.Leaves tables left) (fine : tables.NoOrphans) : left.NoOrphans := by
  cases leaves with
  | alone => exact fine
  | changed answered due => exact due.noOrphans fine
  | brokenOff steps => exact fine.deletion _ steps

namespace Session

theorem noOrphans_run (turns : List Turn) (tables : Tables) (fine : tables.NoOrphans) :
    (run turns tables).NoOrphans := by
  induction turns generalizing tables with
  | nil => exact fine
  | cons turn rest ih => exact ih (turn.run tables) ((turn.leaves tables).noOrphans fine)

/-! ## What can be addressed is listed -/

theorem isSome_find?_code_iff {Row : Type} (rows : List Row) (codeOf urlOf : Row → String)
    (code : String) :
    ((rows.find? fun row => codeOf row == code).map urlOf).isSome = true ↔ ∃ row ∈ rows,
      codeOf row = code := by
  simp

/-- In a session that starts with an empty index, every row of a history has its robot, and a code
has an address just when the listing shows a row with it. -/
theorem history_is_listed (turns : List Turn) :
    (run turns .empty).NoOrphans ∧
      (∀ code, ((run turns .empty).executionUrl? code).isSome = true ↔
        ∃ record ∈ (run turns .empty).listing, ∃ row ∈ record.executions, row.code = code) ∧
      ∀ code, ((run turns .empty).periodicalUrl? code).isSome = true ↔
        ∃ record ∈ (run turns .empty).listing, ∃ row ∈ record.periodicals, row.code = code := by
  have fine : (run turns .empty).NoOrphans := noOrphans_run turns .empty .empty
  refine ⟨fine, ?_, ?_⟩
  · intro code
    refine (isSome_find?_code_iff _ _ _ code).trans ?_
    constructor
    · rintro ⟨row, stored, coded⟩
      obtain ⟨record, listed, member⟩ :=
        (Tables.execution_listed_iff _ row).mpr ⟨stored, fine.executions row stored⟩
      exact ⟨record, listed, row, member, coded⟩
    · rintro ⟨record, listed, row, member, coded⟩
      obtain ⟨stored, -⟩ := (Tables.execution_listed_iff _ row).mp ⟨record, listed, member⟩
      exact ⟨row, stored, coded⟩
  · intro code
    refine (isSome_find?_code_iff _ _ _ code).trans ?_
    constructor
    · rintro ⟨row, stored, coded⟩
      obtain ⟨record, listed, member⟩ :=
        (Tables.periodical_listed_iff _ row).mpr ⟨stored, fine.periodicals row stored⟩
      exact ⟨record, listed, row, member, coded⟩
    · rintro ⟨record, listed, row, member, coded⟩
      obtain ⟨stored, -⟩ := (Tables.periodical_listed_iff _ row).mp ⟨record, listed, member⟩
      exact ⟨row, stored, coded⟩

end Session

end RobotConsole
