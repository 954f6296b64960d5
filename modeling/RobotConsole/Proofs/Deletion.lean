import RobotConsole.Proofs.NewestFirst
import RobotConsole.Proofs.RunSteps

/-!
# Deletions are exact

Three tables have a code in every row, and two of them the code of a robot beside it.  What goes
with a deletion is what the deletion names and nothing else: with a robot its record and the whole
history under its code, with an execution or a periodical execution its rows, whichever robots have
them.  All that stays keeps its order and can be looked up as before.
-/

set_option autoImplicit false

namespace RobotConsole.Index

/-! ## Rows that go from one table -/

section Rows

variable {Row : Type} (nameOf : Row → String) (rows : List Row) (gone : String)

/-- Of the rows under a name none is missing, unless it is the name under which rows are gone. -/
theorem filter_drop (name : String) :
    (rows.filter fun row => nameOf row != gone).filter (fun row => nameOf row == name) =
      if name = gone then [] else rows.filter fun row => nameOf row == name := by
  rw [List.filter_filter]
  by_cases same : name = gone
  · rw [if_pos same, List.filter_eq_nil_iff]
    intro row _
    simp [same]
  · rw [if_neg same]
    apply List.filter_congr
    intro row _
    by_cases own : nameOf row = name <;> simp [own, same]

theorem url?_drop (urlOf : Row → String) (name : String) :
    ((rows.filter fun row => nameOf row != gone).find? fun row => nameOf row == name).map urlOf =
      if name = gone then none else (rows.find? fun row => nameOf row == name).map urlOf := by
  rw [← List.head?_filter, filter_drop, ← List.head?_filter, apply_ite List.head?,
    apply_ite (Option.map urlOf)]
  rfl

theorem newestFirst_drop (created : Row → Int) (name : String) :
    newestFirst created ((rows.filter fun row => nameOf row != gone).filter fun row =>
      nameOf row == name) =
      if name = gone then [] else newestFirst created
        (rows.filter fun row => nameOf row == name) := by
  rw [filter_drop, apply_ite (newestFirst created)]
  rfl

/-- Rows that go under a name of one kind only leave their places in what is listed under a name of
another kind. -/
theorem newestFirst_drop_other (created : Row → Int) (ownerOf : Row → String) (owner : String) :
    newestFirst created ((rows.filter fun row => nameOf row != gone).filter fun row =>
      ownerOf row == owner) =
      (newestFirst created (rows.filter fun row => ownerOf row == owner)).filter fun row =>
        nameOf row != gone := by
  rw [← newestFirst_filter, List.filter_filter, List.filter_filter]
  simp only [Bool.and_comm]

/-- What is counted is what goes. -/
theorem length_drop :
    (rows.filter fun row => nameOf row != gone).length +
      (rows.countP fun row => nameOf row == gone) = rows.length := by
  rw [← List.countP_eq_length_filter, Nat.add_comm]
  simpa only [bne, Bool.not_eq_true, Bool.decide_eq_false] using
    (List.length_eq_countP_add_countP fun row => nameOf row == gone).symm

/-- Nothing is left to go again. -/
theorem drop_again :
    ((rows.filter fun row => nameOf row != gone).countP fun row => nameOf row == gone) = 0 ∧
      (rows.filter fun row => nameOf row != gone).filter (fun row => nameOf row != gone) =
        rows.filter fun row => nameOf row != gone := by
  constructor
  · rw [List.countP_eq_length_filter, filter_drop, if_pos rfl, List.length_nil]
  · rw [List.filter_filter]
    simp only [Bool.and_self]

end Rows

/-! ## What is left of the index -/

namespace Tables

/-- The robots of a code are gone with their history, and nothing else is. -/
structure WithoutRobot (code : String) (tables left : Tables) : Prop where
  listing : left.listing = tables.listing.filter fun record => record.row.code != code
  robotUrl? : ∀ other, left.robotUrl? other = if other = code then none else tables.robotUrl? other
  executionsOf : ∀ robot, left.executionsOf robot = if robot = code then []
    else tables.executionsOf robot
  periodicalsOf : ∀ robot, left.periodicalsOf robot = if robot = code then []
    else tables.periodicalsOf robot

structure WithoutExecution (code : String) (tables left : Tables) : Prop where
  listing : left.listing = tables.listing.map fun record =>
    { record with executions := record.executions.filter fun row => row.code != code }
  executionsOf : ∀ robot, left.executionsOf robot = (tables.executionsOf robot).filter fun row =>
    row.code != code
  periodicalsOf : ∀ robot, left.periodicalsOf robot = tables.periodicalsOf robot
  robotUrl? : ∀ other, left.robotUrl? other = tables.robotUrl? other
  executionUrl? : ∀ other, left.executionUrl? other = if other = code then none
    else tables.executionUrl? other
  periodicalUrl? : ∀ other, left.periodicalUrl? other = tables.periodicalUrl? other

structure WithoutPeriodical (code : String) (tables left : Tables) : Prop where
  listing : left.listing = tables.listing.map fun record =>
    { record with periodicals := record.periodicals.filter fun row => row.code != code }
  executionsOf : ∀ robot, left.executionsOf robot = tables.executionsOf robot
  periodicalsOf : ∀ robot, left.periodicalsOf robot = (tables.periodicalsOf robot).filter fun row =>
    row.code != code
  robotUrl? : ∀ other, left.robotUrl? other = tables.robotUrl? other
  executionUrl? : ∀ other, left.executionUrl? other = tables.executionUrl? other
  periodicalUrl? : ∀ other, left.periodicalUrl? other = if other = code then none
    else tables.periodicalUrl? other

variable (code : String) (tables : Tables)

theorem executionsOf_deleteRobot (robot : String) :
    (tables.deleteRobot code).executionsOf robot = if robot = code then []
      else tables.executionsOf robot :=
  newestFirst_drop ExecutionRow.robot tables.executions code ExecutionRow.created robot

theorem periodicalsOf_deleteRobot (robot : String) :
    (tables.deleteRobot code).periodicalsOf robot = if robot = code then []
      else tables.periodicalsOf robot :=
  newestFirst_drop PeriodicalRow.robot tables.periodicals code PeriodicalRow.created robot

/-- A robot of another code keeps its record. -/
theorem recordOf_deleteRobot {row : RobotRow} (other : row.code ≠ code) :
    (tables.deleteRobot code).recordOf row = tables.recordOf row := by
  rw [recordOf, executionsOf_deleteRobot, periodicalsOf_deleteRobot, if_neg other, if_neg other]
  rfl

theorem listing_deleteRobot :
    (tables.deleteRobot code).listing = tables.listing.filter fun record =>
      record.row.code != code := by
  have robots : newestFirst RobotRow.created (tables.deleteRobot code).robots =
      (newestFirst RobotRow.created tables.robots).filter fun row => row.code != code :=
    newestFirst_filter _ tables.robots
  rw [listing, listing, robots, List.filter_map]
  apply List.map_congr_left
  intro row member
  exact recordOf_deleteRobot code tables (bne_iff_ne.mp (List.mem_filter.mp member).2)

theorem withoutRobot : WithoutRobot code tables (tables.deleteRobot code) where
  listing := listing_deleteRobot code tables
  robotUrl? := url?_drop RobotRow.code tables.robots code RobotRow.url
  executionsOf := executionsOf_deleteRobot code tables
  periodicalsOf := periodicalsOf_deleteRobot code tables

theorem executionsOf_deleteExecution (robot : String) :
    (tables.deleteExecution code).2.executionsOf robot =
      (tables.executionsOf robot).filter fun row => row.code != code :=
  newestFirst_drop_other ExecutionRow.code tables.executions code ExecutionRow.created
    ExecutionRow.robot robot

theorem withoutExecution : WithoutExecution code tables (tables.deleteExecution code).2 where
  listing := by
    apply listing_eq_map tables (tables.deleteExecution code).2 _ rfl
    intro row
    rw [recordOf, executionsOf_deleteExecution]
    rfl
  executionsOf := executionsOf_deleteExecution code tables
  periodicalsOf _ := rfl
  robotUrl? _ := rfl
  executionUrl? := url?_drop ExecutionRow.code tables.executions code ExecutionRow.url
  periodicalUrl? _ := rfl

theorem periodicalsOf_deletePeriodical (robot : String) :
    (tables.deletePeriodical code).2.periodicalsOf robot =
      (tables.periodicalsOf robot).filter fun row => row.code != code :=
  newestFirst_drop_other PeriodicalRow.code tables.periodicals code PeriodicalRow.created
    PeriodicalRow.robot robot

theorem withoutPeriodical : WithoutPeriodical code tables (tables.deletePeriodical code).2 where
  listing := by
    apply listing_eq_map tables (tables.deletePeriodical code).2 _ rfl
    intro row
    rw [recordOf, periodicalsOf_deletePeriodical]
    rfl
  executionsOf _ := rfl
  periodicalsOf := periodicalsOf_deletePeriodical code tables
  robotUrl? _ := rfl
  executionUrl? _ := rfl
  periodicalUrl? := url?_drop PeriodicalRow.code tables.periodicals code PeriodicalRow.url

theorem deleteExecution_again :
    (tables.deleteExecution code).2.deleteExecution code =
      (0, (tables.deleteExecution code).2) := by
  obtain ⟨none, same⟩ := drop_again ExecutionRow.code tables.executions code
  simp only [deleteExecution, none, same]

theorem deletePeriodical_again :
    (tables.deletePeriodical code).2.deletePeriodical code =
      (0, (tables.deletePeriodical code).2) := by
  obtain ⟨none, same⟩ := drop_again PeriodicalRow.code tables.periodicals code
  simp only [deletePeriodical, none, same]

end Tables

/-! ## Deletions on a store -/

namespace Keep

theorem deleteExecution_sound (code : String) (tables : Tables) :
    (deleteExecution code).run (.sound tables) =
      (.ok (tables.deleteExecution code).1, .sound (tables.deleteExecution code).2) := rfl

theorem deletePeriodical_sound (code : String) (tables : Tables) :
    (deletePeriodical code).run (.sound tables) =
      (.ok (tables.deletePeriodical code).1, .sound (tables.deletePeriodical code).2) := rfl

/-- Deletions succeed on every index, whatever its tables hold, and take from it what they name and
nothing else.  A deletion by the code of an execution or a periodical execution tells how many rows
went, and none goes by the same code again.  Where the index cannot be changed, deletions fail and
leave it as it is. -/
theorem deletions_are_exact (code : String) :
    (∀ tables,
      (∃ left, (deleteRobot code).run (.sound tables) = (.ok (), .sound left) ∧
        tables.WithoutRobot code left) ∧
      (∃ gone left, (deleteExecution code).run (.sound tables) = (.ok gone, .sound left) ∧
        gone = (tables.executions.countP fun row => row.code == code) ∧
        left.executions.length + gone = tables.executions.length ∧
          tables.WithoutExecution code left ∧
        (deleteExecution code).run (.sound left) = (.ok 0, .sound left)) ∧
      ∃ gone left, (deletePeriodical code).run (.sound tables) = (.ok gone, .sound left) ∧
        gone = (tables.periodicals.countP fun row => row.code == code) ∧
        left.periodicals.length + gone = tables.periodicals.length ∧
          tables.WithoutPeriodical code left ∧
        (deletePeriodical code).run (.sound left) = (.ok 0, .sound left)) ∧
    ∀ store, (∀ tables, store ≠ .sound tables) →
      (deleteRobot code).run store = (.error .storage, store) ∧
      (deleteExecution code).run store = (.error .storage, store) ∧
      (deletePeriodical code).run store = (.error .storage, store) := by
  constructor
  · intro tables
    refine ⟨?_, ?_, ?_⟩
    · exact ⟨_, forM_changing_sound (Tables.deletionSteps code) tables, tables.withoutRobot code⟩
    · refine ⟨_, _, deleteExecution_sound code tables, rfl, ?_, tables.withoutExecution code, ?_⟩
      · exact length_drop ExecutionRow.code tables.executions code
      · rw [deleteExecution_sound, Tables.deleteExecution_again]
    · refine ⟨_, _, deletePeriodical_sound code tables, rfl, ?_, tables.withoutPeriodical code, ?_⟩
      · exact length_drop PeriodicalRow.code tables.periodicals code
      · rw [deletePeriodical_sound, Tables.deletePeriodical_again]
  · intro store unsound
    cases store with
    | sound tables => exact absurd rfl (unsound tables)
    | «sealed» tables => exact ⟨rfl, rfl, rfl⟩
    | damaged => exact ⟨rfl, rfl, rfl⟩

end Keep

end RobotConsole.Index
