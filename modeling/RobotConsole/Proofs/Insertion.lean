import RobotConsole.Proofs.Ledger

/-!
# The listing when rows are added

A robot that is added comes into the listing in front of the first robot that is not newer, and an
execution or a periodical execution comes to the same kind of place in the records of its robot;
nothing else in the listing changes.  In front of what is of the same time means behind what was
added later: the listing has the order of a database that sorts by time and number, whatever has
been added and deleted before.
-/

set_option autoImplicit false

namespace RobotConsole.Index

/-! ## One row more -/

namespace Tables

variable (tables : Tables)

theorem listing_pushRobot (row : RobotRow) :
    (tables.pushRobot row).listing = splice (fun record => record.row.created)
      (tables.recordOf row) tables.listing := by
  have pushed : newestFirst RobotRow.created (tables.pushRobot row).robots =
      splice RobotRow.created row (newestFirst RobotRow.created tables.robots) :=
        newestFirst_push tables.robots row
  rw [listing, pushed]
  exact map_splice (fun record : RobotRecord => record.row.created) tables.recordOf row _

theorem executionsOf_pushExecution (row : ExecutionRow) (robot : String) :
    (tables.pushExecution row).executionsOf robot =
      if robot = row.robot then splice ExecutionRow.created row (tables.executionsOf robot)
      else tables.executionsOf robot :=
  newestFirst_filter_push ExecutionRow.robot tables.executions row robot

theorem periodicalsOf_pushPeriodical (row : PeriodicalRow) (robot : String) :
    (tables.pushPeriodical row).periodicalsOf robot =
      if robot = row.robot then splice PeriodicalRow.created row (tables.periodicalsOf robot)
      else tables.periodicalsOf robot :=
  newestFirst_filter_push PeriodicalRow.robot tables.periodicals row robot

theorem listing_pushExecution (row : ExecutionRow) :
    (tables.pushExecution row).listing = tables.listing.map fun record =>
      if record.row.code = row.robot then
        { record with executions := splice ExecutionRow.created row record.executions }
      else record := by
  apply listing_eq_map tables (tables.pushExecution row) _ rfl
  intro robot
  by_cases own : robot.code = row.robot
  · rw [recordOf, executionsOf_pushExecution, if_pos own]
    exact (if_pos own).symm
  · rw [recordOf, executionsOf_pushExecution, if_neg own]
    exact (if_neg own).symm

theorem listing_pushPeriodical (row : PeriodicalRow) :
    (tables.pushPeriodical row).listing = tables.listing.map fun record =>
      if record.row.code = row.robot then
        { record with periodicals := splice PeriodicalRow.created row record.periodicals }
      else record := by
  apply listing_eq_map tables (tables.pushPeriodical row) _ rfl
  intro robot
  by_cases own : robot.code = row.robot
  · rw [recordOf, periodicalsOf_pushPeriodical, if_pos own]
    exact (if_pos own).symm
  · rw [recordOf, periodicalsOf_pushPeriodical, if_neg own]
    exact (if_neg own).symm

end Tables

/-! ## The order of the listing -/

/-- The listing of a ledger shows its robots, and in every record the history of its robot, each row
once and in the order by time and number. -/
structure Ledger.Listed (ledger : Ledger) : Prop where
  robots : Lists RobotRow.created ledger.robots (ledger.tables.listing.map RobotRecord.row)
  executions : ∀ record ∈ ledger.tables.listing,
    Lists ExecutionRow.created (ledger.executions.filter fun entry =>
    entry.row.robot == record.row.code) record.executions
  periodicals : ∀ record ∈ ledger.tables.listing,
    Lists PeriodicalRow.created
    (ledger.periodicals.filter fun entry => entry.row.robot == record.row.code) record.periodicals

/-- The history of one owner is listed as a table of its own would be. -/
theorem Rising.lists_history {Row : Type} {moment : Nat} {entries : List (Entry Row)}
    (rising : Rising moment entries) (created : Row → Int) (owner : Row → String) (name : String) :
    Lists created (entries.filter fun entry => owner entry.row == name)
      (newestFirst created ((entries.map Entry.row).filter fun row => owner row == name)) := by
  have rows : (entries.map Entry.row).filter (fun row => owner row == name) =
      (entries.filter fun entry => owner entry.row == name).map Entry.row := by
    rw [List.filter_map]
    rfl
  rw [rows]
  exact (rising.thinned _).lists created

theorem Ledger.InOrder.listed {ledger : Ledger} (ordered : ledger.InOrder) : ledger.Listed where
  robots := by
    have rows : ledger.tables.listing.map RobotRecord.row =
        newestFirst RobotRow.created (ledger.robots.map Entry.row) := by
      rw [Tables.listing, List.map_map]
      exact List.map_id _
    rw [rows]
    exact ordered.robots.lists RobotRow.created
  executions record listed := by
    obtain ⟨robot, -, rfl⟩ := (Tables.mem_listing _ record).mp listed
    exact ordered.executions.lists_history ExecutionRow.created ExecutionRow.robot robot.code
  periodicals record listed := by
    obtain ⟨robot, -, rfl⟩ := (Tables.mem_listing _ record).mp listed
    exact ordered.periodicals.lists_history PeriodicalRow.created PeriodicalRow.robot robot.code

/-! ## The listing after any history -/

/-- Whatever has been added and deleted, in whatever order of times: the listing has the newest
robots first, each with the newest of its history first, and what was added last first among what is
of the same time.  A new robot comes between the newer ones and the others, with the history that
its code has already; a new execution or periodical execution comes to such a place in the records
of its robot and changes nothing else. -/
theorem Ledger.listing_under_insertion (numbering : Numbering) (history : List Operation) :
    let ledger := Ledger.after numbering history
    let tables := ledger.tables
    Operation.runAll history (.sound .empty) = .sound tables ∧
      ledger.Listed ∧
      (∀ now url definition code, Code.find? url = some code →
        ∃ left, (Keep.addRobot now url definition).run (.sound tables) = (.ok code, .sound left) ∧
          left.listing =
            splice (fun record => record.row.created)
              ⟨⟨code, url, now, String.ofList (definition.toList.take 100)⟩,
                tables.executionsOf code, tables.periodicalsOf code⟩
              tables.listing) ∧
      (∀ now robot url inputs code, Code.find? url = some code →
        let insert := splice ExecutionRow.created ⟨code, robot, url, Text.quoteList inputs, now⟩
        ∃ left, (Keep.addExecution now robot url inputs).run (.sound tables) =
          (.ok code, .sound left) ∧
          (left.listing = tables.listing.map fun record =>
            if record.row.code = robot then { record with executions := insert record.executions }
              else record) ∧
          (∀ other, left.executionsOf other =
            if other = robot then insert (tables.executionsOf other)
              else tables.executionsOf other) ∧
          left.robots = tables.robots ∧ left.periodicals = tables.periodicals) ∧
      ∀ now robot url period inputs code, Code.find? url = some code →
        let insert := splice PeriodicalRow.created
            ⟨code, robot, url, period, Text.quoteList inputs, now⟩
        ∃ left, (Keep.addPeriodical now robot url period inputs).run (.sound tables) =
          (.ok code, .sound left) ∧
          (left.listing = tables.listing.map fun record =>
            if record.row.code = robot then { record with periodicals := insert record.periodicals }
              else record) ∧
          (∀ other, left.periodicalsOf other =
            if other = robot then insert (tables.periodicalsOf other)
              else tables.periodicalsOf other) ∧
          left.robots = tables.robots ∧ left.executions = tables.executions := by
  obtain ⟨kept, ordered⟩ := Ledger.after_history numbering history
  intro ledger tables
  refine ⟨kept, ordered.listed, ?_, ?_, ?_⟩
  · intro now url definition code coded
    exact ⟨_, Keep.add_sound url code _ tables coded, tables.listing_pushRobot _⟩
  · intro now robot url inputs code coded insert
    exact ⟨_, Keep.add_sound url code _ tables coded, tables.listing_pushExecution _,
      tables.executionsOf_pushExecution _, rfl, rfl⟩
  · intro now robot url period inputs code coded insert
    exact ⟨_, Keep.add_sound url code _ tables coded, tables.listing_pushPeriodical _,
      tables.periodicalsOf_pushPeriodical _, rfl, rfl⟩

/-! Two robots of one second, and between them a third that is deleted, so that its number comes
again. -/

def reused : List Operation :=
  [.addRobot 5 "http://h/robot/11111111-1111-1111-1111-111111111111" "a <- 1",
    .addRobot 7 "http://h/robot/22222222-2222-2222-2222-222222222222" "b <- 2",
    .deleteRobot "22222222-2222-2222-2222-222222222222",
    .addRobot 5 "http://h/robot/33333333-3333-3333-3333-333333333333" "c <- 3"]

example : (Ledger.after .greatest reused).robots.map Entry.number = [1, 2] := by decide +kernel

theorem Ledger.listing_under_insertion_same_time :
    (∃ left,
      (Keep.addRobot 5 "http://h/robot/44444444-4444-4444-4444-444444444444" "d <- 4").run
          (.sound (Ledger.after .greatest reused).tables) =
        (.ok "44444444-4444-4444-4444-444444444444", .sound left) ∧
      left.listing.map (fun record => record.row.summary) = ["d <- 4", "c <- 3", "a <- 1"]) ∧
    ∃ left,
      (Keep.addExecution 4 "11111111-1111-1111-1111-111111111111"
          "http://h/execution/55555555-5555-5555-5555-555555555555" ["x"]).run
          (.sound (Ledger.after .greatest reused).tables) =
        (.ok "55555555-5555-5555-5555-555555555555", .sound left) ∧
      left.listing.map (fun record => record.executions.map ExecutionRow.inputs) =
        [[], ["[\"x\"]"]] := by
  obtain ⟨-, -, robots, executions, -⟩ := Ledger.listing_under_insertion .greatest reused
  constructor
  · obtain ⟨left, added, listed⟩ :=
      robots 5 "http://h/robot/44444444-4444-4444-4444-444444444444" "d <- 4"
      "44444444-4444-4444-4444-444444444444" (by decide +kernel)
    refine ⟨left, added, ?_⟩
    rw [listed]
    decide +kernel
  · obtain ⟨left, added, listed, -⟩ := executions 4 "11111111-1111-1111-1111-111111111111"
      "http://h/execution/55555555-5555-5555-5555-555555555555"
        ["x"] "55555555-5555-5555-5555-555555555555"
      (by decide +kernel)
    refine ⟨left, added, ?_⟩
    rw [listed]
    decide +kernel

end RobotConsole.Index
