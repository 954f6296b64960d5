import RobotConsole.Proofs.Destinations
import RobotConsole.Proofs.Recording
import RobotConsole.Proofs.RowHistory

/-!
# A code keeps its address

Codes need not be unique, and a code stands for the first row that carries it.  Later rows with the
same code go behind that row, so the commands on a code go to the address that the service gave with
the first answer, until that row is taken away.  Nothing but the deletion of the code itself, or of
the robot that the row belongs to, takes it away.
-/

set_option autoImplicit false

namespace RobotConsole

open Index (Tables Keep RobotRow ExecutionRow PeriodicalRow)

/-! ## A robot that has just been created -/

namespace Index.Keep

theorem sound_of_add_ok {url code : String} {push : String → Tables → Tables} {store : Index.Store}
    (done : ((add url push).run store).1 = .ok code) : ∃ tables, store = .sound tables := by
  obtain ⟨tables, same, -⟩ := add_eq_ok (Prod.ext done rfl)
  exact ⟨tables, same⟩

end Index.Keep

namespace Run

theorem sound_of_createAndAdd_ok {base created : Kind} {resource : Resource base}
    {relative : String}
    {payload : Payload} {push : String → String → Tables → Tables} {page : String → Page}
    {shown : Page} {desk : Desk}
    (done : ((createAndAdd (resource.create created relative payload) push page).run desk).1 =
      .ok shown) :
    ∃ tables, desk.store = .sound tables := by
  simp only [createAndAdd, bind_run, talk_run, Resource.create_run] at done
  cases located : desk.exchange.created (resource.path relative) with
  | error fault =>
      rw [located] at done
      cases done
  | ok location =>
      simp only [located, Except.map, Except.mapError, keep_run, Resource.url_ofUrl] at done
      cases added : ((Keep.add (Address.stem location) (push (Address.stem location))).run
        desk.store).1 with
      | error fault =>
          rw [added] at done
          cases done
      | ok code => exact Keep.sound_of_add_ok added

theorem createRobot_ok {surroundings : Surroundings} {server file : Option String} {xml : Bool}
    {shown : Page}
    {desk : Desk} (done : ((createRobot surroundings server xml file).run desk).1 = .ok shown) :
    ∃ root text tables, server.or surroundings.defaultServer = some root ∧
      surroundings.definition? file = some text ∧
      desk.store = .sound tables := by
  simp only [createRobot_eq, bind_run, server_run, definition_run] at done
  cases rooted : server.or surroundings.defaultServer with
  | none =>
      rw [rooted] at done
      cases done
  | some root =>
      cases given : surroundings.definition? file with
      | none =>
          rw [rooted, given] at done
          cases done
      | some text =>
          rw [rooted, given] at done
          obtain ⟨tables, sound⟩ := sound_of_createAndAdd_ok done
          exact ⟨root, text, tables, rfl, rfl, sound⟩

end Run

theorem Command.run_ok_of_perform {surroundings : Surroundings} {command : Command} {desk : Desk}
    {sink : Sink} (done : (command.perform surroundings desk sink).1 = .ok ()) :
    ∃ page, ((command.run surroundings).run desk).1 = .ok page := by
  rw [perform_eq] at done
  cases ran : (command.run surroundings).run desk with
  | mk outcome left =>
      rw [ran] at done
      cases outcome with
      | error trouble => cases done
      | ok page => exact ⟨page, rfl⟩

theorem Turn.run_of_creation {turn : Turn} {tables : Tables} {server file : Option String}
    {xml : Bool} {location code : String} (asked : turn.command = .createRobot server xml file)
    (creates : turn.exchange.Creates location code)
    (done : (turn.command.perform turn.surroundings (turn.desk tables) turn.sink).1 = .ok ()) :
    ∃ created summary,
      turn.run tables = tables.pushRobot ⟨code, Address.stem location, created, summary⟩ := by
  obtain ⟨page, ok⟩ := Command.run_ok_of_perform done
  rw [asked] at ok
  obtain ⟨root, text, found, rooted, given, sound⟩ := Run.createRobot_ok ok
  obtain rfl := Access.eq_of_sound sound
  obtain ⟨reply, left, answered, made⟩ := creates.created
  obtain ⟨page, ran⟩ := run_of_due (.robot rooted given made) sound answered
  have performed : turn.finish found =
      ((turn.command.run turn.surroundings).run (turn.desk found)).2 :=
    turn.finish_of_no_deletion found (by rw [asked]; intro other same; cases same)
  refine ⟨turn.surroundings.now, Index.summarize (Text.trim text), ?_⟩
  rw [Turn.run, performed, asked, ran]
  rfl

/-! ## Rows that are spared -/

/-- If the turn is to delete the robots with a code, it does not come to take them from the
index. -/
def Turn.SparesRobots (code : String) (turn : Turn) (tables : Tables) : Prop :=
  turn.command = .deleteRobot code → ∀ row ∈ tables.robots, row.code = code →
    row ∈ (turn.run tables).robots

/-- If the turn is to delete the code of an execution or its robot, it does not come to take the row
from the index. -/
def Turn.SparesExecution (row : ExecutionRow) (turn : Turn) (tables : Tables) : Prop :=
  turn.MayRemoveExecution row → row ∈ tables.executions → row ∈ (turn.run tables).executions

def Turn.SparesPeriodical (row : PeriodicalRow) (turn : Turn) (tables : Tables) : Prop :=
  turn.MayRemovePeriodical row → row ∈ tables.periodicals → row ∈ (turn.run tables).periodicals

namespace Session

variable {turns : List Turn} {tables : Tables}

theorem first_robot_stays {row : RobotRow} {code : String}
    (first : (tables.robots.find? fun other => other.code == code) = some row)
    (spared : Throughout (Turn.SparesRobots code) turns tables) :
    ((run turns tables).robots.find? fun other => other.code == code) = some row := by
  have coded : row.code = code := by simpa using List.find?_some first
  apply find?_stays (fun turn tables => (turn.leaves tables).robots_edited) turns tables first
  apply spared.imp
  intro turn tables spares removed member
  rw [Turn.MayRemoveRobot, coded] at removed
  exact spares removed row member coded

theorem first_execution_stays {row : ExecutionRow}
    (first : (tables.executions.find? fun other => other.code == row.code) = some row)
    (spared : Throughout (Turn.SparesExecution row) turns tables) :
    ((run turns tables).executions.find? fun other => other.code == row.code) = some row :=
  find?_stays (fun turn tables => (turn.leaves tables).executions_edited) turns tables first spared

theorem first_periodical_stays {row : PeriodicalRow}
    (first : (tables.periodicals.find? fun other => other.code == row.code) = some row)
    (spared : Throughout (Turn.SparesPeriodical row) turns tables) :
    ((run turns tables).periodicals.find? fun other => other.code == row.code) = some row :=
  find?_stays (fun turn tables => (turn.leaves tables).periodicals_edited) turns tables first spared

/-- Every row of a session that starts with an empty index is the row of a resource that the service
has told of. -/
theorem rows_are_told (turns : List Turn) :
    (∀ row ∈ (run turns .empty).robots, ∃ turn ∈ turns, turn.AddsRobot row) ∧
      (∀ row ∈ (run turns .empty).executions, ∃ turn ∈ turns, turn.AddsExecution row) ∧
      ∀ row ∈ (run turns .empty).periodicals, ∃ turn ∈ turns, turn.AddsPeriodical row := by
  refine ⟨?_, ?_, ?_⟩
  · intro row member
    have cases := mem_cases (fun turn tables => (turn.leaves tables).robots_edited) turns .empty row
        member
    exact cases.resolve_left List.not_mem_nil
  · intro row member
    have cases := mem_cases (fun turn tables => (turn.leaves tables).executions_edited) turns .empty
        row member
    exact cases.resolve_left List.not_mem_nil
  · intro row member
    have cases := mem_cases (fun turn tables => (turn.leaves tables).periodicals_edited) turns
        .empty row member
    exact cases.resolve_left List.not_mem_nil

/-- A robot that was created under a new code, and the executions and periodical executions that
were first with their codes, are addressed by the location that the service gave, less the slashes
at its end, while they are spared. -/
theorem code_keeps_address (earlier later : List Turn) :
    (∀ (creation : Turn) (server file : Option String) (xml : Bool) (location code : String),
      creation.command = .createRobot server xml file → creation.exchange.Creates location code →
      (creation.command.perform creation.surroundings
        (creation.desk (run earlier .empty)) creation.sink).1 = .ok () →
      (∀ row ∈ (run earlier .empty).robots, row.code ≠ code) →
      Throughout (Turn.SparesRobots code) later (creation.run (run earlier .empty)) →
      RobotAt (run later (creation.run (run earlier .empty))) code (Address.stem location)) ∧
    (∀ row : ExecutionRow,
      ((run earlier .empty).executions.find? fun other => other.code == row.code) = some row →
      Throughout (Turn.SparesExecution row) later (run earlier .empty) →
      ∃ creation ∈ earlier, ∃ location,
        (∃ inputs, creation.command = .executeRobot row.robot inputs) ∧
        creation.exchange.Creates location row.code ∧ row.url = Address.stem location ∧
        ExecutionAt (run later (run earlier .empty)) row.code (Address.stem location)) ∧
    ∀ row : PeriodicalRow,
      ((run earlier .empty).periodicals.find? fun other => other.code == row.code) = some row →
      Throughout (Turn.SparesPeriodical row) later (run earlier .empty) →
      ∃ creation ∈ earlier, ∃ location,
        (∃ period inputs, creation.command = .scheduleRobot row.robot period inputs) ∧
        creation.exchange.Creates location row.code ∧ row.url = Address.stem location ∧
        PeriodicalAt (run later (run earlier .empty)) row.code (Address.stem location) := by
  obtain ⟨-, executionsTold, periodicalsTold⟩ := rows_are_told earlier
  refine ⟨?_, ?_, ?_⟩
  · intro creation server file xml location code asked creates done unused spared
    obtain ⟨created, summary, added⟩ := Turn.run_of_creation asked creates done
    have first : ((creation.run (run earlier .empty)).robots.find? fun other =>
        other.code == code) = some ⟨code, Address.stem location, created, summary⟩ := by
      have before : ((run earlier .empty).robots.find? fun other => other.code == code) = none := by
        simpa using unused
      rw [added, Tables.pushRobot, List.find?_append, before]
      simp
    have stays := first_robot_stays first spared
    have found : (run later (creation.run (run earlier .empty))).robotUrl? code =
        some (Address.stem location) := by
      rw [Tables.robotUrl?, stays]
      rfl
    have addressed := robotAt found
    rwa [Address.stem_stem] at addressed
  · intro row first spared
    have stays := first_execution_stays first spared
    obtain ⟨creation, among, asked, location, creates, stem⟩ :=
      executionsTold row (List.mem_of_find?_eq_some first)
    have found : (run later (run earlier .empty)).executionUrl? row.code =
        some (Address.stem location) := by
      rw [Tables.executionUrl?, stays, stem]
      rfl
    have addressed := executionAt found
    rw [Address.stem_stem] at addressed
    exact ⟨creation, among, location, asked, creates, stem.symm, addressed⟩
  · intro row first spared
    have stays := first_periodical_stays first spared
    obtain ⟨creation, among, asked, location, creates, stem⟩ :=
      periodicalsTold row (List.mem_of_find?_eq_some first)
    have found : (run later (run earlier .empty)).periodicalUrl? row.code =
        some (Address.stem location) := by
      rw [Tables.periodicalUrl?, stays, stem]
      rfl
    have addressed := periodicalAt found
    rw [Address.stem_stem] at addressed
    exact ⟨creation, among, location, asked, creates, stem.symm, addressed⟩

/-! A robot is created and used, and then two more robots are created under one code. -/

def answered (command : Command) (location : String) : Turn :=
  ⟨Command.typed "a <- 1", command, .start [.response ⟨201, some location, ""⟩] .unreachable,
    ⟨none, []⟩, .full, none⟩

def started : List Turn :=
  [answered (.createRobot none false none) "http://h/robot/11111111-1111-1111-1111-111111111111",
    answered (.executeRobot "11111111-1111-1111-1111-111111111111" ["x"])
      "http://h/execution/22222222-2222-2222-2222-222222222222/",
    answered
      (.scheduleRobot "11111111-1111-1111-1111-111111111111"
        ⟨5, .minutes, by decide, by decide⟩ [])
      "http://h/periodical/33333333-3333-3333-3333-333333333333//"]

def creation : Turn :=
  answered (.createRobot none false none) "http://h/robot/44444444-4444-4444-4444-444444444444/"

def repetition : Turn :=
  answered (.createRobot none false none) "http://other/robot/44444444-4444-4444-4444-444444444444"

theorem code_keeps_address_repeated :
    RobotAt (run [repetition] (creation.run (run started .empty)))
      "44444444-4444-4444-4444-444444444444"
      "http://h/robot/44444444-4444-4444-4444-444444444444" ∧
    (∃ turn ∈ started, ∃ location,
      (∃ inputs, turn.command = .executeRobot "11111111-1111-1111-1111-111111111111" inputs) ∧
      turn.exchange.Creates location "22222222-2222-2222-2222-222222222222" ∧
      "http://h/execution/22222222-2222-2222-2222-222222222222" = Address.stem location ∧
      ExecutionAt (run [repetition] (run started .empty)) "22222222-2222-2222-2222-222222222222"
        (Address.stem location)) ∧
    ∃ turn ∈ started, ∃ location,
      (∃ period inputs, turn.command =
        .scheduleRobot "11111111-1111-1111-1111-111111111111" period inputs) ∧
      turn.exchange.Creates location "33333333-3333-3333-3333-333333333333" ∧
      "http://h/periodical/33333333-3333-3333-3333-333333333333" = Address.stem location ∧
      PeriodicalAt (run [repetition] (run started .empty)) "33333333-3333-3333-3333-333333333333"
        (Address.stem location) := by
  have creates : creation.exchange.Creates "http://h/robot/44444444-4444-4444-4444-444444444444/"
      "44444444-4444-4444-4444-444444444444" :=
    ⟨⟨_, _, rfl, by decide, by decide, rfl⟩, by decide +kernel⟩
  have stem : Address.stem "http://h/robot/44444444-4444-4444-4444-444444444444/" =
      "http://h/robot/44444444-4444-4444-4444-444444444444" := by decide +kernel
  have found : run started .empty =
      ⟨[⟨"11111111-1111-1111-1111-111111111111",
        "http://h/robot/11111111-1111-1111-1111-111111111111", 60, "a <- 1"⟩],
        [⟨"22222222-2222-2222-2222-222222222222", "11111111-1111-1111-1111-111111111111",
          "http://h/execution/22222222-2222-2222-2222-222222222222", "[\"x\"]", 60⟩],
        [⟨"33333333-3333-3333-3333-333333333333", "11111111-1111-1111-1111-111111111111",
          "http://h/periodical/33333333-3333-3333-3333-333333333333", "5m", "[]", 60⟩]⟩ := by
    decide +kernel
  obtain ⟨robots, executions, periodicals⟩ := code_keeps_address started [repetition]
  rw [found] at robots executions periodicals ⊢
  refine ⟨?_, ?_, ?_⟩
  · rw [← stem]
    refine robots creation none none false _ _ rfl creates (by decide +kernel) (by decide +kernel)
      ⟨?_, trivial⟩
    intro deletion
    cases deletion
  · refine executions ⟨"22222222-2222-2222-2222-222222222222",
      "11111111-1111-1111-1111-111111111111",
      "http://h/execution/22222222-2222-2222-2222-222222222222", "[\"x\"]", 60⟩
      (by decide) ⟨?_, trivial⟩
    rintro (deletion | deletion) <;> cases deletion
  · refine periodicals ⟨"33333333-3333-3333-3333-333333333333",
      "11111111-1111-1111-1111-111111111111",
      "http://h/periodical/33333333-3333-3333-3333-333333333333", "5m", "[]", 60⟩
      (by decide) ⟨?_, trivial⟩
    rintro (deletion | deletion) <;> cases deletion

end Session

end RobotConsole
