import RobotConsole.Proofs.Deletion
import RobotConsole.Proofs.Destinations
import RobotConsole.Proofs.Recording

/-!
# Deletions that are interrupted

The deletion of a robot takes three steps, and the robot itself goes with the last.  So after any
interruption the robot is still there to be deleted again, by a request to the address that it has
had.  Steps that have been taken already change nothing when they are taken again, hence the second
deletion ends where the first one would have ended.
-/

set_option autoImplicit false

namespace RobotConsole

open Index (Tables Keep)

/-! ## Steps that are taken again -/

namespace Index.Tables

variable {code : String} (tables : Tables)

theorem robotUrl?_of_knows (known : tables.Knows code) :
    ∃ url, tables.robotUrl? code = some url := by
  obtain ⟨row, member, coded⟩ := known
  cases found : tables.robots.find? fun row => row.code == code with
  | none =>
      have other := List.find?_eq_none.mp found row member
      exact absurd (beq_iff_eq.mpr coded) other
  | some first => exact ⟨first.url, by rw [robotUrl?, found, Option.map_some]⟩

/-- The robots go with the last step. -/
theorem robots_brokenOff {steps : Nat} (strict : steps < (deletionSteps code).length) :
    (applySteps ((deletionSteps code).take steps) tables).robots = tables.robots := by
  rcases steps with _ | _ | _ | steps
  · rfl
  · rfl
  · rfl
  · have few : steps + 3 < 3 := strict
    omega

theorem deleteRobot_eq_dropRobot : tables.deleteRobot code = (Change.dropRobot code).apply tables :=
  rfl

/-- A deletion that begins again ends where the first one would have ended. -/
theorem deleteRobot_brokenOff (steps : Nat) :
    (applySteps ((deletionSteps code).take steps) tables).deleteRobot code =
      tables.deleteRobot code := by
  simp only [deleteRobot_eq_dropRobot]
  rcases deletion_cases code steps tables with same | same | same | same <;> rw [same] <;>
    simp only [Change.apply, dropExecutionsOf, dropPeriodicalsOf, List.filter_filter, Bool.and_self]

end Index.Tables

/-! ## The command that is given again -/

namespace Command

variable (surroundings : Surroundings) {tables : Tables} {code : String}

section Known

variable {url : String} (found : tables.robotUrl? code = some url) (exchange : Exchange)
    (sink : Sink)
include found

theorem run_deleteRobot :
    ((Command.deleteRobot code).run surroundings).run ⟨.sound tables, exchange⟩ =
      (Run.removeAndDrop (Talk.delete (Address.stem url)) (Keep.deleteRobot code)
        (Page.robotDeleted code)).run
        ⟨.sound tables, exchange⟩ := by
  rw [Command.run, Run.deleteRobot_eq, Run.withResource_found rfl rfl found]
  rfl

theorem sent_deleteRobot :
    ((Command.deleteRobot code).perform surroundings
      ⟨.sound tables, exchange⟩ sink).2.1.exchange.sent =
      exchange.sent ++ [Talk.deleteRequest (Address.stem url)] := by
  rw [desk_perform, run_deleteRobot surroundings found, Run.exchange_removeAndDrop,
    Exchange.sent_after]

theorem run_deleteRobot_answered {reply : Response} {left : List Answer}
    (answered : exchange.answers = .response reply :: left) :
    ((Command.deleteRobot code).run surroundings).run ⟨.sound tables, exchange⟩ =
      (.ok (Page.robotDeleted code),
        ⟨.sound (tables.deleteRobot code),
          exchange.record (Talk.deleteRequest (Address.stem url)) left⟩) := by
  rw [run_deleteRobot surroundings found]
  exact Run.removeAndDrop_answered (deleteRobot_changes code) _ _ _ tables reply left rfl answered

end Known

theorem perform_deleteRobot_unknown (unknown : tables.robotUrl? code = none) (exchange : Exchange)
    (sink : Sink) :
    (Command.deleteRobot code).perform surroundings ⟨.sound tables, exchange⟩ sink =
      ((sink.putPage (Page.notFound .robot code)).1, ⟨.sound tables, exchange⟩,
        (sink.putPage (Page.notFound .robot code)).2) := by
  have looks : Keep.robotUrl? code = Keep.reading fun tables => tables.robotUrl? code := rfl
  rw [perform_eq, Command.run, Run.deleteRobot_eq, Run.withResource_run looks]
  simp only [Index.Store.tables?, unknown]

/-- Whatever steps of its deletion have been taken short of the last, a robot is found under its
address.  The command that deletes it asks the service to remove the same address as before, and
whatever the service answers, it does all that it would have done without the interruption.  When
the deletion is complete, the command finds no robot and does nothing. -/
theorem interrupted_deletion_can_be_finished (known : tables.Knows code) :
    ∃ url, tables.robotUrl? code = some url ∧
      (Keep.deleteRobot code).run (.sound tables) = (.ok (), .sound (tables.deleteRobot code)) ∧
      (∀ steps < (Tables.deletionSteps code).length,
        let broken := Tables.applySteps ((Tables.deletionSteps code).take steps) tables
        (Keep.breakOff steps code).run (.sound tables) = (.error .storage, .sound broken) ∧
          broken.robots = tables.robots ∧ broken.robotUrl? code = some url ∧
          ∀ exchange sink,
            let again :=
              (Command.deleteRobot code).perform surroundings ⟨.sound broken, exchange⟩ sink
            again.2.1.exchange.sent = exchange.sent ++ [Talk.deleteRequest (Address.stem url)] ∧
              ∀ reply left, exchange.answers = .response reply :: left →
                again.2.1.store = .sound (tables.deleteRobot code) ∧
                  again = (Command.deleteRobot code).perform surroundings
                    ⟨.sound tables, exchange⟩ sink) ∧
      ∀ exchange sink,
        (Command.deleteRobot code).perform surroundings
            ⟨.sound (tables.deleteRobot code), exchange⟩ sink =
          ((sink.putPage (Page.notFound .robot code)).1,
            ⟨.sound (tables.deleteRobot code), exchange⟩,
            (sink.putPage (Page.notFound .robot code)).2) := by
  obtain ⟨url, found⟩ := tables.robotUrl?_of_knows known
  refine ⟨url, found, Keep.forM_changing_sound (Tables.deletionSteps code) tables, ?_, ?_⟩
  · intro steps strict broken
    have robots : broken.robots = tables.robots := tables.robots_brokenOff strict
    have same : broken.robotUrl? code = some url := by
      rw [Tables.robotUrl?, robots]
      exact found
    refine ⟨Keep.breakOff_sound steps code tables, robots, same, ?_⟩
    intro exchange sink again
    refine ⟨sent_deleteRobot surroundings same exchange sink, ?_⟩
    intro reply left answered
    have whole : broken.deleteRobot code = tables.deleteRobot code :=
      tables.deleteRobot_brokenOff steps
    have first := run_deleteRobot_answered surroundings found exchange answered
    have second := run_deleteRobot_answered surroundings same exchange answered
    rw [whole] at second
    constructor
    · rw [desk_perform, second]
    · simp only [again, perform_eq, second, first]
  · have gone : (tables.deleteRobot code).robotUrl? code = none :=
      ((tables.withoutRobot code).robotUrl? code).trans (if_pos rfl)
    exact perform_deleteRobot_unknown surroundings gone

/-! A deletion that breaks off after its first step, and a service that does not know the robot any
more when it is asked again. -/

def withHistory : Tables :=
  ⟨[⟨"11111111-1111-1111-1111-111111111111", "http://h/robot/11111111-1111-1111-1111-111111111111",
    5, "a <- b"⟩], [⟨"22222222-2222-2222-2222-222222222222", "11111111-1111-1111-1111-111111111111",
      "http://h/execution/22222222-2222-2222-2222-222222222222", "[]", 6⟩],
    [⟨"33333333-3333-3333-3333-333333333333", "11111111-1111-1111-1111-111111111111",
      "http://h/periodical/33333333-3333-3333-3333-333333333333", "5m", "[]", 7⟩]⟩

def forgetful : Exchange :=
  .start [.response ⟨404, none, "no such robot"⟩] .unreachable

theorem interrupted_deletion_can_be_finished_unknown :
    withHistory.Knows "11111111-1111-1111-1111-111111111111" ∧
      ∃ broken : Tables,
        (Keep.breakOff 1 "11111111-1111-1111-1111-111111111111").run (.sound withHistory) =
          (.error .storage, .sound broken) ∧
        broken.robots = withHistory.robots ∧
        ((Command.deleteRobot "11111111-1111-1111-1111-111111111111").perform (typed "")
          ⟨.sound broken, forgetful⟩
            ⟨none, []⟩).2.1.exchange.sent =
          [Talk.deleteRequest "http://h/robot/11111111-1111-1111-1111-111111111111"] ∧
        ((Command.deleteRobot "11111111-1111-1111-1111-111111111111").perform (typed "")
          ⟨.sound broken, forgetful⟩
            ⟨none, []⟩).2.1.store = .sound .empty := by
  have known : withHistory.Knows "11111111-1111-1111-1111-111111111111" :=
    ⟨_, List.mem_singleton_self _, rfl⟩
  obtain ⟨url, found, -, interrupted, -⟩ := interrupted_deletion_can_be_finished (typed "") known
  have address : "http://h/robot/11111111-1111-1111-1111-111111111111" = url :=
    Option.some.inj found
  have stem : Address.stem "http://h/robot/11111111-1111-1111-1111-111111111111" =
      "http://h/robot/11111111-1111-1111-1111-111111111111" := by decide +kernel
  obtain ⟨brokenOff, robots, -, again⟩ := interrupted 1 (by decide)
  obtain ⟨sent, finished⟩ := again forgetful ⟨none, []⟩
  obtain ⟨store, -⟩ := finished _ _ rfl
  refine ⟨known, _, brokenOff, robots, ?_, ?_⟩
  · rw [sent, ← address, stem]
    rfl
  · rw [store]
    decide +kernel

end Command

end RobotConsole
