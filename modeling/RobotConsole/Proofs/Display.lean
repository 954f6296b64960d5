import RobotConsole.Command.Display
import RobotConsole.Proofs.Requests

/-!
# Showing comes last

Every command shows its lines after all its work on the desk: it does what it does on the desk,
comes to a page or to a trouble, and a page is then put on the sink.  So a command on display is a
run of the command followed by `Sink.putPage`.
-/

set_option autoImplicit false

namespace RobotConsole

namespace Display

variable {Result : Type} (desk : Desk) (sink : Sink)

theorem act_run (step : Run Result) :
    (act step).run (desk, sink) = ((step.run desk).1, (step.run desk).2, sink) := rfl

/-- A display does on the desk what a run does, and then shows the page that the run comes to. -/
def ShowsLast (display : Display Unit) (run : Run Page) : Prop :=
  ∀ desk sink, display.run (desk, sink) =
    match run.run desk with
    | (.error trouble, desk) => (.error trouble, desk, sink)
    | (.ok page, desk) =>
        match sink.putPage page with
        | (result, sink) => (result, desk, sink)

namespace ShowsLast

theorem lines (page : Page) : ShowsLast (lines page) (pure page) := fun _ _ => rfl

/-- A step on the desk may come before anything that shows last. -/
theorem act (step : Run Result) {display : Result → Display Unit} {run : Result → Run Page}
    (last : ∀ result, ShowsLast (display result) (run result)) :
    ShowsLast (Display.act step >>= display) (step >>= run) := by
  intro desk sink
  rw [bind_run, bind_run, act_run]
  cases step.run desk with
  | mk outcome middle =>
      cases outcome with
      | error trouble => rfl
      | ok result => exact last result middle sink

theorem withResource {kind : Kind} (find : String → Index.Keep (Option String)) (code : String)
    {display : Resource kind → Display Unit} {run : Resource kind → Run Page}
    (last : ∀ resource, ShowsLast (display resource) (run resource)) :
    ShowsLast (Display.withResource kind find code display)
      (Run.withResource kind find code run) := by
  apply act
  intro found
  cases found with
  | none => exact lines _
  | some url => exact last (Resource.ofUrl url)

theorem withReport {kind : Kind} (surroundings : Surroundings) (resource : Resource kind)
    (fit : Report.Fit Result) (code : String) (page : Result → Page) :
    ShowsLast (Display.withReport surroundings resource fit code page)
      (Run.withReport surroundings resource fit code page) := by
  apply act
  intro found
  cases found with
  | none => exact lines _
  | some value => exact act _ fun report => lines (page report)

/-! ## The commands -/

theorem listRobots (json : Bool) : ShowsLast (Display.listRobots json) (Run.listRobots json) := by
  apply act
  intro records
  cases json with
  | true =>
      rw [if_pos rfl, if_pos rfl]
      exact lines _
  | false =>
      rw [if_neg Bool.false_ne_true, if_neg Bool.false_ne_true]
      exact lines _

theorem createRobot (surroundings : Surroundings) (server : Option String) (xml : Bool)
    (file : Option String) :
    ShowsLast (Display.createRobot surroundings server xml file)
      (Run.createRobot surroundings server xml file) := by
  apply act
  intro root
  apply act
  intro text
  apply act
  intro robot
  apply act
  intro code
  exact lines _

theorem deleteRobot (code : String) : ShowsLast (Display.deleteRobot code) (Run.deleteRobot code) :=
  withResource _ code fun _ => act _ fun _ => act _ fun _ => lines _

theorem executeRobot (surroundings : Surroundings) (code : String) (inputs : List String) :
    ShowsLast (Display.executeRobot surroundings code inputs)
      (Run.executeRobot surroundings code inputs) :=
  withResource _ code fun _ => act _ fun _ => act _ fun _ => lines _

theorem scheduleRobot (surroundings : Surroundings) (code : String) (period : Period)
    (inputs : List String) :
    ShowsLast (Display.scheduleRobot surroundings code period inputs)
      (Run.scheduleRobot surroundings code period inputs) :=
  withResource _ code fun _ => act _ fun _ => act _ fun _ => lines _

theorem deleteExecution (code : String) :
    ShowsLast (Display.deleteExecution code) (Run.deleteExecution code) :=
  withResource _ code fun _ => act _ fun _ => act _ fun _ => lines _

theorem deletePeriodical (code : String) :
    ShowsLast (Display.deletePeriodical code) (Run.deletePeriodical code) :=
  withResource _ code fun _ => act _ fun _ => act _ fun _ => lines _

theorem executeOnce (surroundings : Surroundings) (server file : Option String)
    (inputs : List String) :
    ShowsLast (Display.executeOnce surroundings server file inputs)
      (Run.executeOnce surroundings server file inputs) := by
  apply act
  intro root
  apply act
  intro text
  apply act
  intro execution
  apply act
  intro code
  exact withReport surroundings execution _ code _

theorem command (surroundings : Surroundings) (command : Command) :
    ShowsLast (command.display surroundings) (command.run surroundings) := by
  cases command with
  | listRobots json => exact listRobots json
  | createRobot server xml file => exact createRobot surroundings server xml file
  | showRobot code facet =>
      exact withResource _ code fun robot => withReport surroundings robot _ code _
  | deleteRobot code => exact deleteRobot code
  | executeRobot code inputs => exact executeRobot surroundings code inputs
  | scheduleRobot code period inputs => exact scheduleRobot surroundings code period inputs
  | showExecution code =>
      exact withResource _ code fun execution => withReport surroundings execution _ code _
  | deleteExecution code => exact deleteExecution code
  | showPeriodical code =>
      exact withResource _ code fun periodical => withReport surroundings periodical _ code _
  | deletePeriodical code => exact deletePeriodical code
  | executeOnce server file inputs => exact executeOnce surroundings server file inputs

end ShowsLast

end Display

/-- A command works on the desk as its run does, and shows its page after that. -/
theorem Command.perform_eq (surroundings : Surroundings) (command : Command) (desk : Desk)
    (sink : Sink) :
    command.perform surroundings desk sink =
      match (command.run surroundings).run desk with
      | (.error trouble, desk) => (.error trouble, desk, sink)
      | (.ok page, desk) =>
          match sink.putPage page with
          | (result, sink) => (result, desk, sink) :=
  Display.ShowsLast.command surroundings command desk sink

end RobotConsole
