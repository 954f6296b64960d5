import RobotConsole.Sink

/-!
# Commands on display

A command works on its desk and shows lines on a sink, each step where the command has it.  A step
on the desk shows nothing.  Lines that find no room end the command where it is, and what has been
done on the desk by then stays done.
-/

set_option autoImplicit false

namespace RobotConsole

/-- A part of a command that works on a desk and shows lines on a sink. -/
abbrev Display := ExceptT Trouble (StateM (Desk × Sink))

namespace Display

def act {α : Type} (step : Run α) : Display α := fun (desk, sink) =>
  match step.run desk with
  | (result, desk) => (result, desk, sink)

/-- Shows lines, until one does not fit. -/
def lines (page : Page) : Display Unit := fun (desk, sink) =>
  match sink.putPage page with
  | (result, sink) => (result, desk, sink)

def withResource (kind : Kind) (find : String → Index.Keep (Option String)) (code : String)
    (next : Resource kind → Display Unit) : Display Unit := do
  match ← act (Run.keep (find code)) with
  | none => lines (Page.notFound kind code)
  | some url => next (Resource.ofUrl url)

def withReport {α : Type} {kind : Kind} (surroundings : Surroundings) (resource : Resource kind)
    (fit : Report.Fit α) (code : String) (page : α → Page) : Display Unit := do
  match ← act (Run.talk (resource.fetch surroundings.patience)) with
  | none => lines (Page.notFound kind code)
  | some value =>
      let report ← act (Run.report fit value)
      lines (page report)

def listRobots (json : Bool) : Display Unit := do
  let records ← act (Run.keep Index.Keep.listing)
  if json then lines (Page.listingJson records) else lines (Page.listing records)

def createRobot (surroundings : Surroundings) (server : Option String) (xml : Bool)
    (file : Option String) :
    Display Unit := do
  let server ← act (Run.server surroundings server)
  let text ← act (Run.definition surroundings file)
  let robot ← act (Run.talk
    (Service.createRobot (Resource.ofUrl server) (if xml then .xml text else .minilanguage text)))
  let code ← act (Run.keep (Index.Keep.addRobot surroundings.now robot.url text))
  lines (Page.robotCreated code)

def showRobot (surroundings : Surroundings) (code : String) (facet : Facet) : Display Unit :=
  withResource .robot Index.Keep.robotUrl? code fun robot =>
    withReport surroundings robot Report.Robot.ofJson code (Page.robot facet)

def deleteRobot (code : String) : Display Unit :=
  withResource .robot Index.Keep.robotUrl? code fun robot => do
    act (Run.talk robot.delete)
    act (Run.keep (Index.Keep.deleteRobot code))
    lines (Page.robotDeleted code)

def executeRobot (surroundings : Surroundings) (code : String) (inputs : List String) :
    Display Unit :=
  withResource .robot Index.Keep.robotUrl? code fun robot => do
    let execution ← act (Run.talk (Service.execute robot inputs))
    let created ← act (Run.keep
        (Index.Keep.addExecution surroundings.now code execution.url inputs))
    lines (Page.executionCreated created)

def scheduleRobot (surroundings : Surroundings) (code : String) (period : Period)
    (inputs : List String) :
    Display Unit :=
  withResource .robot Index.Keep.robotUrl? code fun robot => do
    let periodical ← act (Run.talk (Service.schedule robot period inputs))
    let created ← act (Run.keep
        (Index.Keep.addPeriodical surroundings.now code periodical.url period.wire inputs))
    lines (Page.periodicalCreated created)

def showExecution (surroundings : Surroundings) (code : String) : Display Unit :=
  withResource .execution Index.Keep.executionUrl? code fun execution =>
    withReport surroundings execution Report.Execution.ofJson code (Page.execution code)

def deleteExecution (code : String) : Display Unit :=
  withResource .execution Index.Keep.executionUrl? code fun execution => do
    act (Run.talk execution.delete)
    let _ ← act (Run.keep (Index.Keep.deleteExecution code))
    lines (Page.executionDeleted code)

def showPeriodical (surroundings : Surroundings) (code : String) : Display Unit :=
  withResource .periodical Index.Keep.periodicalUrl? code fun periodical =>
    withReport surroundings periodical Report.Periodical.ofJson code (Page.periodical code)

def deletePeriodical (code : String) : Display Unit :=
  withResource .periodical Index.Keep.periodicalUrl? code fun periodical => do
    act (Run.talk periodical.delete)
    let _ ← act (Run.keep (Index.Keep.deletePeriodical code))
    lines (Page.periodicalDeleted code)

def executeOnce (surroundings : Surroundings) (server : Option String) (file : Option String)
    (inputs : List String) : Display Unit := do
  let server ← act (Run.server surroundings server)
  let text ← act (Run.definition surroundings file)
  let execution ← act (Run.talk (Service.executeOnce (Resource.ofUrl server) text inputs))
  let code ← act (Run.codeOf execution.url)
  withReport surroundings execution Report.Execution.ofJson code (Page.execution code)

end Display

namespace Command

/-- A command as it goes on: its work on the desk, and its lines in between. -/
def display (surroundings : Surroundings) : Command → Display Unit
  | .listRobots json => Display.listRobots json
  | .createRobot server xml file => Display.createRobot surroundings server xml file
  | .showRobot code facet => Display.showRobot surroundings code facet
  | .deleteRobot code => Display.deleteRobot code
  | .executeRobot code inputs => Display.executeRobot surroundings code inputs
  | .scheduleRobot code period inputs => Display.scheduleRobot surroundings code period inputs
  | .showExecution code => Display.showExecution surroundings code
  | .deleteExecution code => Display.deleteExecution code
  | .showPeriodical code => Display.showPeriodical surroundings code
  | .deletePeriodical code => Display.deletePeriodical code
  | .executeOnce server file inputs => Display.executeOnce surroundings server file inputs

def perform (surroundings : Surroundings) (command : Command) (desk : Desk) (sink : Sink) :
    Except Trouble Unit × Desk × Sink :=
  (command.display surroundings).run (desk, sink)

end Command

end RobotConsole
