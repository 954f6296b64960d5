import RobotConsole.Command.Page
import RobotConsole.Files.Tree
import RobotConsole.Service

/-!
# Running a command

A command asks the service first, and touches the index only after the service has done its part.
It works on a desk, which holds the store of the index and the exchange with the service, and comes
to a page or to a trouble.  Where in the course of the command the lines of the page are shown is
left open here.
-/

set_option autoImplicit false

namespace RobotConsole

inductive Trouble where
  | fault (cause : Fault)
  | noServer
  | unreadableFile (path : String)
  | unreadableInput
  | outputClosed
  deriving DecidableEq, Repr

def Trouble.message : Trouble → String
  | .fault cause => cause.message
  | .noServer => "No server given: use --server or set DARE_SERVER"
  | .unreadableFile path => "Failed to read robot from " ++ path
  | .unreadableInput => "Failed to read robot from stdin"
  | .outputClosed => "output closed"

/-- What a command may read but not change. -/
structure Surroundings where
  now : Int
  defaultServer : Option String
  patience : Talk.Patience
  files : Files.Tree
  input : ByteArray

structure Desk where
  store : Index.Store
  exchange : Exchange

abbrev Run := ExceptT Trouble (StateM Desk)

namespace Run

def talk {α : Type} (step : Talk α) : Run α := fun desk =>
  match step.run desk.exchange with
  | (.ok result, exchange) => (.ok result, { desk with exchange })
  | (.error fault, exchange) => (.error (.fault fault), { desk with exchange })

def keep {α : Type} (step : Index.Keep α) : Run α := fun desk =>
  match step.run desk.store with
  | (.ok result, store) => (.ok result, { desk with store })
  | (.error fault, store) => (.error (.fault fault), { desk with store })

def server (surroundings : Surroundings) (explicit : Option String) : Run String :=
  match explicit.or surroundings.defaultServer with
  | some server => return server
  | none => throw .noServer

/-- The definition in a file, or in the input if no file is given, without the blanks around it. -/
def definition (surroundings : Surroundings) (file : Option String) : Run String :=
  match file with
  | some path =>
      match surroundings.files.text? path with
      | some text => return Text.trim text
      | none => throw (.unreadableFile path)
  | none =>
      match String.fromUTF8? surroundings.input with
      | some text => return Text.trim text
      | none => throw .unreadableInput

def report {α : Type} (fit : Report.Fit α) (value : Json) : Run α :=
  match fit value with
  | .ok report => return report
  | .error misfit => throw (.fault (.badReport misfit))

def codeOf (url : String) : Run String :=
  match Index.codeOf url with
  | .ok code => return code
  | .error fault => throw (.fault fault)

/-- Goes on with a resource of the index, or says that there is none. -/
def withResource (kind : Kind) (find : String → Index.Keep (Option String)) (code : String)
    (next : Resource kind → Run Page) : Run Page := do
  match ← keep (find code) with
  | none => return Page.notFound kind code
  | some url => next (Resource.ofUrl url)

def withReport {α : Type} {kind : Kind} (surroundings : Surroundings) (resource : Resource kind)
    (fit : Report.Fit α) (code : String) (page : α → Page) : Run Page := do
  match ← talk (resource.fetch surroundings.patience) with
  | none => return Page.notFound kind code
  | some value => return page (← report fit value)

def listRobots (json : Bool) : Run Page := do
  let records ← keep Index.Keep.listing
  return if json then Page.listingJson records else Page.listing records

def createRobot (surroundings : Surroundings) (server : Option String) (xml : Bool)
    (file : Option String) :
    Run Page := do
  let server ← Run.server surroundings server
  let text ← definition surroundings file
  let robot ← talk (Service.createRobot (Resource.ofUrl server)
      (if xml then .xml text else .minilanguage text))
  let code ← keep (Index.Keep.addRobot surroundings.now robot.url text)
  return Page.robotCreated code

def showRobot (surroundings : Surroundings) (code : String) (facet : Facet) : Run Page :=
  withResource .robot Index.Keep.robotUrl? code fun robot =>
    withReport surroundings robot Report.Robot.ofJson code (Page.robot facet)

def deleteRobot (code : String) : Run Page :=
  withResource .robot Index.Keep.robotUrl? code fun robot => do
    talk robot.delete
    keep (Index.Keep.deleteRobot code)
    return Page.robotDeleted code

def executeRobot (surroundings : Surroundings) (code : String) (inputs : List String) : Run Page :=
  withResource .robot Index.Keep.robotUrl? code fun robot => do
    let execution ← talk (Service.execute robot inputs)
    let created ← keep (Index.Keep.addExecution surroundings.now code execution.url inputs)
    return Page.executionCreated created

def scheduleRobot (surroundings : Surroundings) (code : String) (period : Period)
    (inputs : List String) :
    Run Page :=
  withResource .robot Index.Keep.robotUrl? code fun robot => do
    let periodical ← talk (Service.schedule robot period inputs)
    let created ← keep (Index.Keep.addPeriodical surroundings.now code periodical.url period.wire
        inputs)
    return Page.periodicalCreated created

def showExecution (surroundings : Surroundings) (code : String) : Run Page :=
  withResource .execution Index.Keep.executionUrl? code fun execution =>
    withReport surroundings execution Report.Execution.ofJson code (Page.execution code)

def deleteExecution (code : String) : Run Page :=
  withResource .execution Index.Keep.executionUrl? code fun execution => do
    talk execution.delete
    let _ ← keep (Index.Keep.deleteExecution code)
    return Page.executionDeleted code

def showPeriodical (surroundings : Surroundings) (code : String) : Run Page :=
  withResource .periodical Index.Keep.periodicalUrl? code fun periodical =>
    withReport surroundings periodical Report.Periodical.ofJson code (Page.periodical code)

def deletePeriodical (code : String) : Run Page :=
  withResource .periodical Index.Keep.periodicalUrl? code fun periodical => do
    talk periodical.delete
    let _ ← keep (Index.Keep.deletePeriodical code)
    return Page.periodicalDeleted code

def executeOnce (surroundings : Surroundings) (server : Option String) (file : Option String)
    (inputs : List String) :
    Run Page := do
  let server ← Run.server surroundings server
  let text ← definition surroundings file
  let execution ← talk (Service.executeOnce (Resource.ofUrl server) text inputs)
  let code ← codeOf execution.url
  withReport surroundings execution Report.Execution.ofJson code (Page.execution code)

end Run

namespace Command

/-- The page that a command comes to, and what the command leaves on the desk. -/
def run (surroundings : Surroundings) : Command → Run Page
  | .listRobots json => Run.listRobots json
  | .createRobot server xml file => Run.createRobot surroundings server xml file
  | .showRobot code facet => Run.showRobot surroundings code facet
  | .deleteRobot code => Run.deleteRobot code
  | .executeRobot code inputs => Run.executeRobot surroundings code inputs
  | .scheduleRobot code period inputs => Run.scheduleRobot surroundings code period inputs
  | .showExecution code => Run.showExecution surroundings code
  | .deleteExecution code => Run.deleteExecution code
  | .showPeriodical code => Run.showPeriodical surroundings code
  | .deletePeriodical code => Run.deletePeriodical code
  | .executeOnce server file inputs => Run.executeOnce surroundings server file inputs

end Command

end RobotConsole
