import RobotConsole.Code
import RobotConsole.Fault
import RobotConsole.Text.Quoted

/-!
# The index of known resources

The index remembers which robots, executions and periodical executions were created from here.  It
has three tables.  A new row goes to the end of its table, and rows are looked up from the front, so
the first row with a code answers for it.  A row carries the code found in the address of its
resource; rows of executions and periodical executions also carry the code of their robot.

Deleting a robot takes three steps, each of which is complete by itself: its executions go first,
then its periodical executions, and the robot last.
-/

set_option autoImplicit false

namespace RobotConsole.Index

structure RobotRow where
  code : String
  url : String
  created : Int
  summary : String
  deriving DecidableEq, Repr

structure ExecutionRow where
  code : String
  robot : String
  url : String
  inputs : String
  created : Int
  deriving DecidableEq, Repr

structure PeriodicalRow where
  code : String
  robot : String
  url : String
  period : String
  inputs : String
  created : Int
  deriving DecidableEq, Repr

structure Tables where
  robots : List RobotRow
  executions : List ExecutionRow
  periodicals : List PeriodicalRow
  deriving DecidableEq, Repr

/-- How many characters of a definition are kept as its summary. -/
def summaryLength : Nat := 100

def summarize (definition : String) : String :=
  String.ofList (definition.toList.take summaryLength)

def codeOf (url : String) : Except Fault String :=
  match Code.find? url with
  | some code => .ok code
  | none => .error (.noCode url)

namespace Tables

def empty : Tables := ⟨[], [], []⟩

/-! ## Adding rows -/

def pushRobot (tables : Tables) (row : RobotRow) : Tables :=
  { tables with robots := tables.robots ++ [row] }

def pushExecution (tables : Tables) (row : ExecutionRow) : Tables :=
  { tables with executions := tables.executions ++ [row] }

def pushPeriodical (tables : Tables) (row : PeriodicalRow) : Tables :=
  { tables with periodicals := tables.periodicals ++ [row] }

/-! ## Looking up addresses -/

def robotUrl? (tables : Tables) (code : String) : Option String :=
  (tables.robots.find? fun row => row.code == code).map RobotRow.url

def executionUrl? (tables : Tables) (code : String) : Option String :=
  (tables.executions.find? fun row => row.code == code).map ExecutionRow.url

def periodicalUrl? (tables : Tables) (code : String) : Option String :=
  (tables.periodicals.find? fun row => row.code == code).map PeriodicalRow.url

/-! ## Deleting rows -/

def dropExecutionsOf (robot : String) (tables : Tables) : Tables :=
  { tables with executions := tables.executions.filter fun row => row.robot != robot }

def dropPeriodicalsOf (robot : String) (tables : Tables) : Tables :=
  { tables with periodicals := tables.periodicals.filter fun row => row.robot != robot }

def dropRobots (code : String) (tables : Tables) : Tables :=
  { tables with robots := tables.robots.filter fun row => row.code != code }

/-- The steps of deleting a robot, in order. -/
def deletionSteps (code : String) : List (Tables → Tables) :=
  [dropExecutionsOf code, dropPeriodicalsOf code, dropRobots code]

def applySteps (steps : List (Tables → Tables)) (tables : Tables) : Tables :=
  steps.foldl (fun tables step => step tables) tables

def deleteRobot (code : String) (tables : Tables) : Tables :=
  applySteps (deletionSteps code) tables

/-- The tables without the executions of a code, and how many there were. -/
def deleteExecution (code : String) (tables : Tables) : Nat × Tables :=
  (tables.executions.countP fun row => row.code == code,
    { tables with executions := tables.executions.filter fun row => row.code != code })

def deletePeriodical (code : String) (tables : Tables) : Nat × Tables :=
  (tables.periodicals.countP fun row => row.code == code,
    { tables with periodicals := tables.periodicals.filter fun row => row.code != code })

end Tables

end RobotConsole.Index
