import RobotConsole.Period

/-!
# Commands

What a user can ask for.  Robots are listed, created, shown, deleted, executed and scheduled;
executions and periodical executions are shown and deleted; and a robot can be executed once without
registering it.  A definition comes from a file or from standard input.
-/

set_option autoImplicit false

namespace RobotConsole

inductive Facet where
  | everything
  | xmlOnly
  | minilanguageOnly
  /-- Both sources alone.  No command line asks for this. -/
  | sources
  deriving DecidableEq, Repr

inductive Command where
  | listRobots (json : Bool)
  | createRobot (server : Option String) (xml : Bool) (file : Option String)
  | showRobot (code : String) (facet : Facet)
  | deleteRobot (code : String)
  | executeRobot (code : String) (inputs : List String)
  | scheduleRobot (code : String) (period : Period) (inputs : List String)
  | showExecution (code : String)
  | deleteExecution (code : String)
  | showPeriodical (code : String)
  | deletePeriodical (code : String)
  | executeOnce (server : Option String) (file : Option String) (inputs : List String)
  deriving DecidableEq, Repr

namespace Command

/-- Where a command reads a definition from: no definition, a file, or standard input. -/
inductive Source where
  | none
  | file (path : String)
  | input
  deriving DecidableEq, Repr

def Source.of : Option String → Source
  | some path => .file path
  | Option.none => .input

def source : Command → Source
  | .createRobot _ _ file => .of file
  | .executeOnce _ file _ => .of file
  | _ => .none

end Command

end RobotConsole
