import RobotConsole.Address
import RobotConsole.Exchange

/-!
# Resources of the service

The root of the service creates robots and runs one-off executions; a robot spawns executions and
periodical executions.  A resource is known by its address alone, kept without slashes at its end.
Robots, executions and periodical executions can be fetched and deleted.
-/

set_option autoImplicit false

namespace RobotConsole

inductive Kind where
  | root
  | robot
  | execution
  | periodical
  deriving DecidableEq, Repr

structure Resource (kind : Kind) where
  url : String
  deriving DecidableEq, Repr

namespace Resource

variable {kind : Kind}

def ofUrl (url : String) : Resource kind :=
  ⟨Address.stem url⟩

def path (resource : Resource kind) (relative : String) : String :=
  Address.join resource.url relative

def create (created : Kind) (resource : Resource kind) (relative : String) (payload : Payload) :
    Talk (Resource created) := do
  let location ← Talk.postForLocation (resource.path relative) payload
  return Resource.ofUrl location

/-- The description of a resource, or none when the service does not have it. -/
def fetch (resource : Resource kind) (patience : Talk.Patience) : Talk (Option Json) :=
  Talk.getJson patience resource.url

def delete (resource : Resource kind) : Talk Unit :=
  Talk.delete resource.url

end Resource

inductive Definition where
  | minilanguage (text : String)
  | xml (text : String)
  deriving DecidableEq, Repr

def Definition.text : Definition → String
  | .minilanguage text => text
  | .xml text => text

def Definition.payload : Definition → Payload
  | .minilanguage text => .form (Form.empty.bind "minilanguage" text)
  | .xml text => .xml text

namespace Service

def createRobot (root : Resource .root) (definition : Definition) : Talk (Resource .robot) :=
  root.create .robot "robot/create" definition.payload

def onceForm (minilanguage : String) (inputs : List String) : Form :=
  (Form.empty.bind "robot" minilanguage).bindAll "input" inputs

/-- Runs a robot once without registering it. -/
def executeOnce (root : Resource .root) (minilanguage : String) (inputs : List String) :
    Talk (Resource .execution) :=
  root.create .execution "robot/execute" (.form (onceForm minilanguage inputs))

def executionForm (inputs : List String) : Form :=
  Form.empty.bindAll "input" inputs

def execute (robot : Resource .robot) (inputs : List String) : Talk (Resource .execution) :=
  robot.create .execution "execute" (.form (executionForm inputs))

def periodicalForm (period : Period) (inputs : List String) : Form :=
  (Form.empty.bind "period" period.wire).bindAll "input" inputs

def schedule (robot : Resource .robot) (period : Period) (inputs : List String) :
    Talk (Resource .periodical) :=
  robot.create .periodical "periodical" (.form (periodicalForm period inputs))

end Service

end RobotConsole
