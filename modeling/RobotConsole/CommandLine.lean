import RobotConsole.Command
import RobotConsole.CommandLine.Scan

/-!
# Command lines

A command line is scanned into layers, and the innermost layer tells the command.  The index to use
may be named at any level; the innermost name counts.
-/

set_option autoImplicit false

namespace RobotConsole.CommandLine

/-- A command together with the index that the command line names. -/
structure Invocation where
  store : Option String
  command : Command
  deriving DecidableEq, Repr

namespace Layer

def first? (layer : Layer) (name : String) : Option String :=
  (layer.bound.values? name).bind List.head?

def all (layer : Layer) (name : String) : List String :=
  (layer.bound.values? name).getD []

def isSet (layer : Layer) (name : String) : Bool :=
  layer.bound.isBound name

def facet (layer : Layer) : Facet :=
  if layer.isSet "xml" then if layer.isSet "minilanguage" then .sources else .xmlOnly
  else if layer.isSet "minilanguage" then .minilanguageOnly
  else .everything

def period? (layer : Layer) : Option Period :=
  (layer.first? "period").bind fun text => (Period.read text).toOption

def actionOn? (layer : Layer) (onShow onDelete : String → Command) : Option Command := do
  let action ← layer.first? "action"
  let code ← layer.first? "code"
  if action = "show" then some (onShow code)
  else if action = "delete" then some (onDelete code)
  else none

def command? (layer : Layer) : Option Command :=
  match layer.level with
  | .top => none
  | .robot => none
  | .robotList => some (.listRobots (layer.isSet "json"))
  | .robotCreate => some (.createRobot (layer.first? "server") (layer.isSet "xml")
      (layer.first? "file"))
  | .robotShow => (layer.first? "code").map fun code => .showRobot code layer.facet
  | .robotDelete => (layer.first? "code").map .deleteRobot
  | .robotExecute => (layer.first? "code").map fun code => .executeRobot code (layer.all "inputs")
  | .robotSchedule => do
      let code ← layer.first? "code"
      let period ← layer.period?
      return .scheduleRobot code period (layer.all "inputs")
  | .execution => layer.actionOn? .showExecution .deleteExecution
  | .periodical => layer.actionOn? .showPeriodical .deletePeriodical
  | .executeOnce => some (.executeOnce (layer.first? "server") (layer.first? "file")
      (layer.all "inputs"))

end Layer

def ofLayers (layers : Layers) : Except UsageFault Invocation :=
  match layers with
  | [] => .error .helpForMissing
  | innermost :: _ =>
      match innermost.command? with
      | none => .error .missingRequiredArgument
      | some command => .ok ⟨layers.findSome? fun layer => layer.first? "store", command⟩

def parse (words : List String) : Except UsageFault Invocation :=
  match scanWords .top .start words with
  | .error fault => .error fault
  | .ok layers => ofLayers layers

end RobotConsole.CommandLine
