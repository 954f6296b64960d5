import RobotConsole.Period
import RobotConsole.Report.Schema

/-!
# What the service reports

The service describes a robot, an execution and a periodical execution in JSON.  Dates are
milliseconds since the start of 1970.  Executions may give their date under a shorter name.  The
period of a periodical execution comes in two fields, an amount and a unit, which are read as one
text.
-/

set_option autoImplicit false

namespace RobotConsole.Report

structure Robot where
  code : String
  createdMillis : Int
  xml : Option String
  minilanguage : Option String
  deriving DecidableEq, Repr

structure Execution where
  createdMillis : Int
  durationMillis : Int
  origin : Option String
  inputs : List String
  resultLines : List String
  deriving DecidableEq, Repr

structure Periodical where
  code : String
  createdMillis : Int
  robot : Option String
  periodUnit : Option String
  periodAmount : Option Nat
  inputs : List String
  lastExecution : Option Execution
  deriving DecidableEq, Repr

def Robot.schema : Schema Robot where
  name := "RobotView"
  fields :=
    [ .of "code" fitText (fun code record => { record with code }) [],
      .of "creationDateMillis" fitLong
        (fun createdMillis record => { record with createdMillis }) [],
      .of "robotXML" (fitOptional fitText) (fun xml record => { record with xml }) [],
      .of "robotInMinilanguage" (fitOptional fitText)
        (fun minilanguage record => { record with minilanguage }) [] ]
  default := ⟨"", 0, none, none⟩

def Execution.schema : Schema Execution where
  name := "ExecutionView"
  fields :=
    [ .of "creationDateMillis" fitLong (fun createdMillis record => { record with createdMillis })
      ["date"],
      .of "executionTime" fitLong (fun durationMillis record => { record with durationMillis }) [],
      .of "createdFrom" (fitOptional fitText) (fun origin record => { record with origin }) [],
      .of "inputs" (fitList fitText) (fun inputs record => { record with inputs }) [],
      .of "resultLines" (fitList fitText)
        (fun resultLines record => { record with resultLines }) [] ]
  default := ⟨0, 0, none, [], []⟩

def Periodical.schema : Schema Periodical where
  name := "PeriodicalView"
  fields :=
    [ .of "code" fitText (fun code record => { record with code }) [],
      .of "creationDateMillis" fitLong
        (fun createdMillis record => { record with createdMillis }) [],
      .of "robot" (fitOptional fitText) (fun robot record => { record with robot }) [],
      .of "periodUnit" (fitOptional fitText)
        (fun periodUnit record => { record with periodUnit }) [],
      .of "periodAmount" (fitOptional fitCount)
        (fun periodAmount record => { record with periodAmount }) [],
      .of "inputs" (fitList fitText) (fun inputs record => { record with inputs }) [],
      .of "lastExecutionResult" (fitOptional Execution.schema.fit)
        (fun lastExecution record => { record with lastExecution }) [] ]
  default := ⟨"", 0, none, none, none, [], none⟩

def Robot.ofJson (value : Json) : Except Misfit Robot := Robot.schema.fit value

def Execution.ofJson (value : Json) : Except Misfit Execution := Execution.schema.fit value

def Periodical.ofJson (value : Json) : Except Misfit Periodical := Periodical.schema.fit value

/-- The period in its written form, when amount and unit are both given.  The two are put together
as one text; a text that is no period is shown as it is. -/
def Periodical.periodText? (report : Periodical) : Option String :=
  match report.periodAmount, report.periodUnit with
  | some amount, some unit =>
      let text := Text.natText amount ++ unit
      match Period.read text with
      | .ok period => some period.wire
      | .error _ => some text
  | _, _ => none

end RobotConsole.Report
