import RobotConsole.Calendar
import RobotConsole.Command
import RobotConsole.Index.Listing
import RobotConsole.Report
import RobotConsole.Service

/-!
# Pages

A page is what a command shows: lines, of which some may hold line breaks of their own.  Dates that
the service reports in milliseconds are shown as the second that is left when the fraction is cut
off towards zero.
-/

set_option autoImplicit false

namespace RobotConsole

abbrev Page := List String

namespace Page

def text (page : Page) : String :=
  String.join (page.map fun line => line ++ "\n")

def margin : String := "    "

def indent (page : Page) : Page :=
  page.map fun line => margin ++ line

def entityName : Kind → String
  | .root => "server"
  | .robot => "robot"
  | .execution => "execution"
  | .periodical => "periodical execution"

def notFound (kind : Kind) (code : String) : Page :=
  ["Not Found " ++ entityName kind ++ " with code " ++ code]

def robotCreated (code : String) : Page :=
  ["Robot with code " ++ code ++ " created"]

def robotDeleted (code : String) : Page :=
  ["Robot with code " ++ code ++ " deleted along its executions"]

def executionCreated (code : String) : Page :=
  ["Execution with code " ++ code ++ " created"]

def executionDeleted (code : String) : Page :=
  ["deleted execution: " ++ code]

def periodicalCreated (code : String) : Page :=
  ["Periodical execution with code " ++ code ++ " created"]

def periodicalDeleted (code : String) : Page :=
  ["periodical execution with code " ++ code ++ " deleted"]

def millisText (millis : Int) : String :=
  Calendar.dateText (millis.tdiv 1000)

/-! ## The listing -/

def executionLines (row : Index.ExecutionRow) : Page :=
  ["execution " ++ row.code, "Date: " ++ Calendar.dateText row.created, "Inputs: " ++ row.inputs]

def periodicalLines (row : Index.PeriodicalRow) : Page :=
  ["periodical " ++ row.code, "Date: " ++ Calendar.dateText row.created, "Inputs: " ++ row.inputs,
    "Period: " ++ row.period]

def section? {Row : Type} (title : String) (lines : Row → Page) (rows : List Row) : Page :=
  if rows.isEmpty then [] else title :: indent (rows.flatMap lines)

def rule : String := String.ofList (List.replicate 70 '-')

def recordLines (record : Index.RobotRecord) : Page :=
  ["robot " ++ record.row.code, "Date:  " ++ Calendar.dateText record.row.created,
    record.row.summary] ++ section? "Executions:" executionLines record.executions
    ++ section? "Periodicals:" periodicalLines record.periodicals
    ++ [rule]

def listing (records : List Index.RobotRecord) : Page :=
  records.flatMap recordLines

def listingJson (records : List Index.RobotRecord) : Page :=
  [(Index.listingJson records).pretty]

/-! ## Reports -/

def robot (facet : Facet) (report : Report.Robot) : Page :=
  let xml := report.xml.getD ""
  let minilanguage := report.minilanguage.getD ""
  match facet with
  | .everything =>
      ["robot " ++ report.code, "Date: " ++ millisText report.createdMillis, "XML:", xml,
        "Minilanguage:", minilanguage]
  | .xmlOnly => [xml]
  | .minilanguageOnly => [minilanguage]
  | .sources => [xml, minilanguage]

/-- The robot that an execution comes from: its code if its address holds one, else the address
itself. -/
def originLines : Option String → Page
  | none => []
  | some origin => ["from robot " ++ (Code.find? origin).getD origin]

def durationLine (millis : Int) : String :=
  "Execution time: " ++ Text.intText millis ++ " ms"

def execution (code : String) (report : Report.Execution) : Page :=
  ["execution " ++ code, "Date: " ++ millisText report.createdMillis,
    durationLine report.durationMillis] ++ originLines report.origin
    ++ report.resultLines

def optionalLine (title : String) : Option String → Page
  | none => []
  | some value => [title ++ value]

def lastExecution : Option Report.Execution → Page
  | none => ["Not executed yet"]
  | some last =>
      "Last execution:"
        :: indent (["Date: " ++ millisText last.createdMillis, durationLine last.durationMillis] ++
          last.resultLines)

def periodical (code : String) (report : Report.Periodical) : Page :=
  ["periodical " ++ code, "Date: " ++ millisText report.createdMillis]
    ++ optionalLine "Robot: " report.robot
    ++ optionalLine "Period: " report.periodText?
    ++ ["Inputs: " ++ ", ".intercalate report.inputs]
    ++ lastExecution report.lastExecution

end Page

end RobotConsole
