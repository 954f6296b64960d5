import RobotConsole.Index.Listing
import RobotConsole.Json.Reader

/-!
# The index on disk

The tables of an index are kept in a file as one JSON object with a list for each table.  A row is
an object that has exactly the columns of its table as members.  A text that is no such object is
not an index.
-/

set_option autoImplicit false

namespace RobotConsole.Index

def RobotRow.toJson (row : RobotRow) : Json :=
  .object
    [("code", .string row.code), ("url", .string row.url), ("creation_time", .integer row.created),
      ("summary", .string row.summary)]

namespace Archive

def text? (row : Json) (column : String) : Option String :=
  match row.member? column with
  | some (.string text) => some text
  | _ => none

def whole? (row : Json) (column : String) : Option Int :=
  match row.member? column with
  | some (.integer number) => some number
  | _ => none

def robotRow? (row : Json) : Option RobotRow := do
  return ⟨← text? row "code", ← text? row "url", ← whole? row "creation_time",
    ← text? row "summary"⟩

def executionRow? (row : Json) : Option ExecutionRow := do
  return ⟨← text? row "code", ← text? row "robot_code", ← text? row "url", ← text? row "inputs",
    ← whole? row "creation_time"⟩

def periodicalRow? (row : Json) : Option PeriodicalRow := do
  return ⟨← text? row "code", ← text? row "robot_code", ← text? row "url", ← text? row "period",
    ← text? row "inputs", ← whole? row "creation_time"⟩

def rows? {Row : Type} (read? : Json → Option Row) (archive : Json) (table : String) :
    Option (List Row) :=
  match archive.member? table with
  | some (.array rows) => rows.mapM read?
  | _ => none

end Archive

namespace Tables

def toJson (tables : Tables) : Json :=
  .object
    [("robots", .array (tables.robots.map RobotRow.toJson)),
      ("executions", .array (tables.executions.map ExecutionRow.toJson)),
      ("periodicals", .array (tables.periodicals.map PeriodicalRow.toJson))]

def ofJson? (archive : Json) : Option Tables := do
  return ⟨← Archive.rows? Archive.robotRow? archive "robots",
    ← Archive.rows? Archive.executionRow? archive "executions",
    ← Archive.rows? Archive.periodicalRow? archive "periodicals"⟩

/-- The text that is kept. -/
def archive (tables : Tables) : String :=
  tables.toJson.pretty ++ "\n"

def ofArchive? (text : String) : Option Tables :=
  match Json.read text with
  | .ok archive => ofJson? archive
  | .error _ => none

end Tables

end RobotConsole.Index
