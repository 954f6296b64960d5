import RobotConsole.Index
import RobotConsole.Json.Printer

/-!
# Listing the index

The listing shows every robot with the executions and periodical executions of its code.  In each of
the three lists the newest come first, and of rows created in the same second the one that was added
last.
-/

set_option autoImplicit false

namespace RobotConsole.Index

/-- Puts a row in front of the first one that is not newer. -/
def place {Row : Type} (created : Row → Int) (row : Row) : List Row → List Row
  | [] => [row]
  | next :: rest => if created next ≤ created row then row :: next :: rest
      else next :: place created row rest

def newestFirst {Row : Type} (created : Row → Int) (rows : List Row) : List Row :=
  rows.foldl (fun placed row => place created row placed) []

structure RobotRecord where
  row : RobotRow
  executions : List ExecutionRow
  periodicals : List PeriodicalRow
  deriving DecidableEq, Repr

namespace Tables

def executionsOf (tables : Tables) (robot : String) : List ExecutionRow :=
  newestFirst ExecutionRow.created (tables.executions.filter fun row => row.robot == robot)

def periodicalsOf (tables : Tables) (robot : String) : List PeriodicalRow :=
  newestFirst PeriodicalRow.created (tables.periodicals.filter fun row => row.robot == robot)

def recordOf (tables : Tables) (row : RobotRow) : RobotRecord :=
  ⟨row, tables.executionsOf row.code, tables.periodicalsOf row.code⟩

/-- Every robot, newest first, each with its history. -/
def listing (tables : Tables) : List RobotRecord :=
  (newestFirst RobotRow.created tables.robots).map tables.recordOf

end Tables

/-! ## The listing in JSON -/

def ExecutionRow.toJson (row : ExecutionRow) : Json :=
  .object
    [("code", .string row.code), ("robot_code", .string row.robot), ("url", .string row.url),
      ("inputs", .string row.inputs), ("creation_time", .integer row.created)]

def PeriodicalRow.toJson (row : PeriodicalRow) : Json :=
  .object
    [("code", .string row.code), ("robot_code", .string row.robot), ("url", .string row.url),
      ("period", .string row.period), ("inputs", .string row.inputs),
      ("creation_time", .integer row.created)]

def RobotRecord.toJson (record : RobotRecord) : Json :=
  .object
    [("code", .string record.row.code), ("url", .string record.row.url),
      ("creation_time", .integer record.row.created), ("summary", .string record.row.summary),
      ("executions", .array (record.executions.map ExecutionRow.toJson)),
      ("periodicals", .array (record.periodicals.map PeriodicalRow.toJson))]

def listingJson (records : List RobotRecord) : Json :=
  .array (records.map RobotRecord.toJson)

end RobotConsole.Index
