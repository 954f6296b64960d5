import RobotConsole.Index.Listing

/-!
# The store of the index

The index lies in a file.  A store is what that file holds when it is used: the three tables, or
something that cannot be used as an index, on which every step fails.  The tables of a sealed store
can be read, but every step that would change them fails, even one that would change nothing.  The
code in the address of a new resource is looked for before the file is touched.
-/

set_option autoImplicit false

namespace RobotConsole.Index

inductive Store where
  | sound (tables : Tables)
  | sealed (tables : Tables)
  | damaged
  deriving DecidableEq, Repr

/-- A step on a store: it may fail, and leaves a store. -/
abbrev Keep := ExceptT Fault (StateM Store)

namespace Keep

/-- A step that needs the tables and may change them. -/
def withTables {α : Type} (step : Tables → α × Tables) : Keep α := fun store =>
  match store with
  | .sound tables =>
      let (result, tables) := step tables
      (.ok result, .sound tables)
  | .sealed _ => (.error .storage, store)
  | .damaged => (.error .storage, store)

def reading {α : Type} (view : Tables → α) : Keep α := fun store =>
  match store with
  | .sound tables => (.ok (view tables), store)
  | .sealed tables => (.ok (view tables), store)
  | .damaged => (.error .storage, store)

def changing (change : Tables → Tables) : Keep Unit :=
  withTables fun tables => ((), change tables)

/-- Notes a robot created at `url` at the time `now`, and returns its code. -/
def addRobot (now : Int) (url definition : String) : Keep String := do
  let code ← codeOf url
  changing fun tables => tables.pushRobot ⟨code, url, now, summarize definition⟩
  return code

def addExecution (now : Int) (robot url : String) (inputs : List String) : Keep String := do
  let code ← codeOf url
  changing fun tables => tables.pushExecution ⟨code, robot, url, Text.quoteList inputs, now⟩
  return code

def addPeriodical (now : Int) (robot url period : String) (inputs : List String) : Keep String := do
  let code ← codeOf url
  changing fun tables => tables.pushPeriodical
    ⟨code, robot, url, period, Text.quoteList inputs, now⟩
  return code

def robotUrl? (code : String) : Keep (Option String) :=
  reading fun tables => tables.robotUrl? code

def executionUrl? (code : String) : Keep (Option String) :=
  reading fun tables => tables.executionUrl? code

def periodicalUrl? (code : String) : Keep (Option String) :=
  reading fun tables => tables.periodicalUrl? code

def deleteRobot (code : String) : Keep Unit :=
  (Tables.deletionSteps code).forM changing

def deleteExecution (code : String) : Keep Nat :=
  withTables fun tables => tables.deleteExecution code

def deletePeriodical (code : String) : Keep Nat :=
  withTables fun tables => tables.deletePeriodical code

def executionsOf (robot : String) : Keep (List ExecutionRow) :=
  reading fun tables => tables.executionsOf robot

def periodicalsOf (robot : String) : Keep (List PeriodicalRow) :=
  reading fun tables => tables.periodicalsOf robot

def listing : Keep (List RobotRecord) :=
  reading Tables.listing

end Keep

end RobotConsole.Index
