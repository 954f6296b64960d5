import RobotConsole.Files.Tree
import RobotConsole.Index.Locator

/-!
# The file of an index

An index is opened in these steps.  The folder that its locator names is made, with all folders
above it.  The file is made if there is none.  What an earlier use may have left beside the file is
settled: a journal, and then a log.  A blank file gets empty tables; any other bytes cannot be used.

Every later step finds the file anew: it makes a missing file and settles what lies beside it, but
it makes no tables.

A log is read with a map of it, which is made for the time being and goes away together with the
log.  Where the map cannot be made, the file can be read but not changed, and the log stays.
-/

set_option autoImplicit false

namespace RobotConsole.Files

open Index (FileUse Locator)

abbrev Visit := ExceptT Fault (StateM Tree)

namespace Tree

/-! ## Finding the file -/

/-- The longest text of a place that is looked at on the way to an index, and that of the place of
an index itself. -/
def longestTrail : Nat := 511

def longestIndexPlace : Nat := 504

/-- Whether a place can be looked at; nothing needs to be there. -/
def canLookAt (tree : Tree) (place : Place) : Bool :=
  match tree.walk [] (place.map Step.down) with
  | .ok _ => true
  | .error fault => fault == .missing

/-- Takes the steps to an index.  A step up leads back, even out of a folder that is not there. -/
def trail? (tree : Tree) (place : Place) : List Step → Option Place
  | [] => some place
  | .stay :: rest => trail? tree place rest
  | .up :: rest => trail? tree place.dropLast rest
  | .down name :: rest =>
      let place := place ++ [name]
      if placeLength place ≤ longestTrail && tree.canLookAt place then trail? tree place rest
        else none

def filePlace? (tree : Tree) (use : FileUse) : Option Place :=
  (tree.trail? (tree.base use.path) (steps use.path)).filter fun place =>
    !place.isEmpty && placeLength place ≤ longestIndexPlace

def indexPlace? (tree : Tree) (locator : String) : Option Place :=
  match Locator.read? locator with
  | some (.file use) => tree.filePlace? use
  | _ => none

/-! ## What lies beside the file -/

def besides (place : Place) (ending : String) : Place :=
  place.dropLast ++ [(place.getLast?).getD [] ++ bytesOf ending]

def journalOf (place : Place) : Place := besides place "-journal"

def logOf (place : Place) : Place := besides place "-wal"

def mapOf (place : Place) : Place := besides place "-shm"

def lockOf (place : Place) : Place := besides place ".lock"

end Tree

namespace Node

/-- A file of one byte is as blank as an empty one. -/
def isBlank : Node → Bool
  | .bytes content => content.size ≤ 1
  | _ => false

/-- An empty file counts as nothing where something is looked for beside an index. -/
def isNothing : Node → Bool
  | .bytes content => content.isEmpty
  | _ => false

def isVoid : Node → Bool
  | .bytes content => content.toList.head? == some 0
  | _ => false

/-- A log is unsalted if it is too short for a head, or has only zeros where its head has the
salt. -/
def isUnsalted : Node → Bool
  | .bytes content => content.size < 32 || (content.toList.drop 16).take 8 == List.replicate 8 0
  | _ => false

/-- The map of a log, as it is left by one who may not clear it away. -/
def leftMap : Node := .bytes [0x18, 0xE2, 0x2D, 0x00].toByteArray

end Node

structure Footing where
  mayChange : Bool
  /-- Changes go through a log, and no journal is touched. -/
  logged : Bool
  deriving DecidableEq, Repr

structure Holding where
  store : Index.Store
  place : Option Place
  logged : Bool

namespace Visit

def refuse {α : Type} : Visit α := throw .storage

def remove (place : Place) : Visit Unit := modify fun tree => tree.remove place

def found? (place : Place) : Visit (Option Node) := do
  return ((← get).node? place).filter fun node => !node.isNothing

def isBlankAt (place : Place) : Visit Bool := do
  return ((← get).node? place).any Node.isBlank

def settleLock (use : FileUse) (place : Place) : Visit Unit := do
  let tree ← get
  let lock := Tree.lockOf place
  if use.locking = .folder && ((tree.node? lock).isSome || !tree.canLookAt lock) then refuse

/-- Settles a journal.  Beside a blank file it is cleared away if the file can be held for that;
beside any other file it tells of a change that was not completed, which must be taken back before
the file is used. -/
def settleJournal (use : FileUse) (place : Place) : Visit Unit := do
  match ← found? (Tree.journalOf place) with
  | none => return
  | some node =>
      if ← isBlankAt place then
        if node != .folder && (use.mayChange || use.locking = .none || use.locking = .folder) then
          remove (Tree.journalOf place)
      else if node = .folder then refuse
      else if node.isVoid then return
      else if use.mayChange then remove (Tree.journalOf place)
      else refuse

/-- Reads a log with a map beside it.  With a map that cannot be written, only an unsalted log can
be trusted. -/
def settleMap (use : FileUse) (place : Place) (log : Node) : Visit Footing := do
  match (← get).node? (Tree.mapOf place), use.mapGiven with
  | none, true => refuse
  | some .folder, _ | some _, true => if log.isUnsalted then return ⟨false, true⟩ else refuse
  | _, false =>
      if use.mayChange then
        remove (Tree.logOf place)
        remove (Tree.mapOf place)
        return ⟨true, true⟩
      else
        modify fun tree => tree.put (Tree.mapOf place) Node.leftMap
        return ⟨false, true⟩

/-- Settles a log.  Beside a blank file it is cleared away; beside any other file it can be read
only under a lock of the file itself. -/
def settleLog (use : FileUse) (place : Place) : Visit Footing := do
  match ← found? (Tree.logOf place) with
  | none => return ⟨use.mayChange, false⟩
  | some log =>
      if log = .folder then refuse
      else if ← isBlankAt place then
        remove (Tree.logOf place)
        return ⟨use.mayChange, false⟩
      else
        match use.locking with
        | .none | .folder => refuse
        | .shared => settleMap use place log
        | .whole =>
            if use.mayChange then
              remove (Tree.logOf place)
              return ⟨true, true⟩
            else settleMap use place log

def settle (use : FileUse) (place : Place) : Visit Footing := do
  if use.frozen then return ⟨false, false⟩
  else
    settleLock use place
    settleJournal use place
    settleLog use place

/-! ## Using the file -/

def hasModel (use : FileUse) (tree : Tree) : Bool :=
  match use.model with
  | none => true
  | some path => (tree.locate? path).isSome

def reach (use : FileUse) : Visit Place := do
  let tree ← get
  match tree.filePlace? use with
  | none => refuse
  | some place =>
      if !hasModel use tree then refuse
      else
        match tree.node? place with
        | some .folder | some .null => refuse
        | some _ => return place
        | none =>
            if use.mayCreate && tree.isFolderAt place.dropLast then
              set (tree.put place (.bytes ByteArray.empty))
              return place
            else refuse

def tables? (place : Place) : Visit (Option Index.Tables) := do
  match (← get).node? place with
  | some (.index tables) => return some tables
  | some node => if node.isBlank then return none else refuse
  | none => refuse

/-- Puts empty tables into a blank file.  A journal must be possible meanwhile. -/
def makeTables (footing : Footing) (place : Place) : Visit Unit := do
  let journal := Tree.journalOf place
  let tree ← get
  if footing.mayChange && tree.canLookAt journal && !tree.isFolderAt journal then
    set ((tree.remove journal).put place (.index .empty))
  else refuse

def makeFolder (locator : String) : Visit Unit := fun tree =>
  match tree.makeFolderOf (bytesOf locator) with
  | (.ok (), tree) => (.ok (), tree)
  | (.error fault, tree) => (.error (.io fault.message), tree)

def openIndex (locator : String) : Visit Unit := do
  makeFolder locator
  match Locator.read? locator with
  | none => refuse
  | some (.passing mayChange) => if mayChange then return else refuse
  | some (.file use) =>
      let place ← reach use
      let footing ← settle use place
      match ← tables? place with
      | some _ => return
      | none => makeTables footing place

/-- What a step finds of an index in a file. -/
def hold (use : FileUse) : Visit Holding := do
  let place ← reach use
  let footing ← settle use place
  match ← tables? place with
  | none => refuse
  | some tables =>
      return ⟨if footing.mayChange then .sound tables else .sealed tables, some place,
        footing.logged⟩

end Visit

namespace Tree

def openIndex (tree : Tree) (locator : String) : Except Fault Unit × Tree :=
  (Visit.openIndex locator).run tree

def hold (tree : Tree) (locator : String) : Holding × Tree :=
  match Locator.read? locator with
  | some (.file use) =>
      match (Visit.hold use).run tree with
      | (.ok holding, tree) => (holding, tree)
      | (.error _, tree) => (⟨.damaged, none, false⟩, tree)
  | _ => (⟨.damaged, none, false⟩, tree)

def store (tree : Tree) (locator : String) : Index.Store :=
  (tree.hold locator).1.store

/-- Keeps what a step has left in the store that it found.  A change without a log takes a void
journal away. -/
def keep (tree : Tree) (holding : Holding) (store : Index.Store) : Tree :=
  match store, holding.place with
  | .sound tables, some place =>
      if tree.node? place = some (.index tables) then tree
      else
        let tree := if holding.logged then tree else tree.remove (journalOf place)
        tree.put place (.index tables)
  | _, _ => tree

end Tree

end RobotConsole.Files
