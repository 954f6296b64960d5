/-!
# Items of a TOML document

A document is a table of items under keys.  Of an item only what settings need is kept: texts and
whole numbers have their values, the other values only their kinds.

How a table came about decides what may be added to it.  A table that only lies on the way to a
header may still get a header of its own; one made by a dotted key takes further dotted keys, but no
header; one with a header takes neither; a table written in braces is closed.
-/

set_option autoImplicit false

namespace RobotConsole.Toml

inductive Origin where
  | onTheWay
  | dotted
  | header
  deriving DecidableEq, Repr

inductive Item where
  | text (text : String)
  | whole (number : Int)
  | boolean
  | float
  | date
  | array
  | braces (entries : List (String × Item))
  | table (origin : Origin) (entries : List (String × Item))
  | tables (members : List (List (String × Item)))
  deriving Repr, Inhabited

/-- Items under their keys, in the order in which the keys were first written. -/
abbrev Entries := List (String × Item)

namespace Entries

def item? (entries : Entries) (key : String) : Option Item :=
  (entries.find? fun entry => entry.1 == key).map Prod.snd

def set (key : String) (item : Item) : Entries → Entries
  | [] => [(key, item)]
  | (held, before) :: rest =>
      if held = key then (held, item) :: rest else (held, before) :: set key item rest

/-- Changes the table that a path leads to.  A key that is missing on the way gets a new table of
the origin `made`; a table on the way is passed only if `passes` allows its origin; of a list of
tables the last one is taken.  The change is told whether the table it gets came about by a dotted
key. -/
def changeAt (made : Origin) (passes : Origin → Bool) (change : Bool → Entries → Option Entries) :
    List String → Bool → Entries → Option Entries
  | [], isDotted, entries => change isDotted entries
  | key :: path, _, entries =>
      match entries.item? key with
      | none =>
          (changeAt made passes change path (made == .dotted) []).map fun inner =>
            entries.set key (.table made inner)
      | some (.table origin inner) =>
          if passes origin then
            (changeAt made passes change path (origin == .dotted) inner).map fun inner =>
              entries.set key (.table origin inner)
          else none
      | some (.tables members) =>
          match members.getLast? with
          | none => none
          | some inner =>
              (changeAt made passes change path false inner).map fun inner =>
                entries.set key (.tables (members.dropLast ++ [inner]))
      | some _ => none

/-- Puts an item under a dotted key.  The table that receives it must have come about by the same
kind of key: one without dots for the table at hand, a dotted one for a table below it. -/
def define (path : List String) (key : String) (item : Item) (entries : Entries) : Option Entries :=
  changeAt .dotted (· != .header)
    (fun isDotted inner =>
      if isDotted == path.isEmpty then none
      else if (inner.item? key).isSome then none
      else some (inner ++ [(key, item)]))
    path false entries

def openTable (path : List String) (key : String) (entries : Entries) : Option Entries :=
  changeAt .onTheWay (fun _ => true)
    (fun _ inner =>
      match inner.item? key with
      | none => some (inner ++ [(key, .table .header [])])
      | some (.table .onTheWay below) => some (inner.set key (.table .header below))
      | some _ => none)
    path false entries

def openMember (path : List String) (key : String) (entries : Entries) : Option Entries :=
  changeAt .onTheWay (fun _ => true)
    (fun _ inner =>
      match inner.item? key with
      | none => some (inner ++ [(key, .tables [[]])])
      | some (.tables members) => some (inner.set key (.tables (members ++ [[]])))
      | some _ => none)
    path false entries

def defineIn (header path : List String) (key : String) (item : Item) (entries : Entries) :
    Option Entries :=
  changeAt .onTheWay (fun _ => true)
    (fun _ inner => define path key item inner) header false entries

end Entries

end RobotConsole.Toml
