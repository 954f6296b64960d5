import RobotConsole.Files.Path
import RobotConsole.Text.Decimal
import RobotConsole.Text.Letters

/-!
# Locators

Where an index lies is told by a text, its locator.  Most locators are plain paths.  A locator that
starts with `file:` is a path with more to it: an authority may stand before the path, and terms
after a question mark tell how the file is used; a number sign ends the locator.  In each part of it
a percent sign with two hexadecimal digits stands for a byte, and a zero byte written in this way
ends the part.

An index at the empty path, at `:memory:`, or kept in memory by its terms has no file and is gone
when a step ends.
-/

set_option autoImplicit false

namespace RobotConsole.Index

open Files (Bytes bytesOf)

inductive Locking where
  | none
  /-- By a folder beside the file. -/
  | folder
  /-- Together with others, who share the map of a log. -/
  | shared
  /-- Alone, with the map of a log in memory. -/
  | whole
  deriving DecidableEq, Repr

/-- How the file of an index may be used. -/
structure FileUse where
  path : Bytes
  mayChange : Bool
  mayCreate : Bool
  /-- The file is taken to be beyond change, and nothing beside it is looked at. -/
  frozen : Bool
  locking : Locking
  /-- The map of a log must be there, and is only read. -/
  mapGiven : Bool
  /-- A file that a new index takes its permissions from. -/
  model : Option Bytes
  deriving DecidableEq, Repr

inductive Locator where
  | file (use : FileUse)
  /-- An index that lasts for one step. -/
  | passing (mayChange : Bool)
  deriving DecidableEq, Repr

/-! ## Terms -/

structure Term where
  name : Bytes
  value : Bytes
  deriving DecidableEq, Repr

def decodePart : List Char → Bytes
  | [] => []
  | '%' :: high :: low :: rest =>
      if Text.isHexDigit high && Text.isHexDigit low then
        let byte := UInt8.ofNat (16 * Text.hexValue high + Text.hexValue low)
        if byte = 0 then [] else byte :: decodePart rest
      else bytesOf "%" ++ decodePart (high :: low :: rest)
  | c :: rest => String.utf8EncodeChar c ++ decodePart rest

/-- A term has its name before the first equals sign and its value after it. -/
def readTerm (item : List Char) : Term :=
  ⟨decodePart (item.takeWhile (· != '=')), decodePart ((item.dropWhile (· != '=')).drop 1)⟩

/-- The terms between ampersands; those without a name do not count. -/
def readTerms (query : List Char) : List Term :=
  ((query.splitOn '&').map readTerm).filter fun term => !term.name.isEmpty

def valuesOf (terms : List Term) (name : String) : List Bytes :=
  (terms.filter fun term => term.name == bytesOf name).map Term.value

/-! ## Switches -/

/-- The whole number at the start of a text.  One that does not fit into 31 bits counts as zero. -/
def leadingNumber (text : List Char) : Nat :=
  let number :=
    match text with
    | '0' :: x :: digit :: rest =>
        if (x == 'x' || x == 'X') && Text.isHexDigit digit then
          Text.hexDigitsValue ((digit :: rest).takeWhile Text.isHexDigit)
        else Text.digitsValue (text.takeWhile Char.isDigit)
    | _ => Text.digitsValue (text.takeWhile Char.isDigit)
  if number < 0x80000000 then number else 0

/-- A switch is on by one of three words, or by a number whose lowest byte is not zero. -/
def isOn (value : Bytes) : Bool :=
  let text := value.map fun byte => Char.ofNat byte.toNat
  match text with
  | c :: _ =>
      if c.isDigit then leadingNumber text % 256 != 0
      else ["on", "yes", "true"].any fun word => Text.sameLetters word (String.ofList text)
  | [] => false

def isSwitchedOn (terms : List Term) (name : String) : Bool :=
  (valuesOf terms name).head?.any isOn

/-! ## Modes -/

inductive Mode where
  | read
  | change
  | create
  | memory
  deriving DecidableEq, Repr

namespace Mode

def ofWord? (word : Bytes) : Option Mode :=
  if word = bytesOf "ro" then some .read
  else if word = bytesOf "rw" then some .change
  else if word = bytesOf "rwc" then some .create
  else if word = bytesOf "memory" then some .memory
  else none

def rank : Mode → Nat
  | .read => 0
  | .change => 1
  | .create => 2
  | .memory => 3

/-- A mode gives way only to one that allows no more, and to memory. -/
def next? (mode : Mode) (word : Bytes) : Option Mode :=
  (ofWord? word).filter fun next => next == .memory || next.rank ≤ mode.rank

def ofWords? (words : List Bytes) : Option Mode :=
  words.foldlM next? .create

def mayChange (mode : Mode) : Bool :=
  mode != .read

end Mode

/-! ## Keepers -/

inductive Keeper where
  | file (locking : Locking)
  | memory
  deriving DecidableEq, Repr

namespace Keeper

def ofWord? (word : Bytes) : Option Keeper :=
  if word = bytesOf "unix" then some (.file .shared)
  else if word = bytesOf "unix-excl" then some (.file .whole)
  else if word = bytesOf "unix-dotfile" then some (.file .folder)
  else if word = bytesOf "unix-none" then some (.file .none)
  else if word = bytesOf "memdb" then some .memory
  else none

/-- The last word decides. -/
def ofWords? (words : List Bytes) : Option Keeper :=
  match words.getLast? with
  | none => some (.file .shared)
  | some word => ofWord? word

end Keeper

/-! ## Reading locators -/

namespace Locator

def longestMemoryPath : Nat := 1016

def isCacheWord (word : Bytes) : Bool :=
  word == bytesOf "shared" || word == bytesOf "private"

def ofTerms? (path : Bytes) (terms : List Term) : Option Locator := do
  let mode ← Mode.ofWords? (valuesOf terms "mode")
  let keeper ← Keeper.ofWords? (valuesOf terms "vfs")
  let frozen := isSwitchedOn terms "immutable"
  if !(valuesOf terms "cache").all isCacheWord then none
  else if path.isEmpty || path == bytesOf ":memory:" || mode == .memory
    then return .passing mode.mayChange
  else
    match keeper with
    | .memory =>
        if longestMemoryPath < path.length then none
          else return .passing (mode.mayChange && !frozen)
    | .file locking =>
        return .file
          ⟨path, mode.mayChange, mode == .create, frozen,
            if isSwitchedOn terms "nolock" then .none else locking,
            isSwitchedOn terms "readonly_shm", (valuesOf terms "modeof").head?⟩

/-- Takes the authority off.  It must be empty or the local host. -/
def dropAuthority? : List Char → Option (List Char)
  | '/' :: '/' :: rest =>
      let authority := rest.takeWhile (· != '/')
      if authority.isEmpty || authority == "localhost".toList then some (rest.dropWhile (· != '/'))
        else none
  | rest => some rest

/-- The locator in a text.  A text with a zero byte is none. -/
def read? (text : String) : Option Locator :=
  if text.toList.contains '\x00' then none
  else
    match text.toList with
    | 'f' :: 'i' :: 'l' :: 'e' :: ':' :: rest =>
        (dropAuthority? rest).bind fun rest =>
          let body := rest.takeWhile (· != '#')
          ofTerms? (decodePart (body.takeWhile (· != '?')))
            (readTerms ((body.dropWhile (· != '?')).drop 1))
    | _ => ofTerms? (bytesOf text) []

end Locator

end RobotConsole.Index
