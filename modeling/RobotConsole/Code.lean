import RobotConsole.Text.Decimal

/-!
# Codes of remote resources

The service names each robot, execution and periodical execution by a url in which a code follows a
slash.  A code has five groups of hexadecimal digits, of 8, 4, 4, 4 and 12 characters, joined by
hyphens.  The code of a url is the first one, reading from the left, and is kept exactly as it is
written there.
-/

set_option autoImplicit false

namespace RobotConsole.Code

inductive Slot where
  | digit
  | hyphen
  deriving DecidableEq, Repr

def Slot.fits : Slot → Char → Bool
  | .digit, c => Text.isHexDigit c
  | .hyphen, c => c == '-'

def groupLengths : List Nat := [8, 4, 4, 4, 12]

def shape : List Slot :=
  [Slot.hyphen].intercalate (groupLengths.map fun length => List.replicate length Slot.digit)

/-- Whether the characters fill the places one by one, with none left over on either side. -/
def fills : List Slot → List Char → Bool
  | [], [] => true
  | slot :: slots, c :: cs => slot.fits c && fills slots cs
  | _, _ => false

def IsCode (cs : List Char) : Prop :=
  fills shape cs = true

instance (cs : List Char) : Decidable (IsCode cs) :=
  inferInstanceAs (Decidable (fills shape cs = true))

def atStart? (cs : List Char) : Option (List Char) :=
  let front := cs.take shape.length
  if IsCode front then some front else none

/-- The first code that directly follows a slash. -/
def findChars? : List Char → Option (List Char)
  | [] => none
  | c :: rest =>
      if c = '/' then
        match atStart? rest with
        | some code => some code
        | none => findChars? rest
      else findChars? rest

def find? (url : String) : Option String :=
  (findChars? url.toList).map String.ofList

end RobotConsole.Code
