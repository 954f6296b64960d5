import RobotConsole.Text.Blank
import RobotConsole.Text.Decimal
import RobotConsole.Text.Letters

/-!
# Periods

A period says how often a periodical execution runs: a positive number of days, hours or minutes
that fits in 32 bits.  It is written as an amount directly followed by one letter, and read more
generously: blanks may stand around the amount and the unit, leading zeros are allowed, and a unit
may be spelled out, in letters of either case.
-/

set_option autoImplicit false

namespace RobotConsole

inductive PeriodUnit where
  | days
  | hours
  | minutes
  deriving DecidableEq, Repr

namespace PeriodUnit

def letter : PeriodUnit → Char
  | .days => 'd'
  | .hours => 'h'
  | .minutes => 'm'

def spellings : PeriodUnit → List String
  | .days => ["d", "day", "days"]
  | .hours => ["h", "hour", "hours"]
  | .minutes => ["m", "minute", "minutes"]

def all : List PeriodUnit := [.days, .hours, .minutes]

end PeriodUnit

inductive PeriodFault where
  | incomplete (text : String)
  | amountTooLarge (digits : String)
  | unknownUnit (unit : String)
  | zeroAmount
  deriving DecidableEq, Repr

namespace PeriodFault

def message : PeriodFault → String
  | .incomplete text => "'" ++ text ++ "' must be an amount followed by a unit"
  | .amountTooLarge digits => "'" ++ digits ++ "' is not a valid amount"
  | .unknownUnit unit => "'" ++ unit ++ "' is not a valid unit"
  | .zeroAmount => "the amount must be greater than zero"

end PeriodFault

/-- The amounts of a period lie below this bound. -/
def amountBound : Nat := 0x100000000

structure Period where
  amount : Nat
  unit : PeriodUnit
  amount_pos : 0 < amount
  amount_lt : amount < amountBound
  deriving DecidableEq, Repr

namespace PeriodUnit

/-- Reads a unit in any of its spellings, without regard to case or to blanks around it. -/
def read (text : String) : Except PeriodFault PeriodUnit :=
  let unit := Text.trim text
  match all.find? fun candidate => candidate.spellings.any fun spelling =>
    Text.sameLetters spelling unit with
  | some found => .ok found
  | none => .error (.unknownUnit unit)

end PeriodUnit

namespace Period

/-- The period of `amount` units, unless the amount is zero.  An amount at or above the bound does
not arise from 32-bit fields and is refused by its digits. -/
def make (amount : Nat) (unit : PeriodUnit) : Except PeriodFault Period :=
  if positive : 0 < amount then
    if bounded : amount < amountBound then .ok ⟨amount, unit, positive, bounded⟩
    else .error (.amountTooLarge (Text.natText amount))
  else .error .zeroAmount

def wire (period : Period) : String :=
  String.ofList (Text.natDigits period.amount ++ [period.unit.letter])

def read (text : String) : Except PeriodFault Period :=
  let body := Text.trimChars text.toList
  let digits := body.takeWhile Char.isDigit
  let unit := body.dropWhile Char.isDigit
  if digits = [] ∨ Text.trimChars unit = [] then .error (.incomplete text)
  else
    let amount := Text.digitsValue digits
    if amount < amountBound then
      match PeriodUnit.read (String.ofList unit) with
      | .error fault => .error fault
      | .ok unit => make amount unit
    else .error (.amountTooLarge (String.ofList digits))

end Period

end RobotConsole
