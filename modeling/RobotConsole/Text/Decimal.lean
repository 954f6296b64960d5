/-!
# Decimal digits

A run of ASCII digits is read as a number with any count of leading zeros; a number is written
without them, padded on the left where a fixed width is asked for.
-/

set_option autoImplicit false

namespace RobotConsole.Text

/-- The value of a digit character; meaningful on the ten ASCII digits only. -/
def digitValue (c : Char) : Nat :=
  c.toNat - '0'.toNat

def digitsValue (digits : List Char) : Nat :=
  digits.foldl (fun value digit => 10 * value + digitValue digit) 0

def natDigits (number : Nat) : List Char :=
  Nat.toDigits 10 number

def natText (number : Nat) : String :=
  String.ofList (natDigits number)

def intText (number : Int) : String :=
  if number < 0 then "-" ++ natText number.natAbs else natText number.natAbs

def paddedDigits (width number : Nat) : List Char :=
  let digits := natDigits number
  List.replicate (width - digits.length) '0' ++ digits

def paddedText (width number : Nat) : String :=
  String.ofList (paddedDigits width number)

def isHexDigit (c : Char) : Bool :=
  c.isDigit || (decide ('a' ≤ c) && decide (c ≤ 'f')) || (decide ('A' ≤ c) && decide (c ≤ 'F'))

def hexValue (c : Char) : Nat :=
  if c.isDigit then digitValue c
  else if decide ('a' ≤ c) then c.toNat - 'a'.toNat + 10
  else c.toNat - 'A'.toNat + 10

def hexDigitsValue (digits : List Char) : Nat :=
  digits.foldl (fun value digit => 16 * value + hexValue digit) 0

end RobotConsole.Text
