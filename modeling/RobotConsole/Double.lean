import RobotConsole.Text.Blank
import RobotConsole.Text.Decimal

/-!
# Double-precision numbers

Every finite double is a whole multiple of two to the power -1074, so its magnitude is kept as that
multiple.  A rational number is rounded to the nearest double, and to the even one of two that are
equally near; a magnitude at or above `limit` is beyond the finite doubles.

`scale` turns decimal digits and a power of ten into a double by one rounded product or quotient
with a rounded power of ten, which is not always the nearest double.  `shortest` finds the fewest
digits that are nearer to a double than to any other, and of those the nearest to it.
-/

set_option autoImplicit false

namespace RobotConsole

structure Double where
  negative : Bool
  units : Nat
  deriving DecidableEq, Repr

namespace Double

def one : Nat := Nat.pow 2 1074

/-- The least magnitude beyond the finite doubles. -/
def limit : Nat := Nat.pow 2 2098

/-- The nearest whole number to a quotient, the even one of two. -/
def roundQuotient (numerator denominator : Nat) : Nat :=
  let whole := numerator / denominator
  let twice := 2 * (numerator % denominator)
  if twice < denominator then whole
  else if denominator < twice then whole + 1
  else whole + whole % 2

/-- The nearest magnitude of 53 significant bits to a quotient of units. -/
def round (numerator denominator : Nat) : Nat :=
  let step := Nat.pow 2 ((numerator / denominator).log2 - 52)
  roundQuotient numerator (denominator * step) * step

def ofWhole (number : Nat) : Nat :=
  round (number * one) 1

def tenPower (exponent : Nat) : Nat :=
  ofWhole (Nat.pow 10 exponent)

def product (left right : Nat) : Nat :=
  round (left * right) one

def quotient (left right : Nat) : Nat :=
  round (left * one) right

def largestPower : Nat := 308

/-- Division by a power of ten, in steps that each divide by the largest power at most. -/
def divideByTens (magnitude places : Nat) : Nat :=
  if places ≤ largestPower then quotient magnitude (tenPower places)
  else if magnitude = 0 then 0
  else divideByTens (quotient magnitude (tenPower largestPower)) (places - largestPower)
termination_by places
decreasing_by simp only [largestPower] at *; omega

def scale (digits : Nat) (exponent : Int) : Option Nat :=
  let magnitude := ofWhole digits
  if exponent < 0 then some (divideByTens magnitude exponent.natAbs)
  else if exponent ≤ largestPower then
    let scaled := product magnitude (tenPower exponent.toNat)
    if scaled < limit then some scaled else none
  else if magnitude = 0 then some 0
  else none

/-- The power of two by which the last significant bit of a magnitude exceeds one unit. -/
def lastBit (units : Nat) : Nat :=
  units.log2 - 52

def bits (double : Double) : Nat :=
  let magnitude :=
    if double.units < 0x10000000000000 then double.units
    else lastBit double.units * 0x10000000000000 + double.units / Nat.pow 2 (lastBit double.units)
  if double.negative then 0x8000000000000000 + magnitude else magnitude

def bitsText (double : Double) : String :=
  let digits := Nat.toDigits 16 double.bits
  String.ofList (List.replicate (16 - digits.length) '0' ++ digits)

structure Digits where
  digits : Nat
  exponent : Int
  deriving DecidableEq, Repr

/-- How often a magnitude below one has to be multiplied by ten to reach one; `fuel` bounds the
search. -/
def placesToOne : Nat → Nat → Nat
  | 0, _ => 0
  | fuel + 1, units => if one ≤ units then 0 else placesToOne fuel (10 * units) + 1

def firstPlace (units : Nat) : Int :=
  if one ≤ units then (Text.natDigits (units / one)).length - 1
  else -(placesToOne 330 units : Int)

/-- Whether `digits` at a power of ten lie nearer to the magnitude than to its neighbours; a
midpoint counts when the last bit of the magnitude is even. -/
def isNearest (units : Nat) (candidate : Digits) : Bool :=
  let step := Nat.pow 2 (lastBit units)
  let even := units / step % 2 == 0
  let narrow := units / step == 0x10000000000000 && decide (1 < step)
  let scaleUp := Nat.pow 10 candidate.exponent.toNat
  let scaleDown := Nat.pow 10 (-candidate.exponent).toNat
  let place := 4 * one * candidate.digits * scaleUp
  let low := (4 * units - (if narrow then step else 2 * step)) * scaleDown
  let high := (4 * units + 2 * step) * scaleDown
  if even then decide (low ≤ place) && decide (place ≤ high)
  else decide (low < place) && decide (place < high)

/-- The two decimal neighbours of a magnitude at a power of ten, and whether the upper one is
nearer; the even one of two that are equally near. -/
def neighbours (units : Nat) (exponent : Int) : Digits × Digits × Bool :=
  let numerator := units * Nat.pow 10 (-exponent).toNat
  let denominator := one * Nat.pow 10 exponent.toNat
  let below := numerator / denominator
  (⟨below, exponent⟩, ⟨below + 1, exponent⟩, roundQuotient numerator denominator == below + 1)

def shortestFrom (units : Nat) : Nat → Int → Digits
  | 0, exponent => (neighbours units exponent).1
  | fuel + 1, exponent =>
      let (below, above, upper) := neighbours units exponent
      match isNearest units below, isNearest units above with
      | true, true => if upper then above else below
      | true, false => below
      | false, true => above
      | false, false => shortestFrom units fuel (exponent - 1)

/-- The shortest digits of a positive magnitude; seventeen always suffice. -/
def shortest (units : Nat) : Digits :=
  shortestFrom units 17 (firstPlace units)

def pointed : List Char → List Char
  | [] => []
  | [digit] => [digit]
  | digit :: rest => digit :: '.' :: rest

def positional (digits : List Char) (place : Int) : List Char :=
  if place < 0 then
    ['0', '.'] ++ List.replicate (place.natAbs - 1) '0' ++ digits
  else
    let front := place.toNat + 1
    let whole := digits.take front ++ List.replicate (front - digits.length) '0'
    let fraction := digits.drop front
    whole ++ ['.'] ++ (if fraction.isEmpty then ['0'] else fraction)

def scientific (digits : List Char) (place : Int) : List Char :=
  pointed digits ++ ['e', if place < 0 then '-' else '+'] ++ Text.natDigits place.natAbs

/-- A magnitude in its shortest digits: around a point when the first digit stands at the powers -5
to 15 of ten, and with an exponent otherwise. -/
def magnitudeChars (units : Nat) : List Char :=
  if units = 0 then ['0', '.', '0']
  else
    let found := shortest units
    let written := Text.natDigits found.digits
    let place := found.exponent + (written.length - 1 : Nat)
    let digits := Text.dropEndWhile (· == '0') written
    if -5 ≤ place ∧ place ≤ 15 then positional digits place else scientific digits place

def text (double : Double) : String :=
  String.ofList ((if double.negative then ['-'] else []) ++ magnitudeChars double.units)

end Double

end RobotConsole
