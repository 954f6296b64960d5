import RobotConsole.Double
import RobotConsole.Toml.Item

/-!
# Texts, numbers and dates in TOML

Each reader takes the characters of a text and returns what it has read with the rest, or nothing
where the text is no such thing.  A line break is a line feed, with or without a carriage return
before it, and is a line feed in the value of a text.  Whole numbers fit in 64 bits with a sign.
Numbers with a fraction or an exponent are checked for form and, if positive, for size.
-/

set_option autoImplicit false

namespace RobotConsole.Toml

abbrev Reading (α : Type) := Option (α × List Char)

def isGap (c : Char) : Bool :=
  c == ' ' || c == '\t'

def skipGaps (cs : List Char) : List Char :=
  cs.dropWhile isGap

def afterBreak? : List Char → Option (List Char)
  | '\n' :: rest => some rest
  | '\r' :: '\n' :: rest => some rest
  | _ => none

def isLineChar (c : Char) : Bool :=
  c == '\t' || (decide (0x20 ≤ c.toNat) && c.toNat != 0x7F)

def expect (expected cs : List Char) : Option (List Char) :=
  if expected.isPrefixOf cs then some (cs.drop expected.length) else none

/-! ## Texts -/

def readNumberedChar (count : Nat) (cs : List Char) : Reading Char :=
  let digits := cs.take count
  let number := Text.hexDigitsValue digits
  if digits.length = count ∧ digits.all Text.isHexDigit ∧ number.isValidChar then
    some (Char.ofNat number, cs.drop count)
  else none

def readEscape : List Char → Reading Char
  | 'b' :: rest => some ('\x08', rest)
  | 't' :: rest => some ('\t', rest)
  | 'n' :: rest => some ('\n', rest)
  | 'f' :: rest => some ('\x0C', rest)
  | 'r' :: rest => some ('\r', rest)
  | '"' :: rest => some ('"', rest)
  | '\\' :: rest => some ('\\', rest)
  | 'u' :: rest => readNumberedChar 4 rest
  | 'U' :: rest => readNumberedChar 8 rest
  | _ => none

/-- A text between double quotes on one line, after the opening one; the fuel counts its
characters. -/
def readBasic : Nat → List Char → Reading (List Char)
  | 0, _ => none
  | _ + 1, [] => none
  | fuel + 1, c :: rest =>
      if c = '"' then some ([], rest)
      else if c = '\\' then
        match readEscape rest with
        | none => none
        | some (escaped, rest) => (readBasic fuel rest).map fun (chars, rest) =>
            (escaped :: chars, rest)
      else if isLineChar c then (readBasic fuel rest).map fun (chars, rest) => (c :: chars, rest)
      else none

def readLiteral : List Char → Reading (List Char)
  | [] => none
  | c :: rest =>
      if c = '\x27' then some ([], rest)
      else if isLineChar c then (readLiteral rest).map fun (chars, rest) => (c :: chars, rest)
      else none

def skipGapsAndBreaks : Nat → List Char → List Char
  | 0, cs => cs
  | fuel + 1, cs =>
      match afterBreak? cs with
      | some rest => skipGapsAndBreaks fuel rest
      | none =>
          match cs with
          | c :: rest => if isGap c then skipGapsAndBreaks fuel rest else cs
          | [] => []

/-- The end of a text over several lines, where a run of quotes begins.  Fewer than three belong to
the text, three close it, and up to two more before those belong to it. -/
inductive Closing where
  | inside
  | closed (extra : Nat)
  | overrun

def closingOf (mark : Char) (cs : List Char) : Closing :=
  let run := (cs.takeWhile (· == mark)).length
  if run < 3 then .inside
  else if run ≤ 5 then .closed (run - 3)
  else .overrun

/-- A text over several lines, after the three marks that open it.  With `escapes`, a backslash
starts an escape, or joins the next line to this one. -/
def readLines (mark : Char) (escapes : Bool) : Nat → List Char → Reading (List Char)
  | 0, _ => none
  | _ + 1, [] => none
  | fuel + 1, c :: rest =>
      if c = mark then
        match closingOf mark (c :: rest) with
        | .inside => (readLines mark escapes fuel rest).map fun (chars, rest) => (c :: chars, rest)
        | .closed extra => some (List.replicate extra mark, rest.drop (extra + 2))
        | .overrun => none
      else if escapes && c == '\\' then
        match afterBreak? (skipGaps rest) with
        | some rest => readLines mark escapes fuel (skipGapsAndBreaks rest.length rest)
        | none =>
            match readEscape rest with
            | none => none
            | some (escaped, rest) =>
                (readLines mark escapes fuel rest).map fun (chars, rest) => (escaped :: chars, rest)
      else
        match afterBreak? (c :: rest) with
        | some rest => (readLines mark escapes fuel rest).map fun (chars, rest) =>
            ('\n' :: chars, rest)
        | none =>
            if isLineChar c then (readLines mark escapes fuel rest).map fun (chars, rest) =>
              (c :: chars, rest)
            else none

def dropFirstBreak (cs : List Char) : List Char :=
  (afterBreak? cs).getD cs

def readText : List Char → Reading String
  | '"' :: '"' :: '"' :: rest =>
      let rest := dropFirstBreak rest
      (readLines '"' true (rest.length + 1) rest).map fun (chars, rest) =>
        (String.ofList chars, rest)
  | '\x27' :: '\x27' :: '\x27' :: rest =>
      let rest := dropFirstBreak rest
      (readLines '\x27' false (rest.length + 1) rest).map fun (chars, rest) =>
        (String.ofList chars, rest)
  | '"' :: rest => (readBasic (rest.length + 1) rest).map fun (chars, rest) =>
      (String.ofList chars, rest)
  | '\x27' :: rest => (readLiteral rest).map fun (chars, rest) => (String.ofList chars, rest)
  | _ => none

/-! ## Numbers -/

def moreDigits (isDigit : Char → Bool) : List Char → Reading (List Char)
  | [] => some ([], [])
  | '_' :: c :: rest =>
      if isDigit c then (moreDigits isDigit rest).map fun (digits, rest) => (c :: digits, rest)
        else none
  | c :: rest =>
      if isDigit c then (moreDigits isDigit rest).map fun (digits, rest) => (c :: digits, rest)
      else if c = '_' then none
      else some ([], c :: rest)

def readDigits (isDigit : Char → Bool) : List Char → Reading (List Char)
  | [] => none
  | c :: rest =>
      if isDigit c then (moreDigits isDigit rest).map fun (digits, rest) => (c :: digits, rest)
        else none

def digitsIn (radix : Nat) (digits : List Char) : Nat :=
  digits.foldl (fun value digit => radix * value + Text.hexValue digit) 0

def isOctalDigit (c : Char) : Bool :=
  decide ('0' ≤ c) && decide (c ≤ '7')

def isBinaryDigit (c : Char) : Bool :=
  c == '0' || c == '1'

def wholeMax : Int := 0x7FFFFFFFFFFFFFFF

def wholeMin : Int := -0x8000000000000000

def makeWhole (number : Int) (rest : List Char) : Reading Item :=
  if wholeMin ≤ number ∧ number ≤ wholeMax then some (.whole number, rest) else none

def readRadix (radix : Nat) (isDigit : Char → Bool) (cs : List Char) : Reading Item :=
  match readDigits isDigit cs with
  | none => none
  | some (digits, rest) => makeWhole (digitsIn radix digits) rest

/-- Whether digits times a power of ten are a finite double.  Far away from the limit the count of
places decides. -/
def isFinite (digits : Nat) (exponent : Int) : Bool :=
  let places := (Text.natDigits digits).length + exponent
  if digits = 0 ∨ places < 300 then true
  else if 310 < places then false
  else decide (Double.round (digits * Double.one * Nat.pow 10 exponent.toNat)
    (Nat.pow 10 (-exponent).toNat) < Double.limit)

def makeFloat (negative : Bool) (digits fraction : List Char) (exponent : Int) (rest : List Char) :
    Reading Item :=
  if negative || isFinite (Text.digitsValue (digits ++ fraction)) (exponent - fraction.length) then
    some (.float, rest)
  else none

def readExponent (cs : List Char) : Reading Int :=
  let (down, digits) :=
    match cs with
    | '+' :: rest => (false, rest)
    | '-' :: rest => (true, rest)
    | _ => (false, cs)
  match readDigits Char.isDigit digits with
  | none => none
  | some (digits, rest) =>
      let exponent : Int := Text.digitsValue digits
      some (if down then -exponent else exponent, rest)

def readAfterFraction (negative : Bool) (digits fraction cs : List Char) : Reading Item :=
  match cs with
  | c :: rest =>
      if c = 'e' ∨ c = 'E' then
        match readExponent rest with
        | none => none
        | some (exponent, rest) => makeFloat negative digits fraction exponent rest
      else makeFloat negative digits fraction 0 cs
  | [] => makeFloat negative digits fraction 0 []

def readAfterDigits (negative : Bool) (digits cs : List Char) : Reading Item :=
  match cs with
  | c :: rest =>
      if c = '.' then
        match readDigits Char.isDigit rest with
        | none => none
        | some (fraction, rest) => readAfterFraction negative digits fraction rest
      else if c = 'e' ∨ c = 'E' then readAfterFraction negative digits [] cs
      else makeSigned cs
  | [] => makeSigned []
where
  makeSigned (rest : List Char) : Reading Item :=
    let number : Int := Text.digitsValue digits
    makeWhole (if negative then -number else number) rest

def readDecimal (negative : Bool) (cs : List Char) : Reading Item :=
  match cs with
  | 'i' :: 'n' :: 'f' :: rest => some (.float, rest)
  | 'n' :: 'a' :: 'n' :: rest => some (.float, rest)
  | '0' :: rest => readAfterDigits negative ['0'] rest
  | _ =>
      match readDigits Char.isDigit cs with
      | none => none
      | some (digits, rest) => readAfterDigits negative digits rest

def readNumber : List Char → Reading Item
  | '+' :: rest => readDecimal false rest
  | '-' :: rest => readDecimal true rest
  | '0' :: 'x' :: rest => readRadix 16 Text.isHexDigit rest
  | '0' :: 'o' :: rest => readRadix 8 isOctalDigit rest
  | '0' :: 'b' :: rest => readRadix 2 isBinaryDigit rest
  | cs => readDecimal false cs

/-! ## Dates -/

def readFixed (count : Nat) (cs : List Char) : Reading Nat :=
  let digits := cs.take count
  if digits.length = count ∧ digits.all Char.isDigit
    then some (Text.digitsValue digits, cs.drop count) else none

def readTwo (low high : Nat) (cs : List Char) : Reading Nat :=
  match readFixed 2 cs with
  | some (number, rest) => if low ≤ number ∧ number ≤ high then some (number, rest) else none
  | none => none

def isLeapYear (year : Nat) : Bool :=
  year % 4 == 0 && (year % 100 != 0 || year % 400 == 0)

def daysInMonth (year month : Nat) : Nat :=
  if month = 2 then (if isLeapYear year then 29 else 28)
  else if month = 4 ∨ month = 6 ∨ month = 9 ∨ month = 11 then 30
  else 31

/-- The hour of a time with the colon after it; from there on the text must be a time. -/
def readHour? (cs : List Char) : Option (List Char) :=
  match readTwo 0 23 cs with
  | some (_, ':' :: rest) => some rest
  | _ => none

def readParts (cs : List Char) : Option (List Char) :=
  match cs with
  | '.' :: rest => if (rest.takeWhile Char.isDigit).isEmpty then none
      else some (rest.dropWhile Char.isDigit)
  | _ => some cs

def readMinutes (cs : List Char) : Option (List Char) :=
  match readTwo 0 59 cs with
  | some (_, ':' :: rest) =>
      match readTwo 0 60 rest with
      | some (_, rest) => readParts rest
      | none => none
  | _ => none

def readOffset : List Char → Option (List Char)
  | 'Z' :: rest => some rest
  | 'z' :: rest => some rest
  | '+' :: rest => readDistance rest
  | '-' :: rest => readDistance rest
  | cs => some cs
where
  readDistance (cs : List Char) : Option (List Char) :=
    match readHour? cs with
    | none => none
    | some rest => (readTwo 0 59 rest).map Prod.snd

def readTimeAfterDate (cs : List Char) : Option (List Char) :=
  match cs with
  | c :: rest =>
      if c = 'T' ∨ c = 't' ∨ c = ' ' then
        match readHour? rest with
        | none => some cs
        | some rest => (readMinutes rest).bind readOffset
      else some cs
  | [] => some []

def readMonthAndDay (year : Nat) (cs : List Char) : Option (List Char) :=
  match readTwo 1 12 cs with
  | some (month, '-' :: rest) => (readTwo 1 (daysInMonth year month) rest).map Prod.snd
  | _ => none

/-- What a value that begins with a sign or a digit turns out to be.  Four digits and a hyphen begin
a date, an hour and a colon begin a time; all else is a number. -/
def readNumberOrDate (cs : List Char) : Reading Item :=
  match readFixed 4 cs with
  | some (year, '-' :: rest) =>
      ((readMonthAndDay year rest).bind readTimeAfterDate).map fun rest => (.date, rest)
  | _ =>
      match readHour? cs with
      | some rest => (readMinutes rest).map fun rest => (.date, rest)
      | none => readNumber cs

end RobotConsole.Toml
