import RobotConsole.Json.Flaw
import RobotConsole.Json.Value

/-!
# Reading JSON

The reader works on the characters of a text and hands on the rest after what it has read.  Where it
stops, it tells the flaw, the rest of the text at that point, and how many bytes into that rest the
flaw lies; the place in the whole text follows from these.  Arrays and objects may be nested 127
deep.

Numbers are read digit by digit into a significand of 64 bits; digits that no longer fit only count
as places.
-/

set_option autoImplicit false

namespace RobotConsole.Json

/-- A flaw, noticed `bytes` bytes into the rest of the text. -/
structure Stop where
  flaw : Flaw
  rest : List Char
  bytes : Nat
  deriving DecidableEq, Repr

abbrev Reading (α : Type) := Except Stop (α × List Char)

def stopAt {α : Type} (flaw : Flaw) (rest : List Char) : Except Stop α :=
  .error ⟨flaw, rest, 0⟩

/-- The flaw is the first byte of the rest, which counts as read; at the end of the text there is
none to count. -/
def stopPast {α : Type} (flaw : Flaw) (rest : List Char) : Except Stop α :=
  .error ⟨flaw, rest, 1⟩

def isSpace (c : Char) : Bool :=
  c == ' ' || c == '\n' || c == '\t' || c == '\r'

def skipSpace (cs : List Char) : List Char :=
  cs.dropWhile isSpace

/-! ## Strings -/

def utf8Length (cs : List Char) : Nat :=
  cs.foldl (fun length c => length + c.utf8Size) 0

/-- Four hexadecimal digits.  Fewer than four bytes end the text; other characters are a bad escape
of four bytes. -/
def readFourDigits (cs : List Char) : Reading Nat :=
  if utf8Length cs < 4 then .error ⟨.endInString, [], 0⟩
  else
    let digits := cs.take 4
    if digits.all Text.isHexDigit then .ok (Text.hexDigitsValue digits, cs.drop 4)
    else .error ⟨.badEscape, cs, 4⟩

/-- The character of an escape by number, after the letter `u`.  A high surrogate must be followed
by an escaped low one. -/
def readNumberedChar (cs : List Char) : Reading Char :=
  match readFourDigits cs with
  | .error stop => .error stop
  | .ok (high, rest) =>
      if 0xDC00 ≤ high ∧ high ≤ 0xDFFF then stopAt .misplacedSurrogate rest
      else if high < 0xD800 ∨ 0xDBFF < high then .ok (Char.ofNat high, rest)
      else
        match rest with
        | [] => stopAt .endInString []
        | c :: afterSlash =>
            if c ≠ '\\' then stopPast .loneHighSurrogate rest
            else
              match afterSlash with
              | [] => stopAt .endInString []
              | d :: afterLetter =>
                  if d ≠ 'u' then stopPast .loneHighSurrogate afterSlash
                  else
                    match readFourDigits afterLetter with
                    | .error stop => .error stop
                    | .ok (low, rest) =>
                        if low < 0xDC00 ∨ 0xDFFF < low then stopAt .misplacedSurrogate rest
                        else .ok (Char.ofNat (0x10000 + (high - 0xD800) * 0x400 + (low - 0xDC00)),
                          rest)

def escapedChar? : Char → Option Char
  | '"' => some '"'
  | '\\' => some '\\'
  | '/' => some '/'
  | 'b' => some '\x08'
  | 'f' => some '\x0C'
  | 'n' => some '\n'
  | 'r' => some '\r'
  | 't' => some '\t'
  | _ => none

def readEscape (cs : List Char) : Reading Char :=
  match cs with
  | [] => stopAt .endInString []
  | c :: rest =>
      if c = 'u' then readNumberedChar rest
      else
        match escapedChar? c with
        | some escaped => .ok (escaped, rest)
        | none => stopPast .badEscape cs

/-- The characters of a string after its opening quote, up to and past the closing one.  Each round
takes at least one character, so a fuel as large as the text suffices. -/
def readStringChars : Nat → List Char → Reading (List Char)
  | 0, _ => stopAt .endInString []
  | _ + 1, [] => stopAt .endInString []
  | fuel + 1, c :: rest =>
      if c = '"' then .ok ([], rest)
      else if c = '\\' then
        match readEscape rest with
        | .error stop => .error stop
        | .ok (escaped, rest) =>
            match readStringChars fuel rest with
            | .error stop => .error stop
            | .ok (chars, rest) => .ok (escaped :: chars, rest)
      else if c.toNat < 0x20 then stopPast .controlInString (c :: rest)
      else
        match readStringChars fuel rest with
        | .error stop => .error stop
        | .ok (chars, rest) => .ok (c :: chars, rest)

def readString (cs : List Char) : Reading String :=
  match readStringChars (cs.length + 1) cs with
  | .error stop => .error stop
  | .ok (chars, rest) => .ok (String.ofList chars, rest)

/-! ## Numbers -/

def significandBound : Nat := 0x10000000000000000

def exponentBound : Nat := 0x7FFFFFFF

/-- A significand and the digits that still fit into it; the count tells how many digits went in. -/
def takeDigits (significand : Nat) : List Char → Nat × Nat × List Char
  | [] => (significand, 0, [])
  | c :: rest =>
      if c.isDigit ∧ significand * 10 + Text.digitValue c < significandBound then
        let (total, count, rest) := takeDigits (significand * 10 + Text.digitValue c) rest
        (total, count + 1, rest)
      else (significand, 0, c :: rest)

def startsWithDigit : List Char → Bool
  | [] => false
  | c :: _ => c.isDigit

def makeDouble (negative : Bool) (significand : Nat) (exponent : Int) (rest : List Char) :
    Reading Json :=
  match Double.scale significand exponent with
  | some units => .ok (.double ⟨negative, units⟩, rest)
  | none => stopAt .numberTooLarge rest

/-- Exponent digits; `none` once they exceed the bound, with the rest after the digit that did. -/
def takeExponent (exponent : Nat) : List Char → Option Nat × List Char
  | [] => (some exponent, [])
  | c :: rest =>
      if c.isDigit then
        if exponent * 10 + Text.digitValue c ≤ exponentBound then
          takeExponent (exponent * 10 + Text.digitValue c) rest
        else (none, rest)
      else (some exponent, c :: rest)

def readExponent (negative : Bool) (significand : Nat) (start : Int) (cs : List Char) :
    Reading Json :=
  let (down, digits) :=
    match cs with
    | '+' :: rest => (false, rest)
    | '-' :: rest => (true, rest)
    | _ => (false, cs)
  match digits with
  | [] => stopAt .endInValue []
  | c :: rest =>
      if c.isDigit then
        match takeExponent (Text.digitValue c) rest with
        | (some exponent, rest) =>
            makeDouble negative significand
              (if down then start - exponent else start + exponent) rest
        | (none, rest) =>
            if significand ≠ 0 ∧ down = false then stopAt .numberTooLarge rest
            else .ok (.double ⟨negative, 0⟩, rest.dropWhile Char.isDigit)
      else stopPast .badNumber digits

def isExponentLetter (c : Char) : Bool :=
  c == 'e' || c == 'E'

def readTail (negative : Bool) (significand : Nat) (exponent : Int) (cs : List Char) :
    Reading Json :=
  match cs with
  | [] => makeDouble negative significand exponent []
  | c :: rest =>
      if isExponentLetter c then readExponent negative significand exponent rest
      else makeDouble negative significand exponent cs

/-- The part of a number after its point; `start` is the power of ten of the last digit before
it. -/
def readFraction (negative : Bool) (significand : Nat) (start : Int) (cs : List Char) :
    Reading Json :=
  let (total, count, rest) := takeDigits significand cs
  if startsWithDigit rest then
    readTail negative total (start - count) (rest.dropWhile Char.isDigit)
  else if count = 0 then
    match rest with
    | [] => stopAt .endInValue []
    | _ => stopPast .badNumber rest
  else readTail negative total (start - count) rest

/-- A number whose digits overflow the significand: those that follow only count. -/
def readLongNumber (negative : Bool) (significand : Nat) (cs : List Char) : Reading Json :=
  let dropped := (cs.takeWhile Char.isDigit).length
  match cs.dropWhile Char.isDigit with
  | '.' :: rest => readFraction negative significand dropped rest
  | rest => readTail negative significand dropped rest

/-- A whole number within 64 bits.  Minus zero, and a magnitude beyond the signed range after a
minus, are doubles. -/
def makeInteger (negative : Bool) (significand : Nat) : Json :=
  if negative then
    if significand = 0 ∨ 0x8000000000000000 < significand
      then .double ⟨true, Double.ofWhole significand⟩
    else .integer (-(significand : Int))
  else .integer significand

def readAfterDigits (negative : Bool) (significand : Nat) (cs : List Char) : Reading Json :=
  match cs with
  | [] => .ok (makeInteger negative significand, [])
  | c :: rest =>
      if c = '.' then readFraction negative significand 0 rest
      else if isExponentLetter c then readExponent negative significand 0 rest
      else .ok (makeInteger negative significand, cs)

def readNumber (negative : Bool) (cs : List Char) : Reading Json :=
  match cs with
  | [] => stopAt .endInValue []
  | c :: rest =>
      if c = '0' then
        if startsWithDigit rest then stopPast .badNumber rest else readAfterDigits negative 0 rest
      else if c.isDigit then
        let (total, _, rest) := takeDigits (Text.digitValue c) rest
        if startsWithDigit rest then readLongNumber negative total rest
        else readAfterDigits negative total rest
      else stopPast .badNumber cs

/-! ## Values -/

def readLiteral (value : Json) : List Char → List Char → Reading Json
  | [], cs => .ok (value, cs)
  | _ :: _, [] => stopAt .endInValue []
  | letter :: letters, c :: rest =>
      if c = letter then readLiteral value letters rest else stopPast .badLiteral (c :: rest)

/-- How deep arrays and objects may be nested, plus one. -/
def depthLimit : Nat := 128

mutual

/-- One value, behind any space.  `depth` bounds the nesting that is left; `fuel` bounds the
steps. -/
def readValue (fuel depth : Nat) (cs : List Char) : Reading Json :=
  match fuel with
  | 0 => stopAt .endInValue []
  | fuel + 1 =>
      match skipSpace cs with
      | [] => stopAt .endInValue []
      | c :: rest =>
          if c = 'n' then readLiteral .null ['u', 'l', 'l'] rest
          else if c = 't' then readLiteral (.boolean true) ['r', 'u', 'e'] rest
          else if c = 'f' then readLiteral (.boolean false) ['a', 'l', 's', 'e'] rest
          else if c = '-' then readNumber true rest
          else if c.isDigit then readNumber false (c :: rest)
          else if c = '"' then
            match readString rest with
            | .error stop => .error stop
            | .ok (text, rest) => .ok (.string text, rest)
          else if c = '[' then
            if depth ≤ 1 then stopPast .tooDeep (c :: rest)
            else
              match readItems fuel (depth - 1) true rest with
              | .error stop => .error stop
              | .ok (items, rest) => .ok (.array items, rest)
          else if c = '\x7b' then
            if depth ≤ 1 then stopPast .tooDeep (c :: rest)
            else
              match readMembers fuel (depth - 1) true rest with
              | .error stop => .error stop
              | .ok (members, rest) => .ok (.object (sortMembers members), rest)
          else stopPast .noValue (c :: rest)

/-- The items of an array up to and past its closing bracket; `first` tells that none has been
read. -/
def readItems (fuel depth : Nat) (first : Bool) (cs : List Char) : Reading (List Json) :=
  match fuel with
  | 0 => stopAt .endInList []
  | fuel + 1 =>
      match skipSpace cs with
      | [] => stopAt .endInList []
      | c :: rest =>
          if c = ']' then .ok ([], rest)
          else if first then readItem fuel depth (c :: rest)
          else if c = ',' then
            match skipSpace rest with
            | [] => stopAt .endInValue []
            | d :: afterComma =>
                if d = ']' then stopPast .trailingComma (d :: afterComma)
                else readItem fuel depth (d :: afterComma)
          else stopPast .noListSeparator (c :: rest)

def readItem (fuel depth : Nat) (cs : List Char) : Reading (List Json) :=
  match fuel with
  | 0 => stopAt .endInList []
  | fuel + 1 =>
      match readValue fuel depth cs with
      | .error stop => .error stop
      | .ok (item, rest) =>
          match readItems fuel depth false rest with
          | .error stop => .error stop
          | .ok (items, rest) => .ok (item :: items, rest)

def readMembers (fuel depth : Nat) (first : Bool) (cs : List Char) :
    Reading (List (String × Json)) :=
  match fuel with
  | 0 => stopAt .endInObject []
  | fuel + 1 =>
      match skipSpace cs with
      | [] => stopAt .endInObject []
      | c :: rest =>
          if c = '\x7d' then .ok ([], rest)
          else if first then
            if c = '"' then readMember fuel depth rest else stopPast .keyNotString (c :: rest)
          else if c = ',' then
            match skipSpace rest with
            | [] => stopAt .endInValue []
            | d :: afterComma =>
                if d = '"' then readMember fuel depth afterComma
                else if d = '\x7d' then stopPast .trailingComma (d :: afterComma)
                else stopPast .keyNotString (d :: afterComma)
          else stopPast .noObjectSeparator (c :: rest)

def readMember (fuel depth : Nat) (cs : List Char) : Reading (List (String × Json)) :=
  match fuel with
  | 0 => stopAt .endInObject []
  | fuel + 1 =>
      match readString cs with
      | .error stop => .error stop
      | .ok (key, rest) =>
          match skipSpace rest with
          | [] => stopAt .endInObject []
          | c :: afterColon =>
              if c = ':' then
                match readValue fuel depth afterColon with
                | .error stop => .error stop
                | .ok (value, rest) =>
                    match readMembers fuel depth false rest with
                    | .error stop => .error stop
                    | .ok (members, rest) => .ok ((key, value) :: members, rest)
              else stopPast .noColon (c :: afterColon)

end

def readText (cs : List Char) : Except Stop Json :=
  match readValue (3 * cs.length + 3) depthLimit cs with
  | .error stop => .error stop
  | .ok (value, rest) =>
      match skipSpace rest with
      | [] => .ok value
      | left => stopPast .trailingText left

def Stop.position (stop : Stop) (text : String) : Position :=
  let bytes := text.toUTF8.toList
  let restBytes := utf8Length stop.rest
  Position.after (bytes.take (bytes.length - restBytes + stop.bytes))

def read (text : String) : Except SyntaxFault Json :=
  match readText text.toList with
  | .ok value => .ok value
  | .error stop => .error ⟨stop.flaw, stop.position text⟩

end RobotConsole.Json
