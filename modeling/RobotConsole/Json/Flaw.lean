import RobotConsole.Text.Decimal

/-!
# Flaws of JSON texts

A flaw is the first thing that keeps a text from being a JSON value, and the place where it was
noticed.  Places count lines from one and bytes of the UTF-8 form within a line.
-/

set_option autoImplicit false

namespace RobotConsole.Json

inductive Flaw where
  | endInValue
  | endInList
  | endInObject
  | endInString
  | noValue
  | badLiteral
  | badNumber
  | numberTooLarge
  | badEscape
  | controlInString
  | loneHighSurrogate
  | misplacedSurrogate
  | noColon
  | noListSeparator
  | noObjectSeparator
  | trailingComma
  | keyNotString
  | tooDeep
  | trailingText
  deriving DecidableEq, Repr

namespace Flaw

def message : Flaw → String
  | .endInValue => "EOF while parsing a value"
  | .endInList => "EOF while parsing a list"
  | .endInObject => "EOF while parsing an object"
  | .endInString => "EOF while parsing a string"
  | .noValue => "expected value"
  | .badLiteral => "expected ident"
  | .badNumber => "invalid number"
  | .numberTooLarge => "number out of range"
  | .badEscape => "invalid escape"
  | .controlInString => "control character (\\u0000-\\u001F) found while parsing a string"
  | .loneHighSurrogate => "unexpected end of hex escape"
  | .misplacedSurrogate => "lone leading surrogate in hex escape"
  | .noColon => "expected \x60:\x60"
  | .noListSeparator => "expected \x60,\x60 or \x60]\x60"
  | .noObjectSeparator => "expected \x60,\x60 or \x60\x7d\x60"
  | .trailingComma => "trailing comma"
  | .keyNotString => "key must be a string"
  | .tooDeep => "recursion limit exceeded"
  | .trailingText => "trailing characters"

end Flaw

/-- A place in a text: the line, from one, and the count of bytes before the place in that line. -/
structure Position where
  line : Nat
  column : Nat
  deriving DecidableEq, Repr

namespace Position

def step (position : Position) (byte : UInt8) : Position :=
  if byte = 0x0A then ⟨position.line + 1, 0⟩ else ⟨position.line, position.column + 1⟩

def after (bytes : List UInt8) : Position :=
  bytes.foldl step ⟨1, 0⟩

end Position

structure SyntaxFault where
  flaw : Flaw
  position : Position
  deriving DecidableEq, Repr

namespace SyntaxFault

def message (fault : SyntaxFault) : String :=
  fault.flaw.message ++ " at line " ++ Text.natText fault.position.line ++ " column " ++
    Text.natText fault.position.column

end SyntaxFault

end RobotConsole.Json
