import RobotConsole.Json.Value

/-!
# Writing JSON

A value is written over several lines: each item of an array and each member of an object has a line
of its own, two spaces further in than the brackets, and empty brackets stay together.  In strings
the quote, the backslash and the controls below the space are escaped; all else stands for itself.
-/

set_option autoImplicit false

namespace RobotConsole.Json

def escapeChar (c : Char) : List Char :=
  if c = '"' then ['\\', '"']
  else if c = '\\' then ['\\', '\\']
  else if c = '\x08' then ['\\', 'b']
  else if c = '\x0C' then ['\\', 'f']
  else if c = '\n' then ['\\', 'n']
  else if c = '\r' then ['\\', 'r']
  else if c = '\t' then ['\\', 't']
  else if c.toNat < 0x20 then ['\\', 'u', '0', '0'] ++
    [Nat.digitChar (c.toNat / 16), Nat.digitChar (c.toNat % 16)]
  else [c]

def stringChars (text : String) : List Char :=
  '"' :: (text.toList.flatMap escapeChar ++ ['"'])

def newLine (depth : Nat) : List Char :=
  '\n' :: List.replicate (2 * depth) ' '

mutual

/-- A value whose brackets stand at a nesting depth. -/
def prettyChars (depth : Nat) : Json → List Char
  | .null => ['n', 'u', 'l', 'l']
  | .boolean true => ['t', 'r', 'u', 'e']
  | .boolean false => ['f', 'a', 'l', 's', 'e']
  | .integer number => (Text.intText number).toList
  | .double number => number.text.toList
  | .string text => stringChars text
  | .array [] => ['[', ']']
  | .array (item :: rest) =>
      '[' :: (newLine (depth + 1) ++ prettyChars (depth + 1) item ++ prettyItems depth rest ++
        newLine depth ++ [']'])
  | .object [] => ['\x7b', '\x7d']
  | .object ((key, value) :: rest) =>
      '\x7b' :: (newLine (depth + 1) ++ stringChars key ++ [':', ' '] ++ prettyChars
        (depth + 1) value ++ prettyMembers depth rest ++ newLine depth ++ ['\x7d'])

def prettyItems (depth : Nat) : List Json → List Char
  | [] => []
  | item :: rest => ',' :: (newLine (depth + 1) ++ prettyChars (depth + 1) item ++
      prettyItems depth rest)

def prettyMembers (depth : Nat) : List (String × Json) → List Char
  | [] => []
  | (key, value) :: rest =>
      ',' :: (newLine (depth + 1) ++ stringChars key ++ [':', ' '] ++ prettyChars (depth + 1) value
        ++ prettyMembers depth rest)

end

def pretty (value : Json) : String :=
  String.ofList (prettyChars 0 value)

end RobotConsole.Json
