import RobotConsole.Text.Decimal
import RobotConsole.Text.Unmarked

/-!
# Quoted texts and quoted lists

A quoted text stands between double quotes.  Quote and backslash get a backslash in front; NUL, tab,
carriage return and line feed have a letter each; every other unmarked character is shown by its
number in braces; all else stands for itself, the apostrophe too.  A quoted list puts its members
between brackets, with a comma and a space between two of them.
-/

set_option autoImplicit false

namespace RobotConsole.Text

/-- The characters that one character of a text becomes between the quotes. -/
def quoteChar (c : Char) : List Char :=
  if c = '\x00' then ['\\', '0']
  else if c = '\t' then ['\\', 't']
  else if c = '\r' then ['\\', 'r']
  else if c = '\n' then ['\\', 'n']
  else if c = '"' then ['\\', '"']
  else if c = '\\' then ['\\', '\\']
  else if isUnmarked c then ['\\', 'u', '\x7b'] ++ Nat.toDigits 16 c.toNat ++ ['\x7d']
  else [c]

def quoteChars (cs : List Char) : List Char :=
  ['"'] ++ cs.flatMap quoteChar ++ ['"']

def quote (text : String) : String :=
  String.ofList (quoteChars text.toList)

def quoteRest : List String → List Char
  | [] => []
  | text :: rest => [',', ' '] ++ quoteChars text.toList ++ quoteRest rest

def quoteListChars : List String → List Char
  | [] => ['[', ']']
  | text :: rest => ['['] ++ quoteChars text.toList ++ quoteRest rest ++ [']']

def quoteList (texts : List String) : String :=
  String.ofList (quoteListChars texts)

end RobotConsole.Text
