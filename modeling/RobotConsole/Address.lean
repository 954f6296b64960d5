import RobotConsole.Text.Blank

/-!
# Addresses

Urls are joined as texts.  Between two joined parts stands exactly one slash, however many slashes
end the first or begin the second, and an address is kept without slashes at its end.
-/

set_option autoImplicit false

namespace RobotConsole.Address

def isSlash (c : Char) : Bool :=
  c == '/'

def stemChars (url : List Char) : List Char :=
  Text.dropEndWhile isSlash url

def stem (url : String) : String :=
  String.ofList (stemChars url.toList)

def joinChars (base relative : List Char) : List Char :=
  stemChars base ++ '/' :: relative.dropWhile isSlash

/-- The address of `relative` under `base`. -/
def join (base relative : String) : String :=
  String.ofList (joinChars base.toList relative.toList)

end RobotConsole.Address
