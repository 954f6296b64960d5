import RobotConsole.Double

/-!
# JSON values

Whole numbers that fit in 64 bits, signed or unsigned, stay whole; every other number is a double.
The members of an object that was read stand in ascending order of their keys, each key once.
-/

set_option autoImplicit false

namespace RobotConsole

inductive Json where
  | null
  | boolean (truth : Bool)
  | integer (number : Int)
  | double (number : Double)
  | string (text : String)
  | array (items : List Json)
  | object (members : List (String × Json))
  deriving Repr, Inhabited

namespace Json

def insertMember (key : String) (value : Json) : List (String × Json) → List (String × Json)
  | [] => [(key, value)]
  | (held, before) :: rest =>
      if key < held then (key, value) :: (held, before) :: rest
      else if key = held then (key, value) :: rest
      else (held, before) :: insertMember key value rest

/-- The members as a reader keeps them: sorted by key, the last of equal keys winning. -/
def sortMembers (members : List (String × Json)) : List (String × Json) :=
  members.foldl (fun sorted member => insertMember member.1 member.2 sorted) []

def member? (value : Json) (key : String) : Option Json :=
  match value with
  | .object members => (members.find? fun member => member.1 == key).map Prod.snd
  | _ => none

end Json

end RobotConsole
