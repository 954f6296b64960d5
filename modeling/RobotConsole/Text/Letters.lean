/-!
# Comparing texts without regard to ASCII case

Only the letters `A` to `Z` are folded; every other character is compared as it is, so `É` and `é`
differ.
-/

set_option autoImplicit false

namespace RobotConsole.Text

def foldLetters (text : String) : List Char :=
  text.toList.map Char.toLower

def sameLetters (left right : String) : Bool :=
  foldLetters left == foldLetters right

theorem sameLetters_iff (left right : String) :
    sameLetters left right = true ↔ foldLetters left = foldLetters right := by
  simp [sameLetters]

end RobotConsole.Text
