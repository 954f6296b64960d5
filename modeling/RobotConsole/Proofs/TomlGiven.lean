import RobotConsole.Proofs.TomlLines

/-!
# What a TOML document gives under a name

Settings are made of texts and whole numbers.  A document gives one under a name of its outermost
table by a pair before all headers; by a dotted key or a header it gives a table there.  What it
gives is what is read from it, if it can be read at all, however the document goes on.
-/

set_option autoImplicit false

namespace RobotConsole.Toml

/-! ## Forms -/

/-- What settings are made of: texts and whole numbers.  Of all else only its presence counts. -/
inductive Content where
  | text (text : String)
  | whole (number : Int)
  | other

def Item.content : Item → Content
  | .text words => .text words
  | .whole number => .whole number
  | _ => .other

end RobotConsole.Toml
