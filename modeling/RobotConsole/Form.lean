/-!
# Form parameters

A form binds keys to lists of values.  Keys keep the order in which they were first bound, even to
no value at all, and binding a key again adds to its values.  What a form holds for a reader is its
list of pairs.
-/

set_option autoImplicit false

namespace RobotConsole

structure Form where
  bindings : List (String × List String)
  deriving DecidableEq, Repr

namespace Form

def empty : Form := ⟨[]⟩

def bindIn (key : String) (values : List String) :
    List (String × List String) → List (String × List String)
  | [] => [(key, values)]
  | (held, before) :: rest =>
      if held = key then (held, before ++ values) :: rest
      else (held, before) :: bindIn key values rest

def bindAll (form : Form) (key : String) (values : List String) : Form :=
  ⟨bindIn key values form.bindings⟩

def bind (form : Form) (key value : String) : Form :=
  form.bindAll key [value]

def keys (form : Form) : List String :=
  form.bindings.map Prod.fst

/-- One pair for each value, key by key. -/
def pairs (form : Form) : List (String × String) :=
  form.bindings.flatMap fun binding => binding.2.map fun value => (binding.1, value)

end Form

end RobotConsole
