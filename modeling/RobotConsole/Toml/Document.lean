import RobotConsole.Toml.Scalar

/-!
# TOML documents

A document is read expression by expression: a key with its value, a header in brackets, or the
header of a list in double brackets, each with a line of its own; blank lines and comments may stand
anywhere between them.  Arrays may run over several lines, tables in braces may not.  Keys have
fewer than 80 parts, and values are nested fewer than 80 deep.
-/

set_option autoImplicit false

namespace RobotConsole.Toml

/-! ## Comments and keys -/

/-- The rest of a line that holds at most a comment, past its break; the last line has none. -/
def endLine (cs : List Char) : Option (List Char) :=
  let rest := skipGaps cs
  let left :=
    match rest with
    | '#' :: comment => comment.dropWhile isLineChar
    | _ => rest
  if left.isEmpty then some [] else afterBreak? left

/-- The rest after blanks, breaks and comments between the items of an array; each round takes a
line. -/
def skipLines : Nat → List Char → Option (List Char)
  | 0, _ => none
  | fuel + 1, cs =>
      match skipGaps cs with
      | '#' :: comment => (afterBreak? (comment.dropWhile isLineChar)).bind (skipLines fuel)
      | '\n' :: rest => skipLines fuel rest
      | '\r' :: rest => (afterBreak? ('\r' :: rest)).bind (skipLines fuel)
      | rest => some rest

def isBareKeyChar (c : Char) : Bool :=
  c.isAlphanum || c == '_' || c == '-'

def readKeyPart : List Char → Reading String
  | '"' :: rest => (readBasic (rest.length + 1) rest).map fun (chars, rest) =>
    (String.ofList chars, rest)
  | '\x27' :: rest => (readLiteral rest).map fun (chars, rest) => (String.ofList chars, rest)
  | cs =>
      let bare := cs.takeWhile isBareKeyChar
      if bare.isEmpty then none else some (String.ofList bare, cs.dropWhile isBareKeyChar)

def readKeyParts : Nat → List Char → Reading (List String)
  | 0, _ => none
  | fuel + 1, cs =>
      match readKeyPart (skipGaps cs) with
      | none => none
      | some (part, rest) =>
          match skipGaps rest with
          | '.' :: rest => (readKeyParts fuel rest).map fun (parts, rest) => (part :: parts, rest)
          | rest => some ([part], rest)

/-- Keys have fewer parts, and values a smaller depth. -/
def nestingLimit : Nat := 80

structure Key where
  path : List String
  last : String
  deriving DecidableEq, Repr

def Key.parts (key : Key) : List String :=
  key.path ++ [key.last]

def readKey (cs : List Char) : Reading Key :=
  match readKeyParts (cs.length + 1) cs with
  | none => none
  | some (parts, rest) =>
      match parts.getLast? with
      | none => none
      | some last => if parts.length < nestingLimit then some (⟨parts.dropLast, last⟩, rest)
          else none

/-! ## Values -/

mutual

def readValue (fuel depth : Nat) (cs : List Char) : Reading Item :=
  match fuel with
  | 0 => none
  | fuel + 1 =>
      match cs with
      | [] => none
      | c :: rest =>
          if c = '"' ∨ c = '\x27' then (readText cs).map fun (text, rest) => (.text text, rest)
          else if c = '[' then
            if depth ≤ 1 then none
            else (readItems fuel (depth - 1) true rest).map fun rest => (.array, rest)
          else if c = '\x7b' then
            if depth ≤ 1 then none
            else (readPairs fuel (depth - 1) true [] rest).map fun (entries, rest) =>
              (.braces entries, rest)
          else if c = 't' then (expect ['t', 'r', 'u', 'e'] cs).map fun rest => (.boolean, rest)
          else if c = 'f' then (expect ['f', 'a', 'l', 's', 'e'] cs).map fun rest =>
            (.boolean, rest)
          else if c = 'i' then (expect ['i', 'n', 'f'] cs).map fun rest => (.float, rest)
          else if c = 'n' then (expect ['n', 'a', 'n'] cs).map fun rest => (.float, rest)
          else if c = '+' ∨ c = '-' ∨ c.isDigit then readNumberOrDate cs
          else none

def readItems (fuel depth : Nat) (first : Bool) (cs : List Char) : Option (List Char) :=
  match fuel with
  | 0 => none
  | fuel + 1 =>
      match skipLines (cs.length + 1) cs with
      | none => none
      | some [] => none
      | some (c :: rest) =>
          if c = ']' then some rest
          else if first then readItem fuel depth (c :: rest)
          else if c = ',' then
            match skipLines (rest.length + 1) rest with
            | some (']' :: rest) => some rest
            | some rest => readItem fuel depth rest
            | none => none
          else none

def readItem (fuel depth : Nat) (cs : List Char) : Option (List Char) :=
  match fuel with
  | 0 => none
  | fuel + 1 =>
      match readValue fuel depth cs with
      | none => none
      | some (_, rest) => readItems fuel depth false rest

/-- The pairs of a table in braces, up to and past its closing brace, added to those read before. -/
def readPairs (fuel depth : Nat) (first : Bool) (entries : Entries) (cs : List Char) :
    Reading Entries :=
  match fuel with
  | 0 => none
  | fuel + 1 =>
      match skipGaps cs with
      | [] => none
      | c :: rest =>
          if c = '\x7d' then some (entries, rest)
          else if first then readPair fuel depth entries (c :: rest)
          else if c = ',' then readPair fuel depth entries rest
          else none

def readPair (fuel depth : Nat) (entries : Entries) (cs : List Char) : Reading Entries :=
  match fuel with
  | 0 => none
  | fuel + 1 =>
      match readKey cs with
      | some (key, '=' :: rest) =>
          match readValue fuel depth (skipGaps rest) with
          | none => none
          | some (item, rest) =>
              match entries.define key.path key.last item with
              | none => none
              | some entries => readPairs fuel depth false entries rest
      | _ => none

end

def readWholeValue (cs : List Char) : Reading Item :=
  readValue (3 * cs.length + 3) nestingLimit cs

/-! ## Expressions -/

inductive Expression where
  | pair (key : Key) (item : Item)
  | header (key : Key)
  | member (key : Key)

/-- A document being read: its entries, and the header that further pairs belong to. -/
structure State where
  entries : Entries
  current : List String

def State.apply (state : State) : Expression → Option State
  | .pair key item => (state.entries.defineIn state.current key.path key.last item).map
    fun entries =>
      { state with entries }
  | .header key => (state.entries.openTable key.path key.last).map fun entries =>
      ⟨entries, key.parts⟩
  | .member key => (state.entries.openMember key.path key.last).map fun entries =>
      ⟨entries, key.parts⟩

def readExpression (cs : List Char) : Reading Expression :=
  match cs with
  | '[' :: '[' :: rest =>
      match readKey rest with
      | some (key, ']' :: ']' :: rest) => (endLine rest).map fun rest => (.member key, rest)
      | _ => none
  | '[' :: rest =>
      match readKey rest with
      | some (key, ']' :: rest) => (endLine rest).map fun rest => (.header key, rest)
      | _ => none
  | _ =>
      match readKey cs with
      | some (key, '=' :: rest) =>
          match readWholeValue (skipGaps rest) with
          | some (item, rest) => (endLine rest).map fun rest => (.pair key item, rest)
          | none => none
      | _ => none

def readExpressions : Nat → State → List Char → Option State
  | 0, _, _ => none
  | fuel + 1, state, cs =>
      match skipGaps cs with
      | [] => some state
      | c :: rest =>
          if c = '#' ∨ c = '\n' ∨
            c = '\r' then (endLine (c :: rest)).bind (readExpressions fuel state)
          else
            match readExpression (c :: rest) with
            | none => none
            | some (expression, rest) =>
                match state.apply expression with
                | none => none
                | some state => readExpressions fuel state rest

def byteOrderMark : Char := '\uFEFF'

def read? (text : String) : Option Entries :=
  let cs :=
    match text.toList with
    | c :: rest => if c = byteOrderMark then rest else c :: rest
    | [] => []
  (readExpressions (cs.length + 1) ⟨[], []⟩ cs).map State.entries

end RobotConsole.Toml
