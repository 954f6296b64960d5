import RobotConsole.CommandLine.Grammar

/-!
# Scanning a command line

The words of a command line are taken from left to right, level by level.  Values are checked when
it is certain that no further value belongs with them: at the next option or place, or at the end of
the line.  A level is finished, with its missing and conflicting arguments, only after the levels
below it.

After the word `--` every word fills a place, whatever it looks like.
-/

set_option autoImplicit false

namespace RobotConsole.CommandLine

/-- Values by the name of their option or place; a flag has none. -/
abbrev Bindings := List (String × List String)

def Bindings.values? (bindings : Bindings) (name : String) : Option (List String) :=
  (bindings.find? fun binding => binding.1 == name).map Prod.snd

def Bindings.isBound (bindings : Bindings) (name : String) : Bool :=
  (bindings.values? name).isSome

def Bindings.add (name : String) (values : List String) : Bindings → Bindings
  | [] => [(name, values)]
  | (held, before) :: rest =>
      if held = name then (held, before ++ values) :: rest
        else (held, before) :: Bindings.add name values rest

structure Pending where
  slot : Slot
  isChoice : Bool
  values : List String
  deriving DecidableEq, Repr

structure Scan where
  bound : Bindings
  pending : Option Pending
  /-- Whether the pending option still wants its value. -/
  wanting : Bool
  /-- How many places are filled. -/
  place : Nat
  /-- Whether `--` has been passed. -/
  trailing : Bool
  deriving DecidableEq, Repr

namespace Scan

def start : Scan := ⟨[], none, false, 0, false⟩

def checkValues (shape : Shape) : List String → Option UsageFault
  | [] => none
  | value :: rest =>
      match shape.fault? value with
      | some fault => some fault
      | none => checkValues shape rest

/-- Binds checked values.  A value is required, and only a place for many words is bound more than
once. -/
def bind (slot : Slot) (values : List String) (scan : Scan) : Except UsageFault Scan :=
  if values.isEmpty then .error .invalidValue
  else if !slot.many && scan.bound.isBound slot.name then .error .argumentConflict
  else
    match checkValues slot.shape values with
    | some fault => .error fault
    | none => .ok { scan with bound := scan.bound.add slot.name values }

def settle (scan : Scan) : Except UsageFault Scan :=
  match scan.pending with
  | none => .ok scan
  | some pending => bind pending.slot pending.values { scan with pending := none, wanting := false }

def bindFlag (name : String) (scan : Scan) : Except UsageFault Scan := do
  let scan ← scan.settle
  if scan.bound.isBound name then throw .argumentConflict
  return { scan with bound := scan.bound.add name [] }

def choiceSlot (choice : Choice) (shape : Shape) : Slot :=
  ⟨choice.name, shape, false⟩

def attach (choice : Choice) (shape : Shape) (value : String) (scan : Scan) :
    Except UsageFault Scan := do
  let scan ← scan.settle
  bind (choiceSlot choice shape) [value] scan

def want (choice : Choice) (shape : Shape) (scan : Scan) : Except UsageFault Scan := do
  let scan ← scan.settle
  return { scan with pending := some ⟨choiceSlot choice shape, true, []⟩, wanting := true }

def raise (choice : Choice) (scan : Scan) : Except UsageFault Scan :=
  match choice.effect with
  | .flag => scan.bindFlag choice.name
  | .value shape => scan.want choice shape
  | .help => do
      let _ ← scan.settle
      throw .help
  | .version => do
      let _ ← scan.settle
      throw .version

def takeLong (level : Level) (word : List Char) (scan : Scan) : Except UsageFault Scan :=
  let name := String.ofList (word.takeWhile (· != '='))
  match level.choices.find? fun choice => choice.name == name with
  | none => .error .unknownArgument
  | some choice =>
      match word.dropWhile (· != '=') with
      | [] => scan.raise choice
      | _ :: value =>
          match choice.effect with
          | .value shape => scan.attach choice shape (String.ofList value)
          | _ => .error .tooManyValues

/-- The letters after a single hyphen.  An option that takes a value takes the rest of the word, if
there is any. -/
def takeLetters (level : Level) : List Char → Scan → Except UsageFault Scan
  | [], scan => .ok scan
  | letter :: rest, scan =>
      match level.choices.find? fun choice => choice.letter == some letter with
      | none => .error .unknownArgument
      | some choice =>
          match choice.effect, rest with
          | .value shape, [] => scan.want choice shape
          | .value shape, '=' :: value => scan.attach choice shape (String.ofList value)
          | .value shape, value => scan.attach choice shape (String.ofList value)
          | _, _ =>
              match scan.raise choice with
              | .error fault => .error fault
              | .ok scan => takeLetters level rest scan

def takePlace (level : Level) (word : String) (scan : Scan) : Except UsageFault Scan :=
  match level.slots[scan.place]? with
  | none =>
      if scan.trailing && level.isWord word then .error .unknownArgument
      else if level.hasBranches then .error .invalidSubcommand
      else .error .unknownArgument
  | some slot =>
      match scan.pending with
      | some pending =>
          if slot.many && !pending.isChoice && pending.slot == slot then
            .ok { scan with pending := some { pending with values := pending.values ++ [word] } }
          else fill slot scan
      | none => fill slot scan
where
  fill (slot : Slot) (scan : Scan) : Except UsageFault Scan := do
    let scan ← scan.settle
    return { scan with
      pending := some ⟨slot, false, [word]⟩
      place := if slot.many then scan.place else scan.place + 1 }

def giveValue (word : String) (scan : Scan) : Scan :=
  match scan.pending with
  | none => scan
  | some pending =>
      { scan with
        pending := some { pending with values := pending.values ++ [word] }, wanting := false }

def take (level : Level) (word : String) (scan : Scan) : Except UsageFault Scan :=
  if scan.trailing then scan.takePlace level word
  else
    match word.toList with
    | ['-', '-'] => .ok { scan with trailing := true }
    | '-' :: '-' :: rest => scan.takeLong level rest
    | '-' :: letter :: rest => takeLetters level (letter :: rest) scan
    | _ => if scan.wanting then .ok (scan.giveValue word) else scan.takePlace level word

def mayDescend (scan : Scan) : Bool :=
  !scan.trailing && !scan.wanting

end Scan

structure Layer where
  level : Level
  bound : Bindings
  deriving DecidableEq, Repr

/-- The layers of a command line, the innermost first. -/
abbrev Layers := List Layer

/-- Checks a level once its words are over; `inner` holds the layers below it. -/
def finish (level : Level) (scan : Scan) (inner : Layers) : Except UsageFault Layers := do
  let scan ← scan.settle
  if inner.isEmpty && level.hasBranches then
    if scan.bound.isEmpty then throw .helpForMissing else throw .missingSubcommand
  if level.rivals.any fun rivals => scan.bound.isBound rivals.1 && scan.bound.isBound rivals.2 then
    throw .argumentConflict
  if level.slots.any fun slot => !slot.many && !scan.bound.isBound slot.name then
    throw .missingRequiredArgument
  return inner ++ [⟨level, scan.bound⟩]

def helpFault (level : Level) : List String → UsageFault
  | [] => .help
  | word :: rest =>
      match level.branch? word with
      | some next => helpFault next rest
      | none => if level.hasBranches && word == Level.helpWord && rest.isEmpty then .help
          else .invalidSubcommand

/-- Takes the words of a level, and those of the levels below it. -/
def scanWords (level : Level) (scan : Scan) : List String → Except UsageFault Layers
  | [] => finish level scan []
  | word :: rest =>
      if scan.mayDescend && level.isWord word then
        match level.branch? word with
        | none => .error (helpFault level rest)
        | some next =>
            match scanWords next .start rest with
            | .error fault => .error fault
            | .ok inner => finish level scan inner
      else
        match scan.take level word with
        | .error fault => .error fault
        | .ok scan => scanWords level scan rest

end RobotConsole.CommandLine
