import RobotConsole.Period

/-!
# The grammar of the command line

The words of a command lead from level to level, down to a level that is a command.  Each level has
options, which are known by a long name and perhaps a letter and take a value or none, and places
for the words that are no options.  A place holds one word, or, if it is the last, all words that
are left.  Every level knows `--store` and `--help`; the top knows `--version`; a level with words
of its own below it knows the word `help`.
-/

set_option autoImplicit false

namespace RobotConsole.CommandLine

/-- Why a command line is refused, or answered with a help text instead of a command. -/
inductive UsageFault where
  | unknownArgument
  | invalidSubcommand
  | invalidValue
  | valueValidation
  | missingRequiredArgument
  | argumentConflict
  | tooManyValues
  | missingSubcommand
  | helpForMissing
  | help
  | version
  deriving DecidableEq, Repr

namespace UsageFault

def name : UsageFault → String
  | .unknownArgument => "UnknownArgument"
  | .invalidSubcommand => "InvalidSubcommand"
  | .invalidValue => "InvalidValue"
  | .valueValidation => "ValueValidation"
  | .missingRequiredArgument => "MissingRequiredArgument"
  | .argumentConflict => "ArgumentConflict"
  | .tooManyValues => "TooManyValues"
  | .missingSubcommand => "MissingSubcommand"
  | .helpForMissing => "DisplayHelpOnMissingArgumentOrSubcommand"
  | .help => "DisplayHelp"
  | .version => "DisplayVersion"

/-- A help text that was asked for is no failure. -/
def exitCode : UsageFault → Nat
  | .help => 0
  | .version => 0
  | _ => 2

end UsageFault

inductive Shape where
  | text
  | path
  | action
  | period
  deriving DecidableEq, Repr

def actionWords : List String := ["show", "delete"]

def Shape.fault? : Shape → String → Option UsageFault
  | .text, _ => none
  | .path, value => if value.isEmpty then some .invalidValue else none
  | .action, value => if actionWords.contains value then none else some .invalidValue
  | .period, value =>
      match Period.read value with
      | .ok _ => none
      | .error _ => some .valueValidation

inductive Effect where
  | flag
  | value (shape : Shape)
  | help
  | version
  deriving DecidableEq, Repr

structure Choice where
  name : String
  letter : Option Char
  effect : Effect
  deriving DecidableEq, Repr

/-- A place for words that are no options. -/
structure Slot where
  name : String
  shape : Shape
  many : Bool
  deriving DecidableEq, Repr

inductive Level where
  | top
  | robot
  | robotList
  | robotCreate
  | robotShow
  | robotDelete
  | robotExecute
  | robotSchedule
  | execution
  | periodical
  | executeOnce
  deriving DecidableEq, Repr

namespace Level

def branches : Level → List (String × Level)
  | .top =>
      [("robot", .robot), ("execution", .execution), ("periodical", .periodical),
        ("execute", .executeOnce)]
  | .robot =>
      [("list", .robotList), ("ls", .robotList), ("create", .robotCreate), ("show", .robotShow),
        ("delete", .robotDelete), ("rm", .robotDelete), ("execute", .robotExecute),
        ("create-periodical", .robotSchedule)]
  | _ => []

def hasBranches (level : Level) : Bool :=
  !level.branches.isEmpty

def branch? (level : Level) (word : String) : Option Level :=
  (level.branches.find? fun branch => branch.1 == word).map Prod.snd

def helpWord : String := "help"

/-- Whether a word leads on from a level, or asks for help on what does. -/
def isWord (level : Level) (word : String) : Bool :=
  level.hasBranches && (word == helpWord || (level.branch? word).isSome)

def ownChoices : Level → List Choice
  | .top => [⟨"version", some 'V', .version⟩]
  | .robotList => [⟨"json", none, .flag⟩]
  | .robotCreate => [⟨"server", some 's', .value .text⟩, ⟨"xml", none, .flag⟩,
      ⟨"file", some 'f', .value .path⟩]
  | .robotShow => [⟨"xml", none, .flag⟩, ⟨"minilanguage", none, .flag⟩]
  | .executeOnce => [⟨"server", some 's', .value .text⟩, ⟨"file", some 'f', .value .path⟩]
  | _ => []

def choices (level : Level) : List Choice :=
  ⟨"store", none, .value .path⟩ :: ⟨"help", some 'h', .help⟩ :: level.ownChoices

def slots : Level → List Slot
  | .robotShow => [⟨"code", .text, false⟩]
  | .robotDelete => [⟨"code", .text, false⟩]
  | .robotExecute => [⟨"code", .text, false⟩, ⟨"inputs", .text, true⟩]
  | .robotSchedule => [⟨"code", .text, false⟩, ⟨"period", .period, false⟩, ⟨"inputs", .text, true⟩]
  | .execution => [⟨"action", .action, false⟩, ⟨"code", .text, false⟩]
  | .periodical => [⟨"action", .action, false⟩, ⟨"code", .text, false⟩]
  | .executeOnce => [⟨"inputs", .text, true⟩]
  | _ => []

def rivals : Level → List (String × String)
  | .robotShow => [("xml", "minilanguage")]
  | _ => []

end Level

end RobotConsole.CommandLine
