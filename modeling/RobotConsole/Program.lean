import RobotConsole.Command.Display
import RobotConsole.CommandLine
import RobotConsole.Files.IndexFile
import RobotConsole.Settings

/-!
# The program

A run of the program reads its command line, loads its settings, opens its index, and then performs
the command.  An index named on the command line goes before the one in the settings.  The first of
these steps that fails ends the run, and later steps do not take place.
-/

set_option autoImplicit false

namespace RobotConsole.Program

inductive Setback where
  | usage (fault : CommandLine.UsageFault)
  | settings (cause : SettingsFault)
  | index (locator : String) (cause : Fault)
  | command (trouble : Trouble)
  deriving DecidableEq, Repr

/-- Everything outside the program that a run depends on. -/
structure Occasion where
  words : List String
  environment : Environment
  files : Files.Tree
  now : Int
  input : ByteArray
  answers : List Answer
  silence : String → Fault
  room : Option Nat

/-- What a run leaves.  The index is named once it is open. -/
structure Outcome where
  result : Except Setback Unit
  output : Sink
  sent : List Request
  waits : List Nat
  files : Files.Tree
  index : Option String

def Outcome.early (setback : Setback) (files : Files.Tree) (room : Option Nat) : Outcome :=
  ⟨.error setback, Sink.ofRoom room, [], [], files, none⟩

def surroundings (occasion : Occasion) (settings : Settings) (files : Files.Tree) : Surroundings :=
  ⟨occasion.now, settings.server, settings.patience, files, occasion.input⟩

structure Plan where
  settings : Settings
  /-- The locator of the index. -/
  index : String
  command : Command

/-- The plan for a command line.  The command line is looked at first, and the settings only if it
is sound. -/
def plan (words : List String) (environment : Environment) (files : Files.Tree) :
    Except Setback Plan :=
  match CommandLine.parse words with
  | .error fault => .error (.usage fault)
  | .ok invocation =>
      match Settings.load files environment with
      | .error fault => .error (.settings fault)
      | .ok loaded =>
          let settings := { loaded with storePath := invocation.store.or loaded.storePath }
          .ok ⟨settings, settings.storeFile environment, invocation.command⟩

def performOn (occasion : Occasion) (plan : Plan) (files : Files.Tree) : Outcome :=
  let (holding, files) := files.hold plan.index
  let desk : Desk := ⟨holding.store, Exchange.start occasion.answers occasion.silence⟩
  let (result, desk, sink) :=
    plan.command.perform (surroundings occasion plan.settings files) desk
      (Sink.ofRoom occasion.room)
  ⟨match result with
    | .ok () => .ok ()
    | .error trouble => .error (.command trouble),
    sink, desk.exchange.sent, desk.exchange.waits, files.keep holding desk.store, some plan.index⟩

def run (occasion : Occasion) : Outcome :=
  match plan occasion.words occasion.environment occasion.files with
  | .error setback => .early setback occasion.files occasion.room
  | .ok plan =>
      match occasion.files.openIndex plan.index with
      | (.error fault, files) => .early (.index plan.index fault) files occasion.room
      | (.ok (), files) => performOn occasion plan files

/-! ## The end of a run -/

/-- The first line of a text.  A line ends before a line feed; a carriage return at its very end
belongs to the end. -/
def firstLine (text : String) : String :=
  let line := text.toList.takeWhile (· != '\n')
  String.ofList (if line.getLast? = some '\r' then line.dropLast else line)

namespace Setback

def exitCode : Setback → Nat
  | .usage fault => fault.exitCode
  | _ => 1

def message : Setback → String
  | .usage fault => fault.name
  | .settings _ => "Failed to load configuration"
  | .index locator _ => "Failed to open DARE store: " ++ locator
  | .command trouble => trouble.message

def errorLine (setback : Setback) : String :=
  firstLine ("Error: " ++ setback.message)

end Setback

def Outcome.exitCode (outcome : Outcome) : Nat :=
  match outcome.result with
  | .ok () => 0
  | .error setback => setback.exitCode

/-! ## A far end that cannot be reached -/

def isSchemeChar (c : Char) : Bool :=
  c.isAlphanum || c == '+' || c == '-' || c == '.'

def scheme? (url : String) : Option String :=
  let name := url.toList.takeWhile (· != ':')
  if name.length < url.length && name.head?.any Char.isAlpha && name.all isSchemeChar
    then some (String.ofList name)
  else none

def namesHost (url : String) : Bool :=
  match (url.toList.dropWhile (· != ':')).drop 1 with
  | '/' :: '/' :: c :: _ => c != '/' && c != '?' && c != '#'
  | _ => false

/-- The fault of a request that is sent without a network.  A url without a scheme, or without a
host where the scheme asks for one, is refused before anything is sent; so is a scheme that no
request can be sent by. -/
def unreachable (url : String) : Fault :=
  .unreachable <|
    match scheme? url with
    | none => "builder error"
    | some scheme =>
        if scheme = "http" ∨ scheme = "https" then
          if namesHost url then "error sending request for url (" ++ url ++ ")" else "builder error"
        else "builder error for url (" ++ url ++ ")"

end RobotConsole.Program
