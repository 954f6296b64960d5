import RobotConsole.Exchange
import RobotConsole.Files.Tree
import RobotConsole.Toml.Document

/-!
# Settings

Settings come from a file, if there is one, and then from the environment: a non-empty value there
goes before that of the file.  The file lies in the user's configuration folder, and the index in
the user's home unless a setting says otherwise.  A limit of polls must not be zero.
-/

set_option autoImplicit false

namespace RobotConsole

structure Environment where
  home : Option String
  configHome : Option String
  server : Option String
  store : Option String
  /-- The home of the user's account, for an environment that names none. -/
  accountHome : Option String
  deriving DecidableEq, Repr

def nonEmpty? (value : Option String) : Option String :=
  value.filter fun text => !text.isEmpty

namespace Environment

/-- The user's home; a plain tilde if nobody knows it. -/
def homeFolder (environment : Environment) : String :=
  ((nonEmpty? environment.home).or environment.accountHome).getD "~"

/-- The folder of this program's configuration.  A configuration home counts only if it is
absolute. -/
def configFolder (environment : Environment) : String :=
  let parent := (environment.configHome.filter Files.isAbsolute).getD
      (Files.joinPath environment.homeFolder ".config")
  Files.joinPath parent "dare"

def configFile (environment : Environment) : String :=
  Files.joinPath environment.configFolder "config.toml"

def defaultStore (environment : Environment) : String :=
  Files.joinPath environment.homeFolder ".dare"

end Environment

structure Settings where
  server : Option String
  pollSeconds : Nat
  maxPolls : Option Nat
  storePath : Option String
  timeoutSeconds : Option Nat
  deriving DecidableEq, Repr

inductive SettingsFault where
  | unreadable (path : String)
  | malformed (path : String)
  | zeroPolls (path : String)
  deriving DecidableEq, Repr

def SettingsFault.message : SettingsFault → String
  | .unreadable path => "Failed to read config from " ++ Text.quote path
  | .malformed path => "Failed to parse config from " ++ Text.quote path
  | .zeroPolls path => "max_polls in " ++ Text.quote path ++ " must be greater than zero"

namespace Settings

def defaultPollSeconds : Nat := 2

def default : Settings := ⟨none, defaultPollSeconds, none, none, none⟩

def textOf (entries : Toml.Entries) (key : String) : Option (Option String) :=
  match entries.item? key with
  | none => some none
  | some (.text text) => some (some text)
  | some _ => none

/-- The whole number from 0 to `largest` under a key, if the key is there; nothing if its item is no
such number. -/
def countOf (largest : Nat) (entries : Toml.Entries) (key : String) : Option (Option Nat) :=
  match entries.item? key with
  | none => some none
  | some (.whole number) => if 0 ≤ number ∧ number ≤ largest then some (some number.toNat) else none
  | some _ => none

def largestLong : Nat := 0xFFFFFFFFFFFFFFFF

def largestCount : Nat := 0xFFFFFFFF

/-- The settings in the entries of a document.  Keys that name no setting are passed over. -/
def ofEntries? (entries : Toml.Entries) : Option Settings := do
  let server ← textOf entries "server"
  let pollSeconds ← countOf largestLong entries "poll_interval_secs"
  let maxPolls ← countOf largestCount entries "max_polls"
  let storePath ← textOf entries "store_path"
  let timeoutSeconds ← countOf largestLong entries "request_timeout_secs"
  return ⟨server, pollSeconds.getD defaultPollSeconds, maxPolls, storePath, timeoutSeconds⟩

def ofText (path text : String) : Except SettingsFault Settings :=
  match (Toml.read? text).bind ofEntries? with
  | none => .error (.malformed path)
  | some settings => if settings.maxPolls = some 0 then .error (.zeroPolls path) else .ok settings

def ofFile (files : Files.Tree) (path : String) : Except SettingsFault Settings :=
  match files.lookUp? path with
  | none => .ok default
  | some _ =>
      match files.text? path with
      | none => .error (.unreadable path)
      | some text => ofText path text

def override (settings : Settings) (server store : Option String) : Settings :=
  { settings with
    server := (nonEmpty? server).or settings.server
    storePath := (nonEmpty? store).or settings.storePath }

def load (files : Files.Tree) (environment : Environment) : Except SettingsFault Settings :=
  match ofFile files environment.configFile with
  | .error fault => .error fault
  | .ok settings => .ok (settings.override environment.server environment.store)

def storeFile (settings : Settings) (environment : Environment) : String :=
  settings.storePath.getD environment.defaultStore

def patience (settings : Settings) : Talk.Patience :=
  ⟨settings.pollSeconds, settings.maxPolls⟩

end Settings

end RobotConsole
