import RobotConsole.Index.Archive
import RobotConsole.Program
import Std.Time.DateTime.Timestamp

/-!
# The command line program

The files that a run may look at are read first, then the run is computed, and then the index and
the output are written.  No network is at hand here, so a request to the service finds nobody.
-/

set_option autoImplicit false

namespace RobotConsole.Main

def readEnvironment : IO Environment := do
  return ⟨← IO.getEnv "HOME", ← IO.getEnv "XDG_CONFIG_HOME", ← IO.getEnv "DARE_SERVER",
    ← IO.getEnv "DARE_STORE", none⟩

def readFile? (path : String) : IO (Option ByteArray) :=
  try
    return some (← IO.FS.readBinFile path)
  catch _ => return none

def addFile (tree : Files.Tree) (path : String) : IO Files.Tree := do
  match ← readFile? path with
  | some content => return tree.write path content
  | none => return tree

def indexNode (content : ByteArray) : Files.Node :=
  match (String.fromUTF8? content).bind Index.Tables.ofArchive? with
  | some tables => .index tables
  | none => .bytes content

def indexPath? (locator : String) : Option String :=
  match Index.Locator.read? locator with
  | some (.file use) => String.fromUTF8? use.path.toByteArray
  | _ => none

def addIndex (tree : Files.Tree) (locator : String) : IO Files.Tree := do
  match indexPath? locator, tree.indexPlace? locator with
  | some path, some place =>
      match ← readFile? path with
      | some content => return (tree.write path content).put place (indexNode content)
      | none => return tree
  | _, _ => return tree

partial def readAll (stream : IO.FS.Stream) (content : ByteArray) : IO ByteArray := do
  let more ← stream.read 65536
  if more.isEmpty then return content
  readAll stream (content ++ more)

/-- What a plan needs besides the settings: the index, and the definition of its command. -/
def gather (tree : Files.Tree) (plan : Program.Plan) : IO (Files.Tree × ByteArray) := do
  let tree ← addIndex tree plan.index
  match plan.command.source with
  | .none => return (tree, ByteArray.empty)
  | .file path => return (← addFile tree path, ByteArray.empty)
  | .input => return (tree, ← readAll (← IO.getStdin) ByteArray.empty)

def saveIndex (tree : Files.Tree) (locator : String) : IO Unit := do
  match indexPath? locator, (tree.indexPlace? locator).bind tree.node? with
  | some path, some (.index tables) =>
      let folders := (path.toList.reverse.dropWhile (· != '/')).reverse
      if !folders.isEmpty then IO.FS.createDirAll (String.ofList folders)
      IO.FS.writeFile path tables.archive
  | _, _ => return ()

def run (words : List String) : IO UInt32 := do
  let environment ← readEnvironment
  let tree ← addFile Files.Tree.fresh environment.configFile
  let (tree, input) ←
    match Program.plan words environment tree with
    | .ok plan => gather tree plan
    | .error _ => pure (tree, ByteArray.empty)
  let now ← Std.Time.Timestamp.now
  let outcome := Program.run
    ⟨words, environment, tree, now.toSecondsSinceUnixEpoch.val, input, [], Program.unreachable,
      none⟩
  if let some locator := outcome.index then saveIndex outcome.files locator
  IO.print outcome.output.text
  if let .error setback := outcome.result then IO.eprintln setback.errorLine
  return UInt32.ofNat outcome.exitCode

end RobotConsole.Main

def main (words : List String) : IO UInt32 :=
  RobotConsole.Main.run words
