import RobotConsole.Files.Path
import RobotConsole.Index.Store

/-!
# The files of a run

A tree of folders and files, of which one folder is the working folder.  A file holds bytes, or the
tables of an index; one special file holds nothing, whatever is written to it.  A path is followed
step by step.  A step can be taken only in a folder, so every name on the way but the last must be
that of a folder.
-/

set_option autoImplicit false

namespace RobotConsole.Files

instance (priority := 2000) decidableEqContent : DecidableEq ByteArray := ByteArray.instDecidableEq

inductive Node where
  | folder
  /-- A file that is always empty. -/
  | null
  | bytes (content : ByteArray)
  | index (tables : Index.Tables)
  deriving DecidableEq

structure Tree where
  nodes : List (Place × Node)
  working : Place

namespace Tree

/-- An empty working folder, and what lies outside it on every machine. -/
def fresh : Tree :=
  ⟨[([bytesOf "dev", bytesOf "null"], .null), ([bytesOf "dev"], .folder),
    ([bytesOf "tmp"], .folder)], [bytesOf "work"]⟩

/-- What lies at a place.  The root and the working folder are always there. -/
def node? (tree : Tree) (place : Place) : Option Node :=
  if place = [] ∨ place = tree.working then some .folder
  else (tree.nodes.find? fun entry => entry.1 == place).map Prod.snd

def remove (tree : Tree) (place : Place) : Tree :=
  { tree with nodes := tree.nodes.filter fun entry => entry.1 != place }

def put (tree : Tree) (place : Place) (node : Node) : Tree :=
  { tree with nodes := (place, node) :: (tree.remove place).nodes }

def isFolderAt (tree : Tree) (place : Place) : Bool :=
  tree.node? place == some .folder

def base (tree : Tree) (path : Bytes) : Place :=
  if path.head? = some slash then [] else tree.working

/-- Takes steps from a place.  What the last of them names may be missing. -/
def walk (tree : Tree) (place : Place) : List Step → Except PathFault Place
  | [] => .ok place
  | step :: rest =>
      match tree.node? place with
      | none => .error .missing
      | some .folder =>
          match step with
          | .stay => walk tree place rest
          | .up => walk tree place.dropLast rest
          | .down name => if longestName < name.length then .error .tooLong
              else walk tree (place ++ [name]) rest
      | some _ => .error .notFolder

/-- The place that a path leads to, whether something is there or not.  The empty path leads
nowhere. -/
def follow (tree : Tree) (path : Bytes) : Except PathFault Place :=
  if path.isEmpty then .error .missing
  else
    match checkPath path with
    | .error fault => .error fault
    | .ok () => tree.walk (tree.base path) (steps path)

def locate? (tree : Tree) (path : Bytes) : Option Node :=
  match tree.follow path with
  | .error _ => none
  | .ok place => tree.node? place

def lookUp? (tree : Tree) (path : String) : Option Node :=
  tree.locate? (bytesOf path)

def text? (tree : Tree) (path : String) : Option String :=
  match tree.lookUp? path with
  | some .null => some ""
  | some (.bytes content) => String.fromUTF8? content
  | _ => none

/-! ## Making folders -/

def makeFolder (tree : Tree) (place : Place) (steps : List Step) : Except PathFault Tree :=
  match tree.walk place steps with
  | .error fault => .error fault
  | .ok target =>
      match tree.node? target with
      | some _ => .error .alreadyThere
      | none => .ok (tree.put target .folder)

def isFolder (tree : Tree) (place : Place) (steps : List Step) : Bool :=
  match tree.walk place steps with
  | .error _ => false
  | .ok target => tree.isFolderAt target

/-- Makes a folder and all those above it that are missing.  The steps come last first.  Folders
made before a fault stay. -/
def makeFolders (place : Place) : List Step → Tree → Except PathFault Unit × Tree
  | [], tree => (.ok (), tree)
  | step :: above, tree =>
      let steps := (step :: above).reverse
      match tree.makeFolder place steps with
      | .ok tree => (.ok (), tree)
      | .error .missing =>
          match makeFolders place above tree with
          | (.error fault, tree) => (.error fault, tree)
          | (.ok (), tree) =>
              match tree.makeFolder place steps with
              | .ok tree => (.ok (), tree)
              | .error fault =>
                  if tree.isFolder place steps then (.ok (), tree) else (.error fault, tree)
      | .error fault => if tree.isFolder place steps then (.ok (), tree) else (.error fault, tree)

def makeFolderAt (tree : Tree) (path : Bytes) (pieces : List Bytes) :
    Except PathFault Unit × Tree :=
  match checkPath ([slash].intercalate pieces) with
  | .error fault => (.error fault, tree)
  | .ok () => makeFolders (tree.base path)
      ((pieces.map Step.ofPiece).filter (· != .stay)).reverse tree

def makeFolderOf (tree : Tree) (path : Bytes) : Except PathFault Unit × Tree :=
  tree.makeFolderAt path (folderPieces path)

def writeFolder (tree : Tree) (path : String) : Tree :=
  (tree.makeFolderAt (bytesOf path) (pieces (bytesOf path))).2

/-- Writes a file, with all folders above it.  Nothing is kept where a folder is, or where no path
leads. -/
def write (tree : Tree) (path : String) (content : ByteArray) : Tree :=
  let (_, tree) := tree.makeFolderOf (bytesOf path)
  match tree.follow (bytesOf path) with
  | .error _ => tree
  | .ok place =>
      match tree.node? place with
      | some .folder | some .null => tree
      | _ => tree.put place (.bytes content)

end Tree

end RobotConsole.Files
