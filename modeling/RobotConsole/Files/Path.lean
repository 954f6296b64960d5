/-!
# File paths

A path is a row of bytes; a text stands for its bytes in UTF-8.  The pieces of a path lie between
slashes.  Each piece is a step: an empty piece and a single point stay in a folder, two points lead
to the folder above, and any other piece names something in the folder.  A path that starts with a
slash starts at the root of all files.
-/

set_option autoImplicit false

namespace RobotConsole.Files

def isAbsolute (path : String) : Bool :=
  path.toList.head? == some '/'

def endsInSlash (path : String) : Bool :=
  path.toList.getLast? == some '/'

/-- `part` seen from `base`; an absolute part stands for itself. -/
def joinPath (base part : String) : String :=
  if isAbsolute part then part
  else if base.isEmpty || endsInSlash base then base ++ part
  else base ++ "/" ++ part

/-! ## Bytes -/

/-- A name in a folder, or a piece of a path, or a whole path. -/
abbrev Bytes := List UInt8

def bytesOf (text : String) : Bytes := text.toUTF8.toList

def slash : UInt8 := 0x2F

def point : UInt8 := 0x2E

abbrev Place := List Bytes

def placeLength (place : Place) : Nat :=
  place.foldl (fun length name => length + (name.length + 1)) 0

/-! ## Steps -/

inductive Step where
  | stay
  | up
  | down (name : Bytes)
  deriving DecidableEq, Repr

def Step.ofPiece (piece : Bytes) : Step :=
  if piece = [] ∨ piece = [point] then .stay
  else if piece = [point, point] then .up
  else .down piece

def pieces (path : Bytes) : List Bytes :=
  path.splitOn slash

def steps (path : Bytes) : List Step :=
  (pieces path).map Step.ofPiece

def followFrom (place : Place) : List Step → Place
  | [] => place
  | .stay :: rest => followFrom place rest
  | .up :: rest => followFrom place.dropLast rest
  | .down name :: rest => followFrom (place ++ [name]) rest

def dropSilent (pieces : List Bytes) : List Bytes :=
  pieces.dropWhile fun piece => Step.ofPiece piece == .stay

/-- The pieces of the folder that a path lies in.  Silent pieces at the end of either do not
count. -/
def folderPieces (path : Bytes) : List Bytes :=
  (dropSilent ((dropSilent (pieces path).reverse).drop 1)).reverse

/-! ## Limits -/

def longestName : Nat := 255

def longestPath : Nat := 4095

inductive PathFault where
  | missing
  | notFolder
  | alreadyThere
  | tooLong
  /-- A zero byte ends the path too early. -/
  | cutShort
  deriving DecidableEq, Repr

def PathFault.message : PathFault → String
  | .missing => "No such file or directory (os error 2)"
  | .notFolder => "Not a directory (os error 20)"
  | .alreadyThere => "File exists (os error 17)"
  | .tooLong => "File name too long (os error 36)"
  | .cutShort => "file name contained an unexpected NUL byte"

def checkPath (path : Bytes) : Except PathFault Unit :=
  if path.contains 0 then .error .cutShort
  else if longestPath < path.length then .error .tooLong
  else .ok ()

end RobotConsole.Files
