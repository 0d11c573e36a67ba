import GridBridge.Error
import GridBridge.Files.Path

/-!
# Files: a directory tree as a value

Files and directories under their names from the root down, and the working directory, where
relative paths start. Looking a path up follows its names one by one, so `a/../b` needs the
directory `a`.
-/

namespace GridBridge.Files

inductive Node where
  | file (content : List UInt8)
  | directory
  deriving DecidableEq, Repr

/-- Nodes by their names from the root down. Every node's parents are directories of the tree. -/
structure FileSystem where
  nodes : List (List Name × Node) := []
  workingDirectory : List Name := []
  /-- No two nodes have the same names. -/
  distinct : (nodes.map (·.1)).Nodup := by simp
  deriving DecidableEq, Repr

namespace FileSystem

/-- The node under exactly these names. No names are the root. -/
def node? (fs : FileSystem) (place : List Name) : Option Node :=
  if place.isEmpty then some .directory else fs.nodes.lookup place

/-- Longest name of a directory entry. -/
def maxNameLength : Nat := 255

/-- Longest path that is looked up. -/
def maxPathLength : Nat := 4095

/-- Follows names from a place. A trailing or doubled separator and `.` stay where they are, which
has to be a directory; `..` goes up, and stays at the root. The last name may be missing. -/
def follow (fs : FileSystem) (place : List Name) : List Name → Except IoError (List Name)
  | [] => .ok place
  | name :: rest =>
    match fs.node? place with
    | none => .error .notFound
    | some (.file _) => .error .notDirectory
    | some .directory =>
      if name.isEmpty || name == [Path.dot] then fs.follow place rest
      else if name == [Path.dot, Path.dot] then fs.follow place.dropLast rest
      else if maxNameLength < name.length then .error .nameTooLong
      else fs.follow (place ++ [name]) rest

/-- Where a path starts. -/
def start (fs : FileSystem) (p : Path) : List Name :=
  if p.isAbsolute then [] else fs.workingDirectory

/-- Whether a path can be looked up at all. -/
def checkPath (p : Path) : Except IoError Unit :=
  if p.bytes.isEmpty then .error .notFound
  else if p.bytes.contains 0 then .error .nameWithNul
  else if maxPathLength < p.bytes.length then .error .nameTooLong
  else .ok ()

/-- Where a path leads. -/
def locate (fs : FileSystem) (p : Path) : Except IoError (List Name) := do
  checkPath p
  fs.follow (fs.start p) p.names

/-- The directory that holds the last name of a path. -/
def locateAbove (fs : FileSystem) (p : Path) : Except IoError (List Name) := do
  checkPath p
  let place ← fs.follow (fs.start p) p.trimEnd.names.dropLast
  match fs.node? place with
  | some .directory => return place
  | some (.file _) => throw .notDirectory
  | none => throw .notFound

/-- The node at a path. -/
def lookup (fs : FileSystem) (p : Path) : Except IoError Node := do
  match fs.node? (← fs.locate p) with
  | some node => return node
  | none => throw .notFound

def isFile (fs : FileSystem) (p : Path) : Bool :=
  match fs.lookup p with
  | .ok (.file _) => true
  | _ => false

/-- The bytes of a file. -/
def read (fs : FileSystem) (p : Path) : Except IoError (List UInt8) := do
  match ← fs.lookup p with
  | .file content => return content
  | .directory => throw .isDirectory

/-- The text of a file. -/
def readText (fs : FileSystem) (p : Path) : Except IoError String := do
  match String.fromUTF8? (← fs.read p).toByteArray with
  | some text => return text
  | none => throw .notUtf8

/-- The names in a directory, in no particular order. -/
def list (fs : FileSystem) (p : Path) : Except IoError (List Name) := do
  let place ← fs.locate p
  match fs.node? place with
  | none => throw .notFound
  | some (.file _) => throw .notDirectory
  | some .directory =>
    return fs.nodes.filterMap fun (below, _) =>
      if below.dropLast = place then below.getLast? else none

/-- Sets the node at a place. -/
def set (fs : FileSystem) (place : List Name) (node : Node) : FileSystem :=
  { fs with
    nodes := (place, node) :: fs.nodes.filter (·.1 != place)
    distinct := by
      have hkept := (List.filter_sublist (p := (·.1 != place)) (l := fs.nodes)).map (·.1)
      simpa using fs.distinct.sublist hkept }

/-- Writes a file, new or in place of an old one. Its directory has to exist, and a path that ends
in a separator names no file, whatever its last name is. -/
def write (fs : FileSystem) (p : Path) (content : List UInt8) : Except IoError FileSystem := do
  let _ ← fs.locateAbove p
  if p.trimEnd ≠ p then throw .isDirectory
  let place ← fs.locate p
  match fs.node? place with
  | some .directory => throw .isDirectory
  | _ => return fs.set place (.file content)

/-- Adds a directory and its parents. -/
def addDirectory (fs : FileSystem) (place : List Name) : FileSystem :=
  ((List.range place.length).map fun n => place.take (n + 1)).foldl (fun fs below =>
    match fs.node? below with
    | some _ => fs
    | none => fs.set below .directory) fs

/-- Adds a file and the directories above it. -/
def addFile (fs : FileSystem) (place : List Name) (content : List UInt8) : FileSystem :=
  (fs.addDirectory place.dropLast).set place (.file content)

/-- The names of a path from the root down, without those that are empty or `.`. -/
def placeOf (fs : FileSystem) (p : Path) : List Name :=
  fs.start p ++ p.names.filter fun name => !name.isEmpty && name != [Path.dot]

/-- An empty working directory and the directories above it. -/
def ofWorkingDirectory (place : List Name) : FileSystem :=
  ({ workingDirectory := place } : FileSystem).addDirectory place

end FileSystem

end GridBridge.Files
