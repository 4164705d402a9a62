import StaticHttp.Files.Path
import StaticHttp.IoError

/-!
# File trees and looking a path up

A file system is a tree of directories, regular files, symbolic links and special files, with a
working directory. Looking a path up walks its segments one by one, restarts at a link's target, and
fails with the error that the walk meets first. A walk stops at a link (`Place.advance`) and is taken
up again at most `maxLinks` times (`FileSystem.follow`), so that every look-up ends.
-/

namespace StaticHttp

inductive Node
  | file (content : Bytes)
  /-- A special file that holds nothing. -/
  | special
  | directory (entries : List (Bytes × Node))
  | link (target : Path)

/-- A node with the way down to it. -/
structure Place where
  node : Node
  /-- The directories above, nearest first, each with the name by which the way leaves it. -/
  above : List (Bytes × Node) := []

namespace Place

def child (p : Place) (name : Bytes) (node : Node) : Place := ⟨node, (name, p.node) :: p.above⟩

/-- The directory above; the root is above itself. -/
def parent (p : Place) : Place :=
  match p.above with
  | [] => p
  | (_, node) :: rest => ⟨node, rest⟩

def location (p : Place) : List Bytes := (p.above.map (·.1)).reverse

end Place

def maxNameLength : Nat := 255

def maxPathLength : Nat := 4095

/-- The greatest number of symbolic links that a look-up passes through. -/
def maxLinks : Nat := 40

/-- How far a walk gets without following a link. -/
inductive Walk
  | arrived (place : Place)
  /-- To a link in a directory, with segments left over behind it. -/
  | atLink (directory : Place) (target : Path) (rest : List Bytes)
  | failed (error : SystemError)

/-- Walks down the segments until they end, a link is met or a step fails. -/
def Place.advance : Place → List Bytes → Walk
  | p, [] => .arrived p
  | p, segment :: rest =>
    match p.node with
    | .directory entries =>
      if segment = [] ∨ segment = Path.here then p.advance rest
      else if segment = Path.parent then p.parent.advance rest
      else if maxNameLength < segment.length then .failed .nameTooLong
      else
        match entries.lookup segment with
        | none => .failed .notFound
        | some (.link target) => .atLink p target rest
        | some node => (p.child segment node).advance rest
    | _ => .failed .notADirectory

/-- A tree as one process sees it. -/
structure FileSystem where
  root : Node
  /-- The names that lead from the root to the working directory. -/
  workingDirectory : List Bytes := []
  canOpen : Bool := true

namespace FileSystem

def rootPlace (fs : FileSystem) : Place := ⟨fs.root, []⟩

/-- The place of the working directory; the root, if there is no such directory. -/
def workingPlace (fs : FileSystem) : Place :=
  match fs.rootPlace.advance fs.workingDirectory with
  | .arrived p => p
  | _ => fs.rootPlace

/-- Where the walk along a path begins, seen from a directory. -/
def startOf (fs : FileSystem) (directory : Place) (path : Path) : Place :=
  if path.isAbsolute then fs.rootPlace else directory

/-- Walks down the segments through at most `links` symbolic links. -/
def follow (fs : FileSystem) : Nat → Place → List Bytes → Except SystemError Place
  | links, p, segments =>
    match p.advance segments with
    | .arrived q => .ok q
    | .failed e => .error e
    | .atLink directory target rest =>
      match links with
      | 0 => .error .linkLoop
      | links + 1 => fs.follow links (fs.startOf directory target) (target.segments ++ rest)

/-- The place that a path names, seen from a directory. -/
def placeFrom (fs : FileSystem) (directory : Place) (path : Path) : Except IoError Place :=
  if 0 ∈ path then .error .nulInPath
  else if maxPathLength < path.length then .error (.system .nameTooLong)
  else if path = [] then .error (.system .notFound)
  else
    match fs.follow maxLinks (fs.startOf directory path) path.segments with
    | .ok p => .ok p
    | .error e => .error (.system e)

def lookup (fs : FileSystem) (path : Path) : Except IoError Node :=
  match fs.placeFrom fs.workingPlace path with
  | .ok p => .ok p.node
  | .error e => .error e

end FileSystem

/-- What is known of an object without opening it. -/
inductive Metadata
  | regular (size : Nat)
  | directory
  | special
  deriving DecidableEq, Repr

/-- What is known of a node without opening it. A look-up never ends at a link. -/
def Node.metadata : Node → Metadata
  | .file content => .regular content.length
  | .directory _ => .directory
  | .special => .special
  | .link _ => .special

/-- What reading an open file gives. -/
inductive Source
  | content (bytes : Bytes)
  /-- An error: a directory can be opened and not read. -/
  | directory
  deriving DecidableEq, Repr

/-- What reading an object gives once it is open. -/
def Node.source : Node → Source
  | .file content => .content content
  | .directory _ => .directory
  | .special => .content []
  | .link _ => .content []

namespace FileSystem

def metadata (fs : FileSystem) (path : Path) : Except IoError Metadata :=
  match fs.lookup path with
  | .ok node => .ok node.metadata
  | .error e => .error e

/-- Opens the object that a path names for reading. -/
def openFile (fs : FileSystem) (path : Path) : Except IoError Source :=
  if 0 ∈ path then .error .nulInPath
  else if !fs.canOpen then .error (.system .tooManyOpenFiles)
  else
    match fs.lookup path with
    | .ok node => .ok node.source
    | .error e => .error e

end FileSystem

end StaticHttp
