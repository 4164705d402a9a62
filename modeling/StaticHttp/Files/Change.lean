import StaticHttp.Files.Tree

/-!
# Changes of a file tree

Writing a file, making a directory, linking and removing. Directories that are missing on the way to
an object are made; a file is written through a symbolic link to what the link names, and what is
written to a special file is lost. A change that cannot be made leaves the tree as it is.
-/

namespace StaticHttp

inductive Change
  | write (path : Path) (content : Bytes)
  | makeDirectory (path : Path)
  | link (path target : Path)
  /-- An object goes, with all that is below it. -/
  | remove (path : Path)

/-- The entries with one of them set. -/
def setEntry (name : Bytes) (node : Node) : List (Bytes × Node) → List (Bytes × Node)
  | [] => [(name, node)]
  | (key, old) :: rest =>
    if key = name then (name, node) :: rest else (key, old) :: setEntry name node rest

/-- The tree with the entry at a location replaced, or taken away if there is no replacement. -/
def Node.replace (new : Option Node) : List Bytes → Node → Node
  | [name], .directory entries =>
    match new with
    | some node => .directory (setEntry name node entries)
    | none => .directory (entries.filter (·.1 != name))
  | name :: rest, .directory entries =>
    .directory (entries.map fun entry =>
      if entry.1 = name then (entry.1, Node.replace new rest entry.2) else entry)
  | _, node => node

namespace FileSystem

def replaceAt (fs : FileSystem) (location : List Bytes) (new : Option Node) : FileSystem :=
  { fs with root := fs.root.replace new location }

/-- The entry of that name in the directory at a place. -/
def entry? (p : Place) (name : Bytes) : Option Node :=
  match p.node with
  | .directory entries => entries.lookup name
  | _ => none

/-- A path split into the directory that an object lies in and the object's name there. -/
def splitName? (path : Path) : Option (Path × Bytes) :=
  let names := path.segments.filter (fun s => s != [] && s != Path.here)
  match names.reverse with
  | [] => none
  | name :: above =>
    let directory := Bytes.join Path.slash above.reverse
    some (if path.isAbsolute then Path.slash :: directory
      else if directory = [] then Path.here else directory, name)

/-- Makes the last directory of a path whose other directories exist. -/
def makeOne (fs : FileSystem) (path : Path) : FileSystem :=
  match fs.lookup path, splitName? path with
  | .error (.system .notFound), some (above, name) =>
    match fs.placeFrom fs.workingPlace above with
    | .ok p => fs.replaceAt (p.location ++ [name]) (some (.directory []))
    | .error _ => fs
  | _, _ => fs

/-- Makes a directory and those above it, as far as they are missing. -/
def makeDirectories (fs : FileSystem) (path : Path) : FileSystem :=
  let segments := path.segments
  (List.range segments.length).foldl
    (fun fs i => fs.makeOne (Bytes.join Path.slash (segments.take (i + 1)))) fs

/-- Writes a file, through at most `links` symbolic links that lead to no object yet. -/
def writeFile : Nat → FileSystem → Path → Bytes → FileSystem
  | links, fs, path, content =>
    match splitName? path with
    | none => fs
    | some (above, name) =>
      let fs := fs.makeDirectories above
      match fs.placeFrom fs.workingPlace above with
      | .error _ => fs
      | .ok p =>
        match entry? p name with
        | some (.link target) =>
          match links with
          | 0 => fs
          | links + 1 => writeFile links fs (above.join target) content
        | some (.directory _) => fs
        | some .special => fs
        | _ => fs.replaceAt (p.location ++ [name]) (some (.file content))

def apply (fs : FileSystem) : Change → FileSystem
  | .write path content => writeFile maxLinks fs path content
  | .makeDirectory path => fs.makeDirectories path
  | .link path target =>
    match splitName? path with
    | none => fs
    | some (above, name) =>
      let fs := fs.makeDirectories above
      match fs.placeFrom fs.workingPlace above with
      | .error _ => fs
      | .ok p =>
        match entry? p name with
        | some _ => fs
        | none => fs.replaceAt (p.location ++ [name]) (some (.link target))
  | .remove path =>
    match splitName? path with
    | none => fs
    | some (above, name) =>
      match fs.placeFrom fs.workingPlace above with
      | .error _ => fs
      | .ok p => fs.replaceAt (p.location ++ [name]) none

def applyAll (fs : FileSystem) (changes : List Change) : FileSystem := changes.foldl apply fs

/-- A process in an empty working directory, beside the null device. -/
def fresh : FileSystem where
  root := .directory
    [(Bytes.ofString "dev", .directory [(Bytes.ofString "null", .special)]),
      (Bytes.ofString "tmp", .directory [(Bytes.ofString "work", .directory [])])]
  workingDirectory := [Bytes.ofString "tmp", Bytes.ofString "work"]

end FileSystem

end StaticHttp
