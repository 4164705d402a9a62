import StaticHttp.Bytes

/-!
# Paths

A path is a byte string in which slashes separate segments. Empty segments and `.` stand for no
step at all, `..` for a step up, and a leading slash for the root; `components` is the reading that
keeps only what matters. `join` continues one path with another, and `relative?` is the path that a
request may ask for below a served directory: names only, so that it cannot climb.
-/

namespace StaticHttp

/-- The name of a place in a file tree. -/
abbrev Path := Bytes

namespace Path

def slash : UInt8 := 0x2F

/-- The mark before an extension, and the name of the current directory. -/
def dot : UInt8 := 0x2E

/-- The segment that stands for the directory itself. -/
def here : Bytes := [dot]

/-- The segment that stands for the directory above. -/
def parent : Bytes := [dot, dot]

/-- The text between the slashes, empty pieces included. -/
def segments (p : Path) : List Bytes := Bytes.split slash p

def isAbsolute (p : Path) : Bool := p.head? == some slash

/-- A part of a path that has a meaning of its own. -/
inductive Component
  | root
  /-- The current directory, written out at the front of a relative path. -/
  | current
  | up
  | name (name : Bytes)
  deriving DecidableEq, Repr

/-- The step that a segment stands for, if it stands for one. -/
def step? (segment : Bytes) : Option Component :=
  if segment = [] ∨ segment = here then none
  else if segment = parent then some .up
  else some (.name segment)

/-- The parts of a path that have a meaning, in order. -/
def components (p : Path) : List Component :=
  let front :=
    if p.isAbsolute then [.root]
    else if p.segments.head? = some here then [.current]
    else []
  front ++ p.segments.filterMap step?

/-- The second path seen from the first; an absolute one stands for itself. -/
def join (base rest : Path) : Path :=
  if rest.isAbsolute then rest
  else if base = [] ∨ base.getLast? = some slash then base ++ rest
  else base ++ slash :: rest

/-- The name that the path ends in, if its last part is one. -/
def fileName? (p : Path) : Option Bytes :=
  match p.components.getLast? with
  | some (.name n) => some n
  | _ => none

/-- What stands after the last dot of a name, if something stands before it. -/
def extensionOf? (name : Bytes) : Option Bytes :=
  let back := name.reverse
  match back.dropWhile (· != dot) with
  | _ :: _ :: _ => some (back.takeWhile (· != dot)).reverse
  | _ => none

def extension? (p : Path) : Option Bytes := p.fileName?.bind extensionOf?

/-- The component stays in or below the directory that it is seen from. -/
def Component.descends : Component → Bool
  | .name _ | .current => true
  | _ => false

def Component.name? : Component → Option Bytes
  | .name n => some n
  | _ => none

/-- The path below a served directory that a requested path stands for: its names, joined. There is
none if a step leads up. -/
def relative? (requested : Path) : Option Path :=
  let parts := components (requested.dropWhile (· == slash))
  if parts.all (·.descends) then some (Bytes.join slash (parts.filterMap (·.name?))) else none

end Path

end StaticHttp
