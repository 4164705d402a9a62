import StaticHttp.Http.Mime
import StaticHttp.Http.RequestLine
import StaticHttp.Files.Tree

/-!
# What a request comes to

A requested path is looked up below the served directory. A regular file of a known type is found;
one of another type is not supported; anything else, and any path that would climb, is not found. An
error of the look-up other than a missing object is passed on.
-/

namespace StaticHttp

/-- What a request comes to. -/
inductive Outcome
  | found (path : Path) (size : Nat) (mime : String)
  | notFound
  /-- A file of a type that is not served. -/
  | unsupportedType
  deriving DecidableEq, Repr

/-- Looks a requested path up below the served directory. -/
def resolve (fs : FileSystem) (served : Path) (resource : ResourcePath) : Except IoError Outcome :=
  match resource.path.relative? with
  | none => .ok .notFound
  | some relative =>
    let path := served.join relative
    match fs.metadata path with
    | .error e => if e.kind = .notFound then .ok .notFound else .error e
    | .ok (.regular size) =>
      match Mime.ofPath? path with
      | some mime => .ok (.found path size mime)
      | none => .ok .unsupportedType
    | .ok _ => .ok .notFound

end StaticHttp
