import StaticHttp.Files.Path

/-!
# Media types

The closed table of file name extensions that are served, each with its media type. Case matters,
and a path without an extension has no type.
-/

namespace StaticHttp.Mime

/-- The extensions that are served, with their media types. -/
def table : List (String × String) :=
  [("txt", "text/plain"), ("html", "text/html"), ("jpg", "image/jpeg"), ("png", "image/png"),
    ("pdf", "application/pdf")]

/-- The media type of an extension, written without its dot. -/
def ofExtension? (extension : Bytes) : Option String :=
  (table.find? (fun entry => Bytes.ofString entry.1 == extension)).map (·.2)

/-- The media type of a file, by the extension of its name. -/
def ofPath? (path : Path) : Option String := path.extension?.bind ofExtension?

end StaticHttp.Mime
