/-!
# Status codes

The three answers a static file server gives: the file, no such file, and a file of a type that is
not served.
-/

namespace StaticHttp

inductive Status
  | ok
  | notFound
  | unsupportedMediaType
  deriving DecidableEq, Repr

namespace Status

def code : Status → Nat
  | ok => 200
  | notFound => 404
  | unsupportedMediaType => 415

def reason : Status → String
  | ok => "OK"
  | notFound => "Not Found"
  | unsupportedMediaType => "Unsupported Media Type"

/-- Code and reason, as the status line has them. -/
def text (s : Status) : String := toString s.code ++ " " ++ s.reason

def all : List Status := [ok, notFound, unsupportedMediaType]

def ofCode? (n : Nat) : Option Status := all.find? (·.code == n)

theorem mem_all (s : Status) : s ∈ all := by cases s <;> decide

theorem ofCode?_code (s : Status) : ofCode? s.code = some s := by cases s <;> rfl

end Status

end StaticHttp
