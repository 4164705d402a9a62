import StaticHttp.Http.Outcome
import StaticHttp.Http.Status

/-!
# The head of a response

The status line and the headers, in the order in which they were added, each on a line of its own,
with an empty line behind them.
-/

namespace StaticHttp

structure Head where
  status : Status
  headers : List (String × String) := []
  deriving DecidableEq, Repr

namespace Head

def add (head : Head) (name value : String) : Head :=
  { head with headers := head.headers ++ [(name, value)] }

def lineEnd : Bytes := [0x0D, 0x0A]

def line (text : String) : Bytes := Bytes.ofString text ++ lineEnd

def toBytes (head : Head) : Bytes :=
  line ("HTTP/1.0 " ++ head.status.text) ++
    (head.headers.flatMap fun header => line (header.1 ++ ": " ++ header.2)) ++ lineEnd

/-- The head that belongs to an outcome. Only a found file has a type; the length is that of the
body. -/
def ofOutcome : Outcome → Head
  | .found _ size mime =>
    ((Head.mk .ok []).add "Content-Type" mime).add "Content-Length" (toString size)
  | .notFound => (Head.mk .notFound []).add "Content-Length" "0"
  | .unsupportedType => (Head.mk .unsupportedMediaType []).add "Content-Length" "0"

end Head

end StaticHttp
