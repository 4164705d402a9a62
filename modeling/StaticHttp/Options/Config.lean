import StaticHttp.Files.Tree
import StaticHttp.Queue.Basic
import StaticHttp.Text.Utf8

/-!
# The configuration of a server

What a server needs to know before it starts, its default, and the conditions under which it may
start at all.
-/

namespace StaticHttp

structure Config where
  serveDir : Path := Path.here
  port : UInt16 := 8080
  host : String := "0.0.0.0"
  workers : Nat := 5
  /-- The number of connections that can wait. -/
  queueCapacity : Nat := defaultCapacity
  logFilter : String := "info"
  deriving DecidableEq, Repr

/-- Why a server may not start. -/
inductive ConfigError
  | noWorkers
  | emptyQueue
  | missingDirectory (path : String)
  | notADirectory (path : String)
  deriving DecidableEq, Repr

def ConfigError.message : ConfigError → String
  | .noWorkers => "workers must be >= 1"
  | .emptyQueue => "queue capacity must be >= 1"
  | .missingDirectory path => "directory to serve does not exist: " ++ path
  | .notADirectory path => "path to serve is not a directory: " ++ path

namespace Config

/-- Host and port, as they are bound. -/
def address (config : Config) : String := config.host ++ ":" ++ toString config.port.toNat

/-- Whether a server with this configuration may start. -/
def validate (config : Config) (fs : FileSystem) : Except ConfigError Unit :=
  if config.workers = 0 then .error .noWorkers
  else if config.queueCapacity = 0 then .error .emptyQueue
  else
    match fs.metadata config.serveDir with
    | .ok .directory => .ok ()
    | .ok _ => .error (.notADirectory (Utf8.readable config.serveDir))
    | .error _ => .error (.missingDirectory (Utf8.readable config.serveDir))

end Config

end StaticHttp
