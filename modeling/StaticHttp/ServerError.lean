import StaticHttp.Options.Config
import StaticHttp.Http.Request

/-!
# Errors that stop a server

What the serving thread reports when a server cannot start or did not end cleanly, with the errors
behind it.
-/

namespace StaticHttp

/-- Why a server could not start or did not end cleanly. -/
inductive ServerError
  | config (cause : ConfigError)
  | bind (address : String) (cause : IoError)
  | spawn (cause : IoError)
  | accept (cause : IoError)
  | queue (cause : QueueError)
  | workerPanicked (id : Nat)
  | worker (id : Nat) (cause : QueueError)
  deriving DecidableEq, Repr

namespace ServerError

def message : ServerError → String
  | config cause => "invalid configuration: " ++ cause.message
  | bind address cause => "failed to bind to " ++ address ++ ": " ++ cause.message
  | spawn cause => "failed to spawn worker thread: " ++ cause.message
  | accept cause => "accept failed: " ++ cause.message
  | queue cause => "queue failure: " ++ cause.message
  | workerPanicked id => "worker " ++ toString id ++ " panicked"
  | worker id cause => "worker " ++ toString id ++ " stopped: " ++ cause.message

/-- The wordings of the errors behind the error, nearest first. -/
def sources : ServerError → List String
  | config cause => [cause.message]
  | bind _ cause => [cause.message]
  | spawn cause => [cause.message]
  | accept cause => [cause.message]
  | queue cause => [cause.message]
  | workerPanicked _ => []
  | worker _ cause => [cause.message]

end ServerError

def RequestError.sources : RequestError → List String
  | .io e => [e.message]
  | _ => []

end StaticHttp
