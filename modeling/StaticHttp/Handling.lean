import StaticHttp.Http.Response
import StaticHttp.Metrics.Basic

/-!
# Handling a connection

Read, look up, answer, close, count: the whole life of a connection that a worker took from the
queue. It is closed whatever happens, and counted in one counter unless it brought its worker down.
-/

namespace StaticHttp

/-- What a server serves. -/
structure Site where
  files : FileSystem
  served : Path

/-- Reads a request and answers it; gives the status and the size of the body sent. -/
def Site.serve (site : Site) (c : Connection) : Except Abort (Status × Nat) × Connection :=
  match readRequest c with
  | (.error a, c) => (.error a, c)
  | (.ok resource, c) =>
    match resolve site.files site.served resource with
    | .error e => (.error (.error (.io e)), c)
    | .ok outcome =>
      match respond site.files outcome c with
      | (.error e, c) => (.error (.error (.io e)), c)
      | (.ok answer, c) => (.ok answer, c)

/-- What is counted of a connection that was served, or not. -/
def eventOf (elapsed : Duration) : Except Abort (Status × Nat) → Option Event
  | .ok (status, sent) => some (.response status sent elapsed)
  | .error (.error .empty) => some .rejected
  | .error (.error (.malformed _)) => some .rejected
  | .error (.error (.io _)) => some .ioFailure
  | .error .crash => none

structure Handled where
  /-- The status sent, or why none was. -/
  result : Except Abort Status
  log : Log
  metrics : Metrics

/-- Serves a connection, closes it and counts it. -/
def Site.handle (site : Site) (c : Connection) (elapsed : Duration) (metrics : Metrics) : Handled :=
  match site.serve c with
  | (answer, c) =>
    { result := answer.map (·.1)
      log := c.close
      metrics := match eventOf elapsed answer with
        | some event => metrics.record event
        | none => metrics }

end StaticHttp
