import StaticHttp.Server.Basic

/-!
# Sessions under a fixed schedule

Clients come to a server, one after the other or all at once, and at the end somebody asks it to
stop. Whoever can move first moves: the callers of the stop signal, then the dispatcher, then the
workers in order, until nobody can move any more.
-/

namespace StaticHttp

namespace Server

/-- The dispatcher's next move; accepting fails with the error, if there is one. -/
def dispatchAny (server : Server) (acceptError : Option IoError) : Option Server :=
  match server.dispatcher, acceptError with
  | .accepting, some e => server.step (.fail e)
  | _, _ => server.crew.sharing.wakes.findSome? fun wake => server.step (.dispatch wake)

/-- The first move that somebody can make. -/
def advance (server : Server) (acceptError : Option IoError) : Option Server :=
  match (List.range server.callers.length).findSome? fun caller => server.step (.raise caller) with
  | some server => some server
  | none =>
    match server.dispatchAny acceptError with
    | some server => some server
    | none => server.crew.workAny.map fun crew => { server with crew }

/-- The server after at most so many moves. -/
def advanceFor (acceptError : Option IoError) : Nat → Server → Server
  | 0, server => server
  | moves + 1, server =>
    match server.advance acceptError with
    | some server => advanceFor acceptError moves server
    | none => server

/-- The server when nobody can move any more. -/
def settle (server : Server) (acceptError : Option IoError) : Server :=
  server.advanceFor acceptError
    (16 * (server.backlog.length + server.crew.sharing.queue.ring.length + server.callers.length +
      server.crew.workers.length + 4))

/-- A client connects that sends a request and nothing more. -/
def visit (server : Server) (request : Bytes) : Server :=
  server.connect { reads := [.data request] } false

/-- All that was sent to the visitor with a number. -/
def responseTo (server : Server) (number : Nat) : Bytes :=
  match server.crew.services.find? (·.visitor.number == number) with
  | some service => service.log.written
  | none => []

/-- Clients come one after the other; gives what was sent to each. -/
def serveInTurn (server : Server) : List Bytes → List Bytes × Server
  | [] => ([], server)
  | request :: rest =>
    let after := (server.visit request).settle none
    let (responses, last) := after.serveInTurn rest
    (after.responseTo server.arrivals :: responses, last)

/-- Clients come all at once. -/
def visitAll (server : Server) (requests : List Bytes) : Server := requests.foldl visit server

/-- What was sent to so many visitors, the first of whom has a number. -/
def responsesTo (server : Server) (first count : Nat) : List Bytes :=
  (List.range count).map fun i => server.responseTo (first + i)

/-- Clients come all at once; gives what was sent to each. -/
def serveTogether (server : Server) (requests : List Bytes) : List Bytes × Server :=
  let after := (server.visitAll requests).settle none
  (after.responsesTo server.arrivals requests.length, after)

/-- Somebody raises the stop signal and comes back. -/
def askToStop (server : Server) : Server :=
  let caller := server.callers.length
  let moves : List ServerMove := [.call, .raise caller, .raise caller]
  moves.foldl (fun server move => (server.step move).getD server) server

end Server

end StaticHttp
