import StaticHttp.Pool.Drain
import StaticHttp.Server.StopSignal

/-!
# The run of a server

The dispatcher accepts connections and gives them to the queue, from which a crew of workers takes
them. It looks at the stop signal before it accepts and again after it has accepted; a connection
accepted after the signal was raised is closed unread. Once the signal is raised, or accepting
fails, the dispatcher drains the queue.

The dispatcher is thread 0 of the sharing. Whoever raises the signal sets the flag first and then
makes a connection to the listener, which waits in the backlog like any other. `Server.step` is one
move of the dispatcher, of a worker, or of a caller of the signal, or an event outside the server;
every interleaving is a list of moves.
-/

namespace StaticHttp

/-- Where a caller stands that raises the stop signal. -/
inductive Caller
  | setting
  /-- About to make the connection that wakes the listener. -/
  | connecting
  | finished
  deriving DecidableEq, Repr

/-- Where the dispatcher stands. -/
inductive Dispatcher
  | polling
  | accepting
  /-- Has accepted a connection and is about to look at the stop signal. -/
  | rechecking (visitor : Visitor)
  | offering (visitor : Visitor)
  /-- Draining the queue, because of a failure or because it was asked to stop. -/
  | draining (failure : Option ServerError) (drain : Drain)

structure Server where
  crew : Crew
  dispatcher : Dispatcher := .polling
  stopping : Bool := false
  callers : List Caller := []
  /-- The connections that wait to be accepted, oldest first. -/
  backlog : List Visitor := []
  /-- The number of connections made to the listener. -/
  arrivals : Nat := 0
  enqueued : List Visitor := []
  /-- The connections accepted and closed unread, in order. -/
  turnedAway : List Visitor := []

/-- A move of a server, or an event outside it. -/
inductive ServerMove
  | arrive (connection : Connection)
  | change (files : FileSystem)
  | call
  | raise (caller : Nat)
  /-- The dispatcher goes on; if that notifies a thread, this one. -/
  | dispatch (wake : Option Nat)
  | interrupt
  | fail (error : IoError)
  /-- A worker goes on; if that notifies a thread, this one; if it serves, it takes so long. -/
  | work (worker : Nat) (wake : Option Nat) (elapsed : Duration)
  | spurious (thread : Nat)

namespace Server

/-- A server with so many workers, before its first move. -/
def start (site : Site) (capacity workers : Nat) : Server :=
  { crew := .start site capacity workers }

/-- The dispatcher has taken the queue apart and closed the listener. -/
def isStopped (server : Server) : Bool :=
  match server.dispatcher with
  | .draining _ drain => drain.isDone
  | _ => false

/-- One more connection waits to be accepted, if the listener is still there. -/
def connect (server : Server) (connection : Connection) (isWakeUp : Bool) : Server :=
  if server.isStopped then server
  else
    { server with
      backlog := server.backlog ++
        [⟨server.arrivals, { connection with log := {} }, isWakeUp⟩]
      arrivals := server.arrivals + 1 }

/-- A caller of the stop signal goes on. Only the one that finds the flag unset makes a
connection. -/
def raise (server : Server) (caller : Nat) : Option Server :=
  match server.callers[caller]? with
  | some .setting =>
    let next : Caller := if server.stopping then .finished else .connecting
    some { server with stopping := true, callers := server.callers.set caller next }
  | some .connecting =>
    some ({ server with callers := server.callers.set caller .finished }.connect {} true)
  | _ => none

def dispatch (server : Server) (wake : Option Nat) : Option Server :=
  match server.dispatcher with
  | .polling =>
    some { server with
      dispatcher := if server.stopping then .draining none .closing else .accepting }
  | .accepting =>
    match server.backlog with
    | [] => none
    | visitor :: backlog => some { server with backlog, dispatcher := .rechecking visitor }
  | .rechecking visitor =>
    if server.stopping then
      some { server with
        turnedAway := server.turnedAway ++ [visitor]
        dispatcher := .draining none .closing }
    else some { server with dispatcher := .offering visitor }
  | .offering visitor =>
    match server.crew.sharing.turn 0 (.call 0 (.put visitor)) wake with
    | some (none, sharing) => some { server with crew := { server.crew with sharing } }
    | some (some (.failed e), sharing) =>
      some { server with
        crew := { server.crew with sharing }
        dispatcher := .draining (some (.queue e)) .closing }
    | some (some _, sharing) =>
      some { server with
        crew := { server.crew with sharing }
        enqueued := server.enqueued ++ [visitor]
        dispatcher := .polling }
    | none => none
  | .draining failure drain =>
    (server.crew.drain wake drain).map fun (drain, crew) =>
      { server with crew, dispatcher := .draining failure drain }

/-- One move; there is no answer if it cannot be made. -/
def step (server : Server) : ServerMove → Option Server
  | .arrive connection => some (server.connect connection false)
  | .change files =>
    some { server with crew := { server.crew with site := { server.crew.site with files } } }
  | .call => some { server with callers := server.callers ++ [.setting] }
  | .raise caller => server.raise caller
  | .dispatch wake => server.dispatch wake
  | .interrupt =>
    match server.dispatcher with
    | .accepting => some { server with dispatcher := .polling }
    | _ => none
  | .fail e =>
    match server.dispatcher with
    | .accepting => some { server with dispatcher := .draining (some (.accept e)) .closing }
    | _ => none
  | .work worker wake elapsed =>
    (server.crew.work worker wake elapsed).map fun crew => { server with crew }
  | .spurious thread => (server.crew.wakeUp thread).map fun crew => { server with crew }

/-- Moves one after the other; there is no answer if one of them cannot be made. -/
def steps (server : Server) (moves : List ServerMove) : Option Server := moves.foldlM step server

inductive Stage
  | serving
  | draining
  | stopped
  deriving DecidableEq, Repr

def stage (server : Server) : Stage :=
  match server.dispatcher with
  | .draining _ drain => if drain.isDone then .stopped else .draining
  | _ => .serving

end Server

/-- What a server that ended cleanly reports. -/
structure ServerReport where
  accepted : Nat
  handled : Nat
  discarded : Nat
  metrics : Metrics

/-- What the end of a server comes to: the earliest failure, of serving, closing, the workers, or
taking the queue apart, else the report. -/
def ServerReport.conclude (accepted : Nat) (metrics : Metrics) (failure : Option ServerError)
    (closed : Except QueueError Unit) (endings : List Ending)
    (discarded : Except QueueError Nat) : Except ServerError ServerReport :=
  match failure, closed, joinAll endings, discarded with
  | some e, _, _, _ => .error e
  | none, .error e, _, _ => .error (.queue e)
  | none, .ok (), .error e, _ => .error e
  | none, .ok (), .ok _, .error e => .error (.queue e)
  | none, .ok (), .ok handled, .ok discarded => .ok ⟨accepted, handled, discarded, metrics⟩

/-- What a stopped server reports. -/
def Server.report? (server : Server) : Option (Except ServerError ServerReport) :=
  match server.dispatcher with
  | .draining failure (.done closed endings discarded) =>
    some (ServerReport.conclude server.enqueued.length server.crew.metrics failure closed endings
      discarded)
  | _ => none

end StaticHttp
