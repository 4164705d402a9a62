import StaticHttp.Memory
import StaticHttp.Net.Listening
import StaticHttp.Pool.Run
import StaticHttp.Server.Basic

/-!
# Starting a server

A server starts in steps, each of which can fail: the configuration is checked, then its address is
listened on, then the queue and the list of workers are given their memory, then the workers are
started. If a worker cannot be started, those before it are stopped again.
-/

namespace StaticHttp

/-- What a server finds when it starts. -/
structure Surroundings where
  files : FileSystem
  network : Network := {}
  /-- The number of threads that can be started, if that is limited. -/
  threadLimit : Option Nat := none

/-- A server that is about to run, with the address that it listens on. -/
structure Started where
  server : Server
  address : SocketAddress

/-- The owner's plan for starting workers. -/
def startingPlan (workers : Nat) (threadLimit : Option Nat) : List Duty :=
  match threadLimit with
  | none => List.replicate workers .start
  | some limit =>
    if limit < workers then
      List.replicate limit .start ++ [.startFailing (.system .resourceUnavailable)]
    else List.replicate workers .start

/-- The error of the first start that fails in a plan. -/
def startFailure? (plan : List Duty) : Option IoError :=
  plan.findSome? fun
    | .startFailing e => some e
    | _ => none

/-- Why a server does not start. -/
inductive StartFailure
  | error (cause : ServerError)
  /-- The memory that it asks for cannot be had. -/
  | fault (cause : MemoryFault)

def StartFailure.message : StartFailure → String
  | error cause => cause.message
  | fault cause => cause.message

/-- Gives the queue and the list of workers of a configuration their memory. -/
def Config.reserve (config : Config) : Except MemoryFault Unit := do
  Memory.reserve config.queueCapacity Memory.connectionSlot
  Memory.reserve config.workers Memory.workerSlot

def Config.start (config : Config) (surroundings : Surroundings) : Except StartFailure Started :=
  match config.validate surroundings.files with
  | .error e => .error (.error (.config e))
  | .ok () =>
    match surroundings.network.listen config.host config.port with
    | .error e => .error (.error (.bind config.address e))
    | .ok address =>
      match config.reserve with
      | .error e => .error (.fault e)
      | .ok () =>
        match startFailure? (startingPlan config.workers surroundings.threadLimit) with
        | some e => .error (.error (.spawn e))
        | none =>
          .ok {
            server :=
              .start ⟨surroundings.files, config.serveDir⟩ config.queueCapacity config.workers
            address }

end StaticHttp
