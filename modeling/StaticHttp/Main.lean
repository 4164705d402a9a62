import Std.Async.TCP
import Std.Async.Signal
import Std.Sync.Mutex
import StaticHttp.Files.Change
import StaticHttp.Launch

/-!
# The program

Serves a directory over the network until it is interrupted. Everything that is decided is decided
by the library; this module moves bytes between it and the system. What a request can reach is read
from the disk into a file system of the library, the bytes of a client become the reads of a
connection, and what the library writes to that connection is sent. The queue is the library's own,
under a lock with one condition for takers and one for producers.
-/

namespace StaticHttp.Program

open Std.Async.TCP.Socket (Client)

/-! ## The disk -/

/-- The change by which an empty file system comes to hold what the disk holds at a path. -/
def probe (path : Path) : IO (Option Change) := do
  try
    let content ← IO.FS.readBinFile (Utf8.readable path)
    return some (.write path content.toList)
  catch
    | .inappropriateType _ 21 _ => return some (.makeDirectory path)
    | _ => return none

/-- The served directory and what lies on the way to a path below it. -/
def snapshot (served below : Path) : IO FileSystem := do
  let names := below.segments
  let ways := (List.range names.length).map fun i =>
    served.join (Bytes.join Path.slash (names.take (i + 1)))
  let changes ← (served :: ways).filterMapM probe
  return FileSystem.fresh.applyAll changes

/-! ## The queue -/

/-- A queue of clients under a lock. -/
structure Line where
  queue : Std.Mutex (Queue Client)
  /-- Signalled when there is something to take. -/
  notEmpty : Std.Condvar
  /-- Signalled when there is room. -/
  notFull : Std.Condvar

def Line.new (capacity : Nat) : BaseIO Line :=
  return ⟨← Std.Mutex.new (.ofCapacity capacity), ← Std.Condvar.new, ← Std.Condvar.new⟩

/-- Puts a client into the queue, when there is room. -/
def Line.put (line : Line) (client : Client) : BaseIO Offer := do
  let offer ← line.queue.atomicallyOnce line.notFull
    (return ((← get).offer client).1 != .full)
    (modifyGet (·.offer client))
  if offer == .accepted then line.notEmpty.notifyOne
  return offer

/-- Takes a client out of the queue, when there is one. -/
def Line.take (line : Line) : BaseIO (Take Client) := do
  let taken ← line.queue.atomicallyOnce line.notEmpty
    (return match (← get).take.1 with
      | .empty => false
      | _ => true)
    (modifyGet (·.take))
  match taken with
  | .item client =>
    line.notFull.notifyOne
    return .item client
  | other => return other

def Line.close (line : Line) : BaseIO Unit := do
  line.queue.atomically (modify (·.close))
  line.notEmpty.notifyAll
  line.notFull.notifyAll

/-! ## Clients -/

/-- An error of the system in the library's terms. -/
def ioErrorOf (e : IO.Error) : IoError := .custom .other (toString e)

/-- What a client sends, up to a read that does not fill the buffer. -/
partial def received (client : Client) : IO (List ReadStep) := do
  try
    match ← (client.recv? bufferSize.toUInt64).block with
    | none => return [.eof]
    | some data =>
      if data.size < bufferSize then return [.data data.toList]
      return .data data.toList :: (← received client)
  catch e => return [.fail (ioErrorOf e)]

def sendLast (client : Client) (bytes : Bytes) : IO Unit := do
  if !bytes.isEmpty then (client.send ⟨bytes.toArray⟩).block
  client.shutdown.block

def attend (served : Path) (metrics : IO.Ref Metrics) (client : Client) : IO Unit := do
  let begun ← IO.monoNanosNow
  let connection : Connection := { reads := ← received client }
  let below := match (readRequest connection).1 with
    | .ok resource => resource.path.relative?.getD []
    | .error _ => []
  let site : Site := { files := ← snapshot served below, served }
  let (answer, after) := site.serve connection
  let answer ←
    try
      sendLast client after.log.written
      pure answer
    catch e =>
      pure (match answer with
        | .ok _ => .error (.error (.io (ioErrorOf e)))
        | .error abort => .error abort)
  let elapsed := (← IO.monoNanosNow) - begun
  match eventOf ⟨elapsed / 1000000000, elapsed % 1000000000⟩ answer with
  | some event => metrics.modify (·.record event)
  | none => return

/-- Serves clients until the queue says that there are no more. -/
partial def work (line : Line) (served : Path) (metrics : IO.Ref Metrics) (handled : Nat) :
    IO Ending := do
  match ← line.take with
  | .item client =>
    attend served metrics client
    work line served metrics (handled + 1)
  | .poisoned => return .failed .poisoned
  | _ => return .finished handled

/-! ## The server -/

/-- Accepts clients until the server is told to stop; gives their number and what failed. -/
partial def dispatch (listener : Std.Async.TCP.Socket.Server) (line : Line)
    (stop : IO.Ref StopSignal) (accepted : Nat) : IO (Nat × Option ServerError) := do
  if (← stop.get).isRaised then return (accepted, none)
  match ← listener.accept.block.toBaseIO with
  | .error e => return (accepted, some (.accept (ioErrorOf e)))
  | .ok client =>
    if (← stop.get).isRaised then return (accepted, none)
    match ← line.put client with
    | .poisoned => return (accepted, some (.queue .poisoned))
    | _ => dispatch listener line stop (accepted + 1)

/-- The address in the system's terms. -/
def systemAddress : SocketAddress → Std.Net.SocketAddress
  | .v4 ip port => .v4 ⟨.ofParts ip.a ip.b ip.c ip.d, port⟩
  | .v6 ip _ port =>
    .v6 ⟨⟨⟨ip.groups.toArray, ip.length_groups⟩⟩, port⟩

def listenAt (address : SocketAddress) : IO Std.Async.TCP.Socket.Server := do
  let listener ← Std.Async.TCP.Socket.Server.mk
  listener.bind (systemAddress address)
  listener.listen 128
  return listener

/-- Raises the stop signal when the program is interrupted, and wakes the listener. -/
def listenForInterrupt (stop : IO.Ref StopSignal) (address : SocketAddress) : IO Unit := do
  let waiter ← Std.Async.Signal.Waiter.mk .sigint false
  let interrupted ← waiter.wait
  discard <| Std.Async.AsyncTask.mapIO (x := interrupted) fun _ => do
    let first ← stop.modifyGet fun signal => (!signal.isRaised, signal.raise)
    if first then
      let client ← Client.mk
      (client.connect (systemAddress address.reachable)).block

/-- Serves until told to stop, and drains. -/
def serve (config : Config) (listener : Std.Async.TCP.Socket.Server) (stop : IO.Ref StopSignal) :
    IO (Except ServerError ServerReport) := do
  let line ← Line.new config.queueCapacity
  let metrics ← IO.mkRef ({} : Metrics)
  let workers ← (List.range config.workers).mapM fun _ =>
    IO.asTask (work line config.serveDir metrics 0) .dedicated
  let (accepted, failure) ← dispatch listener line stop 0
  line.close
  let endings ← workers.mapM fun worker => do
    match ← IO.wait worker with
    | .ok ending => return ending
    | .error _ => return .crashed
  let left ← line.queue.atomically get
  return ServerReport.conclude accepted (← metrics.get) failure (.ok ()) endings (left.destroy 1)

/-- The exit code of a program that is brought down. -/
def broughtDown : Nat := 134

/-- Says what there is to say about the launch, and gives the exit code. -/
def report (launched : Launch) : IO UInt32 := do
  launched.output.forM IO.println
  launched.complaint.forM IO.eprintln
  return (launched.exitCode?.getD broughtDown).toUInt32

/-- The address of the configured host. -/
def lookUp (config : Config) : Except IoError SocketAddress :=
  ({} : Network).lookup config.host config.port

/-- Starts the server of a configuration and stays with it to its end. -/
def run (config : Config) : IO UInt32 := do
  let failed (e : ServerError) := report (.failed config (.error e))
  let bindFailed (e : IoError) := failed (.bind config.address e)
  match config.validate (← snapshot config.serveDir []), lookUp config with
  | .error e, _ => failed (.config e)
  | .ok (), .error e => bindFailed e
  | .ok (), .ok address =>
    match ← (listenAt address).toBaseIO, config.reserve with
    | .error e, _ => bindFailed (ioErrorOf e)
    | .ok _, .error e => report (.failed config (.fault e))
    | .ok listener, .ok () =>
      let stop ← IO.mkRef ({} : StopSignal)
      let bound := address.withPort (← listener.getSockName).port
      match ← (listenForInterrupt stop bound).toBaseIO with
      | .error e => report (.unstoppable config (ioErrorOf e))
      | .ok () =>
        let result ← serve config listener stop
        match result with
        | .ok _ => pure ()
        | .error e => IO.eprintln e.message
        return (exitCodeOf result).toUInt32

end StaticHttp.Program

/-- Reads the command line and the environment, and serves. -/
def main (arguments : List String) : IO UInt32 := do
  let values ← StaticHttp.Setting.all.mapM fun setting => do
    return (setting, (← IO.getEnv setting.variableName).map StaticHttp.Bytes.ofString)
  let environment := fun setting => (values.lookup setting).join
  match StaticHttp.CommandLine.parse (arguments.map StaticHttp.Bytes.ofString) environment with
  | .error usage => StaticHttp.Program.report (.refused usage)
  | .ok config => StaticHttp.Program.run config
