import StaticHttp.Pool.Worker
import StaticHttp.Queue.Turn

/-!
# A crew of workers at one queue

Workers share a queue of visitors with the thread that owns it. The owner is thread 0 of the sharing
and worker `i` is thread `i + 1`. `Crew.work` is one move of one worker: a move of its call to the
queue, or the whole of serving one visitor.
-/

namespace StaticHttp

/-- A visitor that was served, by whom, and what came of it. -/
structure Service where
  worker : Nat
  visitor : Visitor
  result : Except Abort Status
  log : Log

/-- Workers at one queue. -/
structure Crew where
  site : Site
  /-- The queue, and where each thread stands. -/
  sharing : Sharing Visitor
  workers : List Worker := []
  services : List Service := []
  metrics : Metrics := {}

namespace Crew

/-- An empty queue with its owner and so many workers. -/
def start (site : Site) (capacity workers : Nat) : Crew :=
  { site
    sharing := .start capacity (workers + 1)
    workers := List.replicate workers (.taking 0) }

def threadOf (worker : Nat) : Nat := worker + 1

def hire (crew : Crew) : Crew :=
  { crew with
    sharing := (crew.sharing.step .join).getD crew.sharing
    workers := crew.workers ++ [.taking 0] }

/-- The owners of the queue: the thread that owns it and every worker that is still running. -/
def owners (crew : Crew) : Nat := 1 + crew.workers.countP (·.isRunning)

/-- The crew with one worker doing something else. -/
def setWorker (crew : Crew) (worker : Nat) (doing : Worker) : Crew :=
  { crew with workers := crew.workers.set worker doing }

/-- What a worker does after a reply of the queue. -/
def afterTake (handled : Nat) : Reply Visitor → Worker
  | .item visitor => .serving visitor handled
  | .closed => .ended (.finished handled)
  | .failed e => .ended (.failed e)
  | .done => .taking handled

/-- What a worker does after it has served a visitor. -/
def afterService (handled : Nat) : Except Abort Status → Worker
  | .error .crash => .ended .crashed
  | _ => .taking (handled + 1)

/-- A worker serves the visitor that it has taken. -/
def serve (crew : Crew) (worker : Nat) (visitor : Visitor) (handled : Nat) (elapsed : Duration) :
    Crew :=
  let done := crew.site.handle visitor.connection elapsed crew.metrics
  { crew with
    metrics := done.metrics
    services := crew.services ++ [⟨worker, visitor, done.result, done.log⟩]
    workers := crew.workers.set worker (afterService handled done.result) }

/-- A worker's next move; if it notifies a thread, this one; if it serves, it takes so long. -/
def work (crew : Crew) (worker : Nat) (wake : Option Nat) (elapsed : Duration) : Option Crew :=
  match crew.workers[worker]? with
  | some (.taking handled) =>
    match crew.sharing.turn (threadOf worker) (.call (threadOf worker) .take) wake with
    | some (some reply, sharing) =>
      some ({ crew with sharing }.setWorker worker (afterTake handled reply))
    | some (none, sharing) => some { crew with sharing }
    | none => none
  | some (.serving visitor handled) => some (crew.serve worker visitor handled elapsed)
  | _ => none

/-- A thread that waits at the queue wakes for no reason. -/
def wakeUp (crew : Crew) (thread : Nat) : Option Crew :=
  (crew.sharing.step (.spurious thread)).map fun sharing => { crew with sharing }

/-- What happened on the connection of a visitor that was given to the queue: one that nobody served
was closed as it was. -/
def logOf (crew : Crew) (visitor : Visitor) : Log :=
  match crew.services.find? (·.visitor.number == visitor.number) with
  | some service => service.log
  | none => visitor.connection.close

/-- A worker can go on whose thread stands there. -/
def canGoOn : Worker → Phase Visitor → Bool
  | .taking _, .parked _ => false
  | .taking _, _ => true
  | .serving .., _ => true
  | .ended _, _ => false

/-- The number of the first worker that can go on, of workers with their threads the first of which
has that number. -/
def firstAble (number : Nat) : List Worker → List (Phase Visitor) → Option Nat
  | worker :: workers, phase :: phases =>
    if canGoOn worker phase then some number else firstAble (number + 1) workers phases
  | _, _ => none

/-- The first move that some worker can make under the fixed schedule. -/
def workAny (crew : Crew) : Option Crew :=
  (firstAble 0 crew.workers (crew.sharing.threads.drop 1)).bind fun worker =>
    crew.sharing.wakes.findSome? fun wake => crew.work worker wake {}

end Crew

end StaticHttp
