import StaticHttp.Handling
import StaticHttp.Queue.Basic
import StaticHttp.ServerError
import StaticHttp.Total

/-!
# Workers

A worker takes visitors from the queue and serves them one at a time, until the queue is closed and
empty, or fails, or a visitor brings the worker down. `joinAll` says what a whole list of endings
comes to: the first failure in the order of the workers, else the sum of what they handled.
-/

namespace StaticHttp

/-- A connection that a client made, with its number in the order of arrival. -/
structure Visitor where
  number : Nat
  connection : Connection
  /-- It was made only to wake the server up. -/
  isWakeUp : Bool := false
  deriving DecidableEq, Repr

inductive Ending
  /-- The queue was closed and empty; the worker had handled so many visitors. -/
  | finished (handled : Nat)
  | failed (error : QueueError)
  | crashed
  deriving DecidableEq, Repr

namespace Ending

/-- The number of visitors handled, as far as the worker could tell. -/
def handled : Ending → Nat
  | finished n => n
  | failed _ => 0
  | crashed => 0

/-- What the ending of a worker is reported as, if it is a failure. -/
def failure? (id : Nat) : Ending → Option ServerError
  | finished _ => none
  | failed e => some (.worker id e)
  | crashed => some (.workerPanicked id)

end Ending

/-- The failure of the worker with the smallest number, the first of `endings` having number
`first`. -/
def firstFailure? (first : Nat) : List Ending → Option ServerError
  | [] => none
  | e :: rest =>
    match e.failure? first with
    | some failure => some failure
    | none => firstFailure? (first + 1) rest

/-- What the endings of all workers come to. -/
def joinAll (endings : List Ending) : Except ServerError Nat :=
  match firstFailure? 0 endings with
  | some failure => .error failure
  | none => .ok (total Ending.handled endings)

inductive Worker
  | taking (handled : Nat)
  | serving (visitor : Visitor) (handled : Nat)
  | ended (ending : Ending)
  deriving DecidableEq, Repr

namespace Worker

/-- How the worker ended, if it did. -/
def ending? : Worker → Option Ending
  | ended e => some e
  | _ => none

/-- The worker still owns the queue. -/
def isRunning (w : Worker) : Bool := w.ending?.isNone

end Worker

end StaticHttp
