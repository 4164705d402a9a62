import StaticHttp.Queue.Sharing

/-!
# Owners of a queue

A queue lives for as long as somebody owns it: the holders of a handle, and each call that is still
running on it. The last owner to let go frees the queue with what it holds. An owner may instead ask
to take the queue apart, which only succeeds for the last one; either way its handle is gone.

`Ownership.perform` runs one operation on a fixed schedule, each call in a thread of its own, until
all threads are parked or back.
-/

namespace StaticHttp

/-- A queue, the calls running on it, and the handles on it. -/
structure Ownership (α : Type) where
  sharing : Sharing α
  handles : Nat := 1
  /-- The items that went with the queue. -/
  freed : List α := []

/-- An operation on a queue that has owners. -/
inductive Operation (α : Type)
  | put (item : α)
  | take
  | close
  | hold
  | release
  /-- Give a handle up to take the queue apart. -/
  | destroy
  /-- Put in an item that brings down the thread that drops it. -/
  | poison

inductive Answer (α : Type)
  | reply (reply : Reply α)
  | blocked
  | discarded (count : Nat)
  | failed (error : QueueError)
  /-- The queue is open, so that nothing would be dropped. -/
  | notClosed
  | crashed
  /-- There is no handle left to do anything with. -/
  | gone

namespace Ownership

variable {α : Type}

def start (capacity : Nat) : Ownership α := { sharing := .start capacity 0 }

/-- The owners: handles and running calls. -/
def owners (o : Ownership α) : Nat := o.handles + o.sharing.threads.countP (·.isBusy)

/-- What was dropped or freed after an earlier moment. -/
def lostSince (o earlier : Ownership α) : List α :=
  o.sharing.dropped.drop earlier.sharing.dropped.length ++ o.freed.drop earlier.freed.length

def emptied (q : Queue α) : Queue α := { q with ring := .ofCapacity q.ring.capacity }

/-- Lets one handle go; the last owner frees the queue with what it holds. -/
def release (o : Ownership α) : Ownership α :=
  let left := { o with handles := o.handles - 1 }
  if left.owners = 0 then
    { left with
      freed := o.freed ++ o.sharing.queue.toList
      sharing := { o.sharing with queue := emptied o.sharing.queue } }
  else left

/-- Gives one handle up to take the queue apart. -/
def destroy (o : Ownership α) : Except QueueError Nat × Ownership α :=
  (o.sharing.queue.destroy o.owners, o.release)

/-- What a thread has to show. -/
def answerOf : Option (Phase α) → Answer α
  | some (.answered r) => .reply r
  | _ => .blocked

/-- One operation, numbered by the threads before it, until all threads are parked or back. -/
def perform (o : Ownership α) (op : Operation α) : Answer α × Ownership α :=
  let thread := o.sharing.threads.length
  let joined := (o.sharing.step .join).getD o.sharing
  let o := { o with sharing := joined }
  let call (move : Move α) :=
    let sharing := ((joined.step move).getD joined).settle
    (answerOf sharing.threads[thread]?, { o with sharing })
  if o.handles = 0 then (.gone, o)
  else
    match op with
    | .put item => call (.call thread (.put item))
    | .take => call (.call thread .take)
    | .close => call (.close thread)
    | .hold => (.reply .done, { o with handles := o.handles + 1 })
    | .release => (.reply .done, o.release)
    | .destroy =>
      match o.destroy with
      | (.ok count, o) => (.discarded count, o)
      | (.error e, o) => (.failed e, o)
    | .poison =>
      if joined.queue.closed then
        (.crashed, { o with sharing := (joined.step .poison).getD joined })
      else (.notClosed, o)

/-- The threads that were waiting before and are back now, each with its reply. -/
def woken (before after : Ownership α) : List (Nat × Reply α) :=
  (before.sharing.threads.zip after.sharing.threads).zipIdx.filterMap fun
    | ((phase, .answered r), i) => if phase.isBusy then some (i, r) else none
    | _ => none

end Ownership

end StaticHttp
