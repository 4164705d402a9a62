import StaticHttp.Queue.Ring

/-!
# The queue of waiting connections

A bounded first-in first-out queue that can be closed, seen from inside its lock: what one critical
section of a call finds and does. A closed queue drops what is offered and gives out what it still
holds. The lock is poisoned when a thread comes down while it holds it; from then on every call
fails, though closing still closes.
-/

namespace StaticHttp

inductive QueueError
  /-- A thread came down inside the lock. -/
  | poisoned
  /-- Somebody else still owns the queue. -/
  | inUse (owners : Nat)
  deriving DecidableEq, Repr

def QueueError.message : QueueError → String
  | .poisoned => "connection queue lock poisoned"
  | .inUse owners => "connection queue still shared by " ++ toString owners ++ " owner(s)"

/-- The capacity of a queue unless another is asked for. -/
def defaultCapacity : Nat := 512

/-- What the lock of a queue protects. -/
structure Queue (α : Type) where
  ring : Ring α
  closed : Bool := false
  /-- A thread came down inside the lock. -/
  poisoned : Bool := false

/-- What offering an item comes to. -/
inductive Offer
  | accepted
  /-- The queue is full: wait and offer again. -/
  | full
  /-- The queue is closed, and the item is dropped. -/
  | closed
  /-- The lock is poisoned, and the item is dropped. -/
  | poisoned
  deriving DecidableEq, Repr

/-- What taking an item comes to. -/
inductive Take (α : Type)
  | item (item : α)
  /-- The queue is empty: wait and try again. -/
  | empty
  /-- The queue is closed, and nothing is left. -/
  | closed
  | poisoned
  deriving DecidableEq, Repr

namespace Queue

variable {α : Type}

def ofCapacity (capacity : Nat) : Queue α := { ring := .ofCapacity capacity }

def offer (q : Queue α) (item : α) : Offer × Queue α :=
  if q.poisoned then (.poisoned, q)
  else if q.closed then (.closed, q)
  else
    match q.ring.push? item with
    | some ring => (.accepted, { q with ring })
    | none => (.full, q)

def take (q : Queue α) : Take α × Queue α :=
  if q.poisoned then (.poisoned, q)
  else
    match q.ring.pop? with
    | (some item, ring) => (.item item, { q with ring })
    | (none, ring) => (if q.closed then .closed else .empty, { q with ring })

/-- Closes the queue, whether the lock is poisoned or not. -/
def close (q : Queue α) : Queue α := { q with closed := true }

/-- What the queue holds, oldest first. -/
def toList (q : Queue α) : List α := q.ring.toList

/-- Takes the queue apart for the last of `owners` owners, and gives the number of items that it
still held. -/
def destroy (q : Queue α) (owners : Nat) : Except QueueError Nat :=
  if owners ≠ 1 then .error (.inUse owners)
  else if q.poisoned then .error .poisoned
  else .ok q.ring.length

end Queue

end StaticHttp
