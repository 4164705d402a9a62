import StaticHttp.Queue.Basic

/-!
# Threads that share a queue

Any number of threads offer, take and close. A thread that finds the queue full, or empty, parks and
gives the lock back; it goes on when it is notified, or roused for no reason at all, and then tries
again from the start. An accepted item notifies one parked taker and a taken item one parked
producer, while closing notifies everybody, in two announcements after the lock is given back.

`Sharing.step` is one move of one thread. Which thread moves, and whom a notification reaches, is in
the move; every interleaving is a list of moves. The lists `accepted`, `delivered` and `dropped` are
the history of the items.
-/

namespace StaticHttp

/-- A call that may have to wait. -/
inductive Call (α : Type)
  | put (item : α)
  | take
  deriving DecidableEq, Repr

namespace Call

variable {α : Type}

/-- The call waits for an item. -/
def isTake : Call α → Bool
  | .take => true
  | .put _ => false

/-- The call waits for room. -/
def isPut (c : Call α) : Bool := !c.isTake

end Call

inductive Reply (α : Type)
  | done
  | item (item : α)
  /-- The queue is closed and empty. -/
  | closed
  | failed (error : QueueError)
  deriving DecidableEq, Repr

/-- Where a thread stands. -/
inductive Phase (α : Type)
  | idle
  /-- About to take the lock for the first time in a call. -/
  | entering (call : Call α)
  | parked (call : Call α)
  /-- Notified and about to take the lock again. -/
  | notified (call : Call α)
  /-- Awake for no reason and about to take the lock again. -/
  | roused (call : Call α)
  | closing
  /-- Has closed the queue and still has to announce it: to everybody, or to producers alone. -/
  | announcing (takersTold : Bool) (poisoned : Bool)
  | answered (reply : Reply α)
  deriving DecidableEq, Repr

namespace Phase

variable {α : Type}

/-- The thread is parked in such a call. -/
def isParked (who : Call α → Bool) : Phase α → Bool
  | .parked c => who c
  | _ => false

/-- The thread was notified in such a call and has not resumed. -/
def isNotified (who : Call α → Bool) : Phase α → Bool
  | .notified c => who c
  | _ => false

/-- The call that the thread tries as soon as it has the lock. -/
def trying? : Phase α → Option (Call α)
  | .entering c | .notified c | .roused c => some c
  | _ => none

def isBusy : Phase α → Bool
  | .idle | .answered _ => false
  | _ => true

/-- The thread is about to take its next step inside a call. -/
def isReady : Phase α → Bool
  | .entering _ | .notified _ | .roused _ | .closing | .announcing .. => true
  | _ => false

/-- The phase after everybody parked in such a call was notified. -/
def wake (who : Call α → Bool) : Phase α → Phase α
  | .parked c => if who c then .notified c else .parked c
  | p => p

end Phase

/-- A queue, the threads that share it, and what became of the items. -/
structure Sharing (α : Type) where
  queue : Queue α
  threads : List (Phase α)
  /-- The items put into the queue, in order. -/
  accepted : List α := []
  /-- The items taken out of the queue, in order. -/
  delivered : List α := []
  /-- The items dropped by a call that found the queue closed or poisoned, in order. -/
  dropped : List α := []

inductive Move (α : Type)
  | join
  | call (thread : Nat) (call : Call α)
  | close (thread : Nat)
  /-- A thread takes the lock and tries; if that notifies one, it notifies this one. -/
  | enter (thread : Nat) (wake : Option Nat)
  | announce (thread : Nat)
  | leave (thread : Nat)
  /-- A parked thread wakes for no reason. -/
  | spurious (thread : Nat)
  /-- A thread comes down inside the lock. -/
  | poison
  deriving DecidableEq, Repr

namespace Sharing

variable {α : Type}

/-- An empty queue shared by idle threads. -/
def start (capacity threads : Nat) : Sharing α :=
  { queue := .ofCapacity capacity, threads := List.replicate threads .idle }

/-- The threads with one of them in another phase. -/
def setPhase (s : Sharing α) (thread : Nat) (phase : Phase α) : Sharing α :=
  { s with threads := s.threads.set thread phase }

/-- Notifies one thread that is parked in such a call. It must be one that is; nobody is notified
only if nobody is parked. -/
def notifyOne (s : Sharing α) (who : Call α → Bool) (wake : Option Nat) : Option (Sharing α) :=
  match wake with
  | none => if s.threads.any (·.isParked who) then none else some s
  | some j =>
    match s.threads[j]? with
    | some (.parked c) => if who c then some (s.setPhase j (.notified c)) else none
    | _ => none

/-- Notifies every thread that is parked in such a call. -/
def notifyAll (s : Sharing α) (who : Call α → Bool) : Sharing α :=
  { s with threads := s.threads.map (·.wake who) }

/-- What a try comes to when it notifies nobody. -/
def quietly (s : Sharing α) (wake : Option Nat) : Option (Sharing α) :=
  if wake.isNone then some s else none

/-- A thread tries its call inside the lock. -/
def attempt (s : Sharing α) (thread : Nat) (wake : Option Nat) : Call α → Option (Sharing α)
  | .put item =>
    match s.queue.offer item with
    | (.accepted, queue) =>
      ({ s with queue, accepted := s.accepted ++ [item] }.setPhase thread
        (.answered .done)).notifyOne Call.isTake wake
    | (.full, queue) => ({ s with queue }.setPhase thread (.parked (.put item))).quietly wake
    | (.closed, queue) =>
      ({ s with queue, dropped := s.dropped ++ [item] }.setPhase thread
        (.answered .done)).quietly wake
    | (.poisoned, queue) =>
      ({ s with queue, dropped := s.dropped ++ [item] }.setPhase thread
        (.answered (.failed .poisoned))).quietly wake
  | .take =>
    match s.queue.take with
    | (.item item, queue) =>
      ({ s with queue, delivered := s.delivered ++ [item] }.setPhase thread
        (.answered (.item item))).notifyOne Call.isPut wake
    | (.empty, queue) => ({ s with queue }.setPhase thread (.parked .take)).quietly wake
    | (.closed, queue) => ({ s with queue }.setPhase thread (.answered .closed)).quietly wake
    | (.poisoned, queue) =>
      ({ s with queue }.setPhase thread (.answered (.failed .poisoned))).quietly wake

/-- The reply of a thread that has closed the queue. -/
def closeReply (poisoned : Bool) : Reply α := if poisoned then .failed .poisoned else .done

/-- One move; there is no answer if it cannot be made. -/
def step (s : Sharing α) : Move α → Option (Sharing α)
  | .join => some { s with threads := s.threads ++ [.idle] }
  | .call i c =>
    match s.threads[i]? with
    | some .idle => some (s.setPhase i (.entering c))
    | _ => none
  | .close i =>
    match s.threads[i]? with
    | some .idle => some (s.setPhase i .closing)
    | _ => none
  | .enter i wake =>
    match s.threads[i]? with
    | some .closing =>
      ({ s with queue := s.queue.close }.setPhase i
        (.announcing false s.queue.poisoned)).quietly wake
    | some phase => phase.trying?.bind (s.attempt i wake)
    | none => none
  | .announce i =>
    match s.threads[i]? with
    | some (.announcing false poisoned) =>
      some ((s.notifyAll Call.isTake).setPhase i (.announcing true poisoned))
    | some (.announcing true poisoned) =>
      some ((s.notifyAll Call.isPut).setPhase i (.answered (closeReply poisoned)))
    | _ => none
  | .leave i =>
    match s.threads[i]? with
    | some (.answered _) => some (s.setPhase i .idle)
    | _ => none
  | .spurious i =>
    match s.threads[i]? with
    | some (.parked c) => some (s.setPhase i (.roused c))
    | _ => none
  | .poison => some { s with queue := { s.queue with poisoned := true } }

/-- Moves one after the other; there is no answer if one of them cannot be made. -/
def run (s : Sharing α) (moves : List (Move α)) : Option (Sharing α) := moves.foldlM step s

/-! ## A fixed schedule -/

/-- The first thread that is parked in such a call. -/
def firstParked (s : Sharing α) (who : Call α → Bool) : Option Nat :=
  s.threads.findIdx? (·.isParked who)

/-- The ways in which a thread can take its next step inside its call, notifying the first thread
that can be notified. -/
def advances (s : Sharing α) (thread : Nat) : List (Move α) :=
  [.announce thread, .enter thread none, .enter thread (s.firstParked Call.isTake),
    .enter thread (s.firstParked Call.isPut)]

/-- A thread's next step inside its call. -/
def advance (s : Sharing α) (thread : Nat) : Option (Sharing α) :=
  (s.advances thread).findSome? s.step

/-- The next step of the first thread that is about to take one. -/
def advanceAny (s : Sharing α) : Option (Sharing α) :=
  (s.threads.findIdx? (·.isReady)).bind s.advance

/-- Lets the threads go on inside their calls, the first one first, for at most so many steps. -/
def settleFor : Nat → Sharing α → Sharing α
  | 0, s => s
  | steps + 1, s =>
    match s.advanceAny with
    | some s => settleFor steps s
    | none => s

/-- Lets the threads go on inside their calls until all of them are parked or back. -/
def settle (s : Sharing α) : Sharing α := settleFor (8 * (s.threads.length + 1)) s

end Sharing

end StaticHttp
