import StaticHttp.Queue.Turn
import StaticHttp.Total

/-!
# Producers and consumers at one queue

Producers put their items into the queue, each in order. When all of them are through the queue is
closed, and the consumers take what is left until they are told that the queue is closed. The
exchange follows one fixed schedule; `Exchange.summary` says what can be seen of it from outside.
-/

namespace StaticHttp

/-- An item with the producer that made it and its place among the items of that producer. -/
structure Parcel where
  producer : Nat
  place : Nat
  deriving DecidableEq, Repr

/-- What one thread of an exchange has to do. -/
inductive Party
  /-- Put these items into the queue. -/
  | producer (todo : List Parcel)
  /-- Take items until the queue is closed; it has these. -/
  | consumer (taken : List Parcel) (ended : Bool)
  /-- Close the queue when all producers are through; it has this reply. -/
  | closer (reply : Option (Reply Parcel))

namespace Party

def taken : Party → List Parcel
  | consumer taken _ => taken
  | _ => []

/-- The party puts nothing more into the queue. -/
def isThrough : Party → Bool
  | producer todo => todo.isEmpty
  | _ => true

/-- The reply to closing the queue. -/
def closed? : Party → Option (Reply Parcel)
  | closer reply => reply
  | _ => none

end Party

/-- Threads at one queue, each with what it has to do. -/
structure Exchange where
  sharing : Sharing Parcel
  parties : List Party
  sent : Bool := true
  bounded : Bool := true

/-- What can be seen of an exchange from outside. -/
structure Exchange.Summary where
  sent : Bool
  closed : Option (Reply Parcel)
  delivered : Nat
  distinct : Nat
  /-- Every consumer saw the items of every producer in their order. -/
  ordered : Bool
  bounded : Bool
  discarded : Except QueueError Nat

namespace Exchange

/-- So many producers with so many items each, and so many consumers. -/
def start (capacity producers perProducer consumers : Nat) : Exchange :=
  { sharing := .start capacity (producers + consumers + 1)
    parties :=
      (List.range producers).map (fun p =>
        .producer ((List.range perProducer).map fun k => ⟨p, k⟩)) ++
      List.replicate consumers (.consumer [] false) ++ [.closer none] }

/-- The call that a thread has to make next. -/
def callOf (e : Exchange) (thread : Nat) : Party → Option (Move Parcel)
  | .producer [] => none
  | .producer (item :: _) => some (.call thread (.put item))
  | .consumer _ true => none
  | .consumer _ false => some (.call thread .take)
  | .closer (some _) => none
  | .closer none => if e.parties.all (·.isThrough) then some (.close thread) else none

/-- What a thread has to do after a reply. -/
def afterReply (reply : Reply Parcel) : Party → Party
  | .producer todo => .producer (todo.drop 1)
  | .consumer taken ended =>
    match reply with
    | .item item => .consumer (taken ++ [item]) ended
    | _ => .consumer taken true
  | .closer _ => .closer (some reply)

/-- The reply does not refuse an item of the party. -/
def isAccepted (reply : Reply Parcel) : Party → Bool
  | .producer _ => decide (reply = .done)
  | _ => true

/-- A thread's next move; if it notifies a thread, this one. -/
def step (e : Exchange) (thread : Nat) (wake : Option Nat) : Option Exchange :=
  match e.parties[thread]? with
  | none => none
  | some party =>
    match e.callOf thread party with
    | none => none
    | some begin =>
      match e.sharing.turn thread begin wake with
      | none => none
      | some (reply, sharing) =>
        let bounded := e.bounded && decide (sharing.queue.ring.length ≤ sharing.queue.ring.capacity)
        match reply with
        | none => some { e with sharing, bounded }
        | some reply =>
          some {
            sharing, bounded
            parties := e.parties.set thread (afterReply reply party)
            sent := e.sent && isAccepted reply party }

/-- The first move that some thread can make. -/
def advance (e : Exchange) : Option Exchange :=
  let wakes := e.sharing.wakes
  (List.range e.parties.length).findSome? fun thread => wakes.findSome? (e.step thread)

/-- The exchange after at most so many moves. -/
def advanceFor : Nat → Exchange → Exchange
  | 0, e => e
  | moves + 1, e =>
    match e.advance with
    | some e => advanceFor moves e
    | none => e

/-- The exchange when nobody can move any more. -/
def finish (e : Exchange) : Exchange :=
  let items : Party → Nat
    | .producer todo => todo.length
    | _ => 0
  e.advanceFor (16 * (total items e.parties + e.parties.length + 1))

def ascends : List Nat → Bool
  | a :: b :: rest => decide (a < b) && ascends (b :: rest)
  | _ => true

/-- The items of every producer come in their order. -/
def isOrdered (taken : List Parcel) : Bool :=
  (taken.map (·.producer)).eraseDups.all fun p =>
    ascends ((taken.filter (·.producer == p)).map (·.place))

/-- What can be seen of the exchange, once all threads are through. -/
def summary (e : Exchange) : Summary :=
  let delivered := e.parties.flatMap (·.taken)
  { sent := e.sent
    closed := e.parties.findSome? (·.closed?)
    delivered := delivered.length
    distinct := delivered.eraseDups.length
    ordered := e.parties.all fun p => isOrdered p.taken
    bounded := e.bounded
    discarded := e.sharing.queue.destroy 1 }

end Exchange

end StaticHttp
