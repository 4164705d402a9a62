import StaticHttp.Pool.Crew

/-!
# Draining a queue

The owner closes the queue, waits for every worker in the order of their numbers, and then takes the
queue apart. It goes through all of it whatever fails on the way, and remembers what each part came
to.
-/

namespace StaticHttp

/-- How far the owner has come. -/
inductive Drain
  | closing
  /-- It has closed the queue, with this result, and has seen these workers end. -/
  | joining (closed : Except QueueError Unit) (endings : List Ending)
  /-- It has taken the queue apart, with this result. -/
  | done (closed : Except QueueError Unit) (endings : List Ending)
    (discarded : Except QueueError Nat)

namespace Drain

/-- The result of closing the queue. -/
def closedOf : Reply Visitor → Except QueueError Unit
  | .failed e => .error e
  | _ => .ok ()

def isDone : Drain → Bool
  | done .. => true
  | _ => false

end Drain

def Crew.drain (crew : Crew) (wake : Option Nat) : Drain → Option (Drain × Crew)
  | .closing =>
    match crew.sharing.turn 0 (.close 0) wake with
    | some (some reply, sharing) =>
      some (.joining (Drain.closedOf reply) [], { crew with sharing })
    | some (none, sharing) => some (.closing, { crew with sharing })
    | none => none
  | .joining closed endings =>
    match crew.workers[endings.length]? with
    | some (.ended ending) => some (.joining closed (endings ++ [ending]), crew)
    | some _ => none
    | none => some (.done closed endings (crew.sharing.queue.destroy crew.owners), crew)
  | .done .. => none

end StaticHttp
