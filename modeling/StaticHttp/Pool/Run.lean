import StaticHttp.Pool.Drain

/-!
# The run of a pool

The owner of a queue starts workers, gives visitors to the queue, and then drains it. If a worker
cannot be started, the owner leaves the rest of its plan and drains at once, so that the workers
already started are not left behind. `Run.step` is one move of the owner or of a worker, and every
interleaving is a list of moves.
-/

namespace StaticHttp

/-- What the owner of a queue has to do before it drains the queue. -/
inductive Duty
  | start
  | startFailing (error : IoError)
  | offer (visitor : Visitor)
  | close
  /-- Come down inside the lock. -/
  | poison

/-- Where the owner stands. -/
inductive Owner
  | busy (todo : List Duty)
  /-- It is draining the queue, because a worker could not be started or because all is done. -/
  | draining (failure : Option IoError) (drain : Drain)

/-- A crew and the owner of its queue. -/
structure Run where
  crew : Crew
  owner : Owner

inductive RunMove
  /-- The owner goes on; if that notifies a thread, this one. -/
  | manage (wake : Option Nat)
  /-- A worker goes on; if that notifies a thread, this one; if it serves, it takes so long. -/
  | work (worker : Nat) (wake : Option Nat) (elapsed : Duration)
  | spurious (thread : Nat)
  deriving DecidableEq, Repr

namespace Run

/-- A run of the plan at an empty queue with so many workers. -/
def start (site : Site) (capacity workers : Nat) (plan : List Duty) : Run :=
  { crew := .start site capacity workers, owner := .busy plan }

/-- The owner makes a call to the queue and goes on to the rest once it is back. -/
def call (run : Run) (begin : Move Visitor) (wake : Option Nat) (duty : Duty) (rest : List Duty) :
    Option Run :=
  match run.crew.sharing.turn 0 begin wake with
  | some (some _, sharing) => some { crew := { run.crew with sharing }, owner := .busy rest }
  | some (none, sharing) =>
    some { crew := { run.crew with sharing }, owner := .busy (duty :: rest) }
  | none => none

def manage (run : Run) (wake : Option Nat) : Option Run :=
  match run.owner with
  | .busy [] => some { run with owner := .draining none .closing }
  | .busy (.start :: rest) => some { crew := run.crew.hire, owner := .busy rest }
  | .busy (.startFailing e :: _) => some { run with owner := .draining (some e) .closing }
  | .busy (.offer visitor :: rest) =>
    run.call (.call 0 (.put visitor)) wake (.offer visitor) rest
  | .busy (.close :: rest) => run.call (.close 0) wake .close rest
  | .busy (.poison :: rest) =>
    (run.crew.sharing.step .poison).map fun sharing =>
      { crew := { run.crew with sharing }, owner := .busy rest }
  | .draining failure drain =>
    (run.crew.drain wake drain).map fun (drain, crew) => ⟨crew, .draining failure drain⟩

/-- One move; there is no answer if it cannot be made. -/
def step (run : Run) : RunMove → Option Run
  | .manage wake => run.manage wake
  | .work worker wake elapsed =>
    (run.crew.work worker wake elapsed).map fun crew => { run with crew }
  | .spurious thread => (run.crew.wakeUp thread).map fun crew => { run with crew }

/-- Moves one after the other; there is no answer if one of them cannot be made. -/
def steps (run : Run) (moves : List RunMove) : Option Run := moves.foldlM step run

/-! ## A fixed schedule -/

/-- The first move that the owner or some worker can make. -/
def advance (run : Run) : Option Run :=
  match run.crew.sharing.wakes.findSome? run.manage with
  | some run => some run
  | none => run.crew.workAny.map fun crew => { run with crew }

/-- The run after at most so many moves. -/
def advanceFor : Nat → Run → Run
  | 0, run => run
  | moves + 1, run =>
    match run.advance with
    | some run => advanceFor moves run
    | none => run

/-- The duties ahead of the owner. -/
def todo (run : Run) : List Duty :=
  match run.owner with
  | .busy todo => todo
  | .draining .. => []

/-- The run when nobody can move any more. -/
def finish (run : Run) : Run :=
  run.advanceFor
    (16 * (run.todo.length + run.crew.workers.length + run.crew.sharing.queue.ring.length + 1))

end Run

/-- What the owner learned from a run that came to its end. -/
structure RunResult where
  failure : Option IoError
  closed : Except QueueError Unit
  endings : List Ending
  discarded : Except QueueError Nat

/-- What the owner learned, if the run came to its end. -/
def Run.result? (run : Run) : Option RunResult :=
  match run.owner with
  | .draining failure (.done closed endings discarded) =>
    some ⟨failure, closed, endings, discarded⟩
  | _ => none

end StaticHttp
