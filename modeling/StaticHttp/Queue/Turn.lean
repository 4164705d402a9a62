import StaticHttp.Queue.Sharing

/-!
# Turns at a shared queue

A thread that works through a queue makes one call after the other. `Sharing.turn` is its next move
in the call that it has to make: it begins the call, tries, announces, or comes back with the reply.
Every turn is one move of the sharing.
-/

namespace StaticHttp

namespace Sharing

variable {α : Type}

/-- The move that a thread makes next to carry out its call, if it does not wait. -/
def nextMove (s : Sharing α) (thread : Nat) (begin : Move α) (wake : Option Nat) :
    Option (Move α) :=
  match s.threads[thread]? with
  | some .idle => some begin
  | some (.entering _) => some (.enter thread wake)
  | some (.notified _) => some (.enter thread wake)
  | some (.roused _) => some (.enter thread wake)
  | some .closing => some (.enter thread wake)
  | some (.announcing ..) => some (.announce thread)
  | some (.answered _) => some (.leave thread)
  | _ => none

/-- The reply with which a thread is back from its call. -/
def reply? (s : Sharing α) (thread : Nat) : Option (Reply α) :=
  match s.threads[thread]? with
  | some (.answered reply) => some reply
  | _ => none

/-- A thread's next move to carry out its call, and the reply if the move ends the call. -/
def turn (s : Sharing α) (thread : Nat) (begin : Move α) (wake : Option Nat) :
    Option (Option (Reply α) × Sharing α) :=
  (s.nextMove thread begin wake).bind fun move =>
    (s.step move).map fun after => (s.reply? thread, after)

/-- A turn is one move of the sharing. -/
theorem exists_step_of_turn {s after : Sharing α} {thread : Nat} {begin : Move α}
    {wake : Option Nat} {reply : Option (Reply α)}
    (h : s.turn thread begin wake = some (reply, after)) : ∃ move, s.step move = some after := by
  obtain ⟨move, _, h⟩ := Option.bind_eq_some_iff.1 h
  obtain ⟨_, h, heq⟩ := Option.map_eq_some_iff.1 h
  cases heq
  exact ⟨move, h⟩

/-- The threads that the next move of a thread may notify under the fixed schedule: nobody, the
first taker, or the first producer. -/
def wakes (s : Sharing α) : List (Option Nat) :=
  [none, s.firstParked Call.isTake, s.firstParked Call.isPut]

end Sharing

end StaticHttp
