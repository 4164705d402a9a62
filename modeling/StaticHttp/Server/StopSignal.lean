import StaticHttp.Total

/-!
# Asking a server to stop

A stop signal is raised once and stays raised. Raising it also makes one connection to the server's
own listener, which brings an accept that is waiting back; raising it again does nothing.

Any number of handles stand for one signal. `Handles` keeps a stack of handles on one or more
signals, and says for each operation what it does to them.
-/

namespace StaticHttp

structure StopSignal where
  isRaised : Bool := false
  wakeUps : Nat := 0
  deriving DecidableEq, Repr

def StopSignal.raise (signal : StopSignal) : StopSignal :=
  if signal.isRaised then signal else ⟨true, signal.wakeUps + 1⟩

/-- A raised signal stays as it is. -/
theorem StopSignal.raise_raise (signal : StopSignal) : signal.raise.raise = signal.raise := by
  obtain ⟨isRaised, wakeUps⟩ := signal
  cases isRaised <;> rfl

/-- Handles on signals, one of which is the first. -/
structure Handles where
  /-- The signals, each by its number; the first one has number 0. -/
  signals : List StopSignal
  /-- The signals of the handles in hand, the latest first. -/
  stack : List Nat

/-- An operation on handles. -/
inductive HandleOperation
  | clone
  | fresh
  | drop
  /-- Raise the signal of the latest handle, or the first signal if there is no handle in hand. -/
  | raise
  | check

namespace Handles

/-- One signal and one handle on it in hand. -/
def start : Handles := ⟨[{}], [0]⟩

/-- The number of the signal of the oldest handle. -/
def oldest (h : Handles) : Nat := h.stack.getLast?.getD 0

/-- The number of the signal that raising reaches. -/
def latest (h : Handles) : Nat := h.stack.head?.getD 0

def perform (h : Handles) : HandleOperation → Handles
  | .clone => { h with stack := h.oldest :: h.stack }
  | .fresh => ⟨h.signals ++ [{}], h.signals.length :: h.stack⟩
  | .drop => { h with stack := h.stack.drop 1 }
  | .raise => { h with signals := h.signals.modify h.latest StopSignal.raise }
  | .check => h

def isRaised (h : Handles) (signal : Nat) : Bool := (h.signals[signal]?.getD {}).isRaised

/-- Whether the first signal was raised, and the signal of the latest handle if there is one. -/
def view (h : Handles) : Bool × Option Bool := (h.isRaised 0, h.stack.head?.map h.isRaised)

def wakeUps (h : Handles) : Nat := total StopSignal.wakeUps h.signals

end Handles

end StaticHttp
