import StaticHttp.Metrics.Basic

/-!
# Sharing counters

A collector is a handle on counters. A clone counts into the same counters as the collector it was
made from; a new collector has counters of its own.
-/

namespace StaticHttp

/-- Counters, and the handles on them, the latest first. -/
structure Collectors where
  counters : List Metrics
  /-- The number of the counters behind each handle. -/
  handles : List Nat

namespace Collectors

/-- One collector with new counters, and a clone of it. -/
def start : Collectors := ⟨[{}], [0, 0]⟩

/-- The counters behind a handle, as handles are told from the latest. -/
def behind (c : Collectors) (handle : Nat) : Metrics :=
  match c.handles[handle]? with
  | none => {}
  | some i => (c.counters[i]?).getD {}

/-- Counts an event through a handle. -/
def recordThrough (c : Collectors) (handle : Nat) (e : Event) : Collectors :=
  match c.handles[handle]? with
  | none => c
  | some i => { c with counters := c.counters.modify i (·.record e) }

/-- One more handle on the counters of a handle. -/
def cloneOf (c : Collectors) (handle : Nat) : Collectors :=
  match c.handles[handle]? with
  | none => c
  | some i => { c with handles := i :: c.handles }

/-- The counters behind the latest handle. -/
def latest (c : Collectors) : Metrics := c.behind 0

/-- Counts an event through the latest handle. -/
def record (c : Collectors) (e : Event) : Collectors := c.recordThrough 0 e

/-- One more handle on the counters of the latest. -/
def clone (c : Collectors) : Collectors := c.cloneOf 0

/-- A handle on new counters. -/
def fresh (c : Collectors) : Collectors :=
  ⟨c.counters ++ [({} : Metrics)], c.counters.length :: c.handles⟩

end Collectors

end StaticHttp
