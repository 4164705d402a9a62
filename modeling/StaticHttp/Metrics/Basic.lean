import StaticHttp.Http.Status
import StaticHttp.Metrics.Window

/-!
# Counting what the server did

Workers report one event for each connection they finish: a response, a rejected request, or a
failure of input or output. The counters cover the whole history; of the latencies only the last
`maxLatencies` are kept.
-/

namespace StaticHttp

structure Duration where
  seconds : Nat := 0
  nanos : Nat := 0
  deriving DecidableEq, Repr

/-- The whole microseconds of a span, as a 64-bit word. -/
def Duration.micros (d : Duration) : Nat := (d.seconds * 1000000 + d.nanos / 1000) % UInt64.size

/-- What a worker reports of a connection. -/
inductive Event
  /-- A complete response, with its status, the size of its body and the time it took. -/
  | response (status : Status) (bodyBytes : Nat) (elapsed : Duration)
  | rejected
  | ioFailure
  deriving DecidableEq, Repr

structure StatusCounts where
  ok : Nat := 0
  notFound : Nat := 0
  unsupportedMediaType : Nat := 0
  deriving DecidableEq, Repr

namespace StatusCounts

def get (counts : StatusCounts) : Status → Nat
  | .ok => counts.ok
  | .notFound => counts.notFound
  | .unsupportedMediaType => counts.unsupportedMediaType

/-- The numbers with one more for a status. -/
def bump (counts : StatusCounts) : Status → StatusCounts
  | .ok => { counts with ok := counts.ok + 1 }
  | .notFound => { counts with notFound := counts.notFound + 1 }
  | .unsupportedMediaType => { counts with unsupportedMediaType := counts.unsupportedMediaType + 1 }

theorem get_bump (counts : StatusCounts) (s t : Status) :
    (counts.bump s).get t = counts.get t + if s = t then 1 else 0 := by
  cases s <;> cases t <;> rfl

/-- The codes that were seen, in ascending order, with their numbers. -/
def seen (counts : StatusCounts) : List (Nat × Nat) :=
  (Status.all.map fun s => (s.code, counts.get s)).filter (·.2 != 0)

end StatusCounts

def maxLatencies : Nat := 10000

structure Metrics where
  totalResponses : Nat := 0
  statusCounts : StatusCounts := {}
  rejected : Nat := 0
  ioFailures : Nat := 0
  /-- Bytes of the bodies of complete responses. -/
  bodyBytes : Nat := 0
  /-- The latest latencies, in microseconds. -/
  latencies : Window Nat maxLatencies := {}
  deriving DecidableEq, Repr

namespace Metrics

def record (m : Metrics) : Event → Metrics
  | .response status bodyBytes elapsed =>
    { m with
      totalResponses := m.totalResponses + 1
      statusCounts := m.statusCounts.bump status
      bodyBytes := m.bodyBytes + bodyBytes
      latencies := m.latencies.push elapsed.micros }
  | .rejected => { m with rejected := m.rejected + 1 }
  | .ioFailure => { m with ioFailures := m.ioFailures + 1 }

def recordAll (m : Metrics) (events : List Event) : Metrics := events.foldl record m

end Metrics

end StaticHttp
