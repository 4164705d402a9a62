import StaticHttp.Metrics.Basic
import StaticHttp.Total

/-!
# Counters

`Metrics.count` reads any of the counters. What an event adds to a counter does not depend on what
was counted before (`count_record`), so the counters do not depend on the order of the events.
-/

namespace StaticHttp

/-- The name of a counter. -/
inductive Counter
  | responses
  | status (status : Status)
  | rejected
  | ioFailures
  | bodyBytes
  deriving DecidableEq, Repr

/-- The value of a counter. -/
def Metrics.count (m : Metrics) : Counter → Nat
  | .responses => m.totalResponses
  | .status s => m.statusCounts.get s
  | .rejected => m.rejected
  | .ioFailures => m.ioFailures
  | .bodyBytes => m.bodyBytes

/-- What an event adds to a counter. -/
def Event.weight : Event → Counter → Nat
  | .response .., .responses => 1
  | .response s _ _, .status t => if s = t then 1 else 0
  | .response _ sent _, .bodyBytes => sent
  | .rejected, .rejected => 1
  | .ioFailure, .ioFailures => 1
  | _, _ => 0

namespace Metrics

@[simp] theorem count_empty (k : Counter) : ({} : Metrics).count k = 0 := by
  cases k with
  | status s => cases s <;> rfl
  | _ => rfl

theorem count_record (m : Metrics) (e : Event) (k : Counter) :
    (m.record e).count k = m.count k + e.weight k := by
  cases e with
  | response s sent elapsed =>
    cases k with
    | status t => exact StatusCounts.get_bump m.statusCounts s t
    | _ => rfl
  | rejected | ioFailure => cases k <;> rfl

/-- The status counts add up to the number of responses after an event if they did so before. -/
theorem total_status_record (m : Metrics) (e : Event)
    (agree : total m.statusCounts.get Status.all = m.totalResponses) :
    total (m.record e).statusCounts.get Status.all = (m.record e).totalResponses := by
  cases e with
  | response s sent elapsed =>
    simp only [Status.all, total, StatusCounts.get] at agree
    cases s <;> simp only [record, StatusCounts.bump, Status.all, total, StatusCounts.get] <;> omega
  | rejected | ioFailure => exact agree

/-- The number of events that were counted. -/
def events (m : Metrics) : Nat := m.totalResponses + m.rejected + m.ioFailures

/-- Every event is counted in one counter. -/
theorem events_record (m : Metrics) (e : Event) : (m.record e).events = m.events + 1 := by
  cases e <;> simp only [record, events] <;> omega

end Metrics

end StaticHttp
