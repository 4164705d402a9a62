import StaticHttp.Metrics.Basic
import StaticHttp.Total

/-!
# Snapshots of the counters

What is reported when the server stops: the counters, and the mean, two percentiles and the greatest
of the latencies that are kept, with the form in which they are written out.
-/

namespace StaticHttp

/-- The counters and the statistics of the latencies at one moment. -/
structure Snapshot where
  uptimeSeconds : Nat
  totalResponses : Nat
  statusCounts : StatusCounts
  rejected : Nat
  ioFailures : Nat
  bodyBytes : Nat
  latencyMean : Nat
  latencyMedian : Nat
  latencyPercentile99 : Nat
  latencyGreatest : Nat
  deriving DecidableEq, Repr

/-- The entry of a sorted list below which `percent` of a hundred parts lie; zero if there is none. -/
def percentile (sorted : List Nat) (percent : Nat) : Nat :=
  (sorted[min (sorted.length * percent / 100) (sorted.length - 1)]?).getD 0

/-- The whole part of the mean; zero if there is nothing. -/
def mean (values : List Nat) : Nat := total id values / values.length

/-- The counters and statistics at this moment. -/
def Metrics.snapshot (m : Metrics) (uptimeSeconds : Nat) : Snapshot :=
  let sorted := m.latencies.toList.mergeSort (fun a b => decide (a ≤ b))
  { uptimeSeconds
    totalResponses := m.totalResponses
    statusCounts := m.statusCounts
    rejected := m.rejected
    ioFailures := m.ioFailures
    bodyBytes := m.bodyBytes
    latencyMean := mean sorted
    latencyMedian := percentile sorted 50
    latencyPercentile99 := percentile sorted 99
    latencyGreatest := sorted.getLast?.getD 0 }

namespace Snapshot

def braces (fields : List (String × String)) : String :=
  "\x7b" ++ ",".intercalate (fields.map fun field => "\"" ++ field.1 ++ "\":" ++ field.2) ++ "\x7d"

def toJson (s : Snapshot) : String :=
  braces
    [("uptime_secs", toString s.uptimeSeconds),
      ("total_responses", toString s.totalResponses),
      ("status_codes", braces (s.statusCounts.seen.map fun (code, n) => (toString code, toString n))),
      ("rejected", toString s.rejected),
      ("io_failures", toString s.ioFailures),
      ("body_bytes", toString s.bodyBytes),
      ("latency_avg_us", toString s.latencyMean),
      ("latency_p50_us", toString s.latencyMedian),
      ("latency_p99_us", toString s.latencyPercentile99),
      ("latency_max_us", toString s.latencyGreatest)]

end Snapshot

end StaticHttp
