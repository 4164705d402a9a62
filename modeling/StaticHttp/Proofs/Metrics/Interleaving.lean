import StaticHttp.Metrics.Snapshot
import StaticHttp.Proofs.Metrics.History
import Mathlib.Data.List.Sort

/-!
# Metrics do not depend on the order of reports

What an event adds to a counter does not depend on the events before it, so that the counters are
the same in whatever order the workers report (`Metrics.count_recordAll_perm`). The latencies are
shown in the order of the reports, which sorting forgets (`Metrics.sameLatencies_snapshot`); only
which of them are shown depends on it, as soon as there are more than there is room for.
-/

namespace StaticHttp

namespace Snapshot

/-- All counters of two snapshots agree. -/
structure SameCounts (s t : Snapshot) : Prop where
  responses_eq : s.totalResponses = t.totalResponses
  status_eq : ∀ status, s.statusCounts.get status = t.statusCounts.get status
  rejected_eq : s.rejected = t.rejected
  ioFailures_eq : s.ioFailures = t.ioFailures
  bodyBytes_eq : s.bodyBytes = t.bodyBytes

/-- All statistics of two snapshots agree. -/
structure SameLatencies (s t : Snapshot) : Prop where
  mean_eq : s.latencyMean = t.latencyMean
  median_eq : s.latencyMedian = t.latencyMedian
  percentile99_eq : s.latencyPercentile99 = t.latencyPercentile99
  greatest_eq : s.latencyGreatest = t.latencyGreatest

end Snapshot

namespace Metrics

variable {events others : List Event}

theorem count_recordAll_perm (perm : events.Perm others) (k : Counter) :
    (recordAll {} events).count k = (recordAll {} others).count k := by
  rw [count_recordAll, count_recordAll, total_perm _ perm]

/-- As long as there is room, all latencies are shown. -/
theorem toList_latencies_of_few (few : events.countP (·.isResponse) ≤ maxLatencies) :
    (recordAll {} events).latencies.toList = events.filterMap (·.latency?) := by
  rw [toList_latencies_recordAll]
  exact latest_of_length_le (length_latencies events ▸ few)

theorem toList_latencies_recordAll_perm (perm : events.Perm others)
    (few : events.countP (·.isResponse) ≤ maxLatencies) :
    (recordAll {} events).latencies.toList.Perm (recordAll {} others).latencies.toList := by
  rw [toList_latencies_of_few few, toList_latencies_of_few (perm.countP_eq _ ▸ few)]
  exact perm.filterMap _

variable {m n : Metrics} (uptime uptime' : Nat)

theorem sameCounts_snapshot (same : ∀ k, m.count k = n.count k) :
    (m.snapshot uptime).SameCounts (n.snapshot uptime') where
  responses_eq := same .responses
  status_eq := fun s => same (.status s)
  rejected_eq := same .rejected
  ioFailures_eq := same .ioFailures
  bodyBytes_eq := same .bodyBytes

/-- The statistics are taken from the sorted latencies. -/
theorem sameLatencies_snapshot (perm : m.latencies.toList.Perm n.latencies.toList) :
    (m.snapshot uptime).SameLatencies (n.snapshot uptime') := by
  have sorted : m.latencies.toList.mergeSort = n.latencies.toList.mergeSort :=
    List.Perm.eq_of_sortedLE List.sortedLE_mergeSort List.sortedLE_mergeSort
      (((List.mergeSort_perm _ _).trans perm).trans (List.mergeSort_perm _ _).symm)
  rw [snapshot, snapshot, sorted]
  exact ⟨rfl, rfl, rfl, rfl⟩

end Metrics

/-- Whatever clones the same events were reported through, and in whatever order, the snapshots agree
on all counters; and on all statistics, unless there were more responses than latencies are kept. -/
theorem Collectors.snapshot_of_perm {c c' : Collectors} {events events' : List Event}
    (clones : c.Clones events) (clones' : c'.Clones events') (perm : events.Perm events')
    {handle handle' : Nat} (held : handle < c.handles.length)
    (held' : handle' < c'.handles.length) (uptime uptime' : Nat) :
    let s := (c.behind handle).snapshot uptime
    let s' := (c'.behind handle').snapshot uptime'
    s.SameCounts s' ∧ (events.countP (·.isResponse) ≤ 10000 → s.SameLatencies s') := by
  intro s s'
  simp only [s, s', clones.behind_eq held, clones'.behind_eq held']
  refine ⟨Metrics.sameCounts_snapshot uptime uptime' (Metrics.count_recordAll_perm perm), ?_⟩
  intro few
  exact Metrics.sameLatencies_snapshot uptime uptime'
    (Metrics.toList_latencies_recordAll_perm perm few)

/-- Two workers report to clones, and the other way round. -/
theorem Collectors.snapshot_of_perm_two_workers :
    let slow : Event := .response .ok 7 ⟨1, 0⟩
    let fast : Event := .response .notFound 0 ⟨0, 3999⟩
    let c := ((start.recordThrough 0 slow).recordThrough 1 .rejected).recordThrough 0 fast
    let c' := (((start.cloneOf 1).recordThrough 2 fast).recordThrough 0 slow).recordThrough 2 .rejected
    c.Clones [slow, .rejected, fast] ∧ c'.Clones [fast, slow, .rejected] ∧
      ((c.behind 1).snapshot 3).SameCounts ((c'.behind 2).snapshot 5) ∧
      ((c.behind 1).snapshot 3).SameLatencies ((c'.behind 2).snapshot 5) := by
  intro slow fast c c'
  have clones : c.Clones [slow, .rejected, fast] :=
    .record (.record (.record .start (by decide) _) (by decide) _) (by decide) _
  have clones' : c'.Clones [fast, slow, .rejected] :=
    .record (.record (.record (.clone .start (by decide)) (by decide) _) (by decide) _) (by decide) _
  obtain ⟨counts, latencies⟩ := snapshot_of_perm clones clones' (by decide)
    (by decide : 1 < c.handles.length) (by decide : 2 < c'.handles.length) 3 5
  exact ⟨clones, clones', counts, latencies (by decide)⟩

end StaticHttp
