import StaticHttp.Metrics.Snapshot
import StaticHttp.Proofs.Metrics.History
import Mathlib.Data.List.Sort
import Mathlib.Order.Bounds.Basic

/-!
# The statistics of a snapshot

A snapshot counts the whole history, and its statistics are those of the latencies that are kept
(`Collectors.snapshot_of_clones`). They are taken from the sorted latencies, where the place of an
entry says how many entries are less (`countP_lt_getElem_le`) and how many are not greater
(`lt_countP_getElem_le`).

`Metrics.snapshot?` looks up and divides where `Metrics.snapshot` does, and fails where a place is
out of range or a divisor is zero; this never happens (`Metrics.snapshot?_eq`).
-/

namespace StaticHttp

/-! ## Snapshots that can fail -/

/-- The entry at the place of a percentile, unless there is none there. -/
def percentile? (sorted : List Nat) (percent : Nat) : Option Nat :=
  if sorted.isEmpty then some 0
  else sorted[min (sorted.length * percent / 100) (sorted.length - 1)]?

/-- The whole part of a quotient, unless the divisor is zero. -/
def quotient? (n d : Nat) : Option Nat := if d = 0 then none else some (n / d)

/-- The whole part of the mean, unless the divisor is zero. -/
def mean? (values : List Nat) : Option Nat :=
  if values.isEmpty then some 0 else quotient? (total id values) values.length

/-- The counters and statistics at this moment, unless a place is out of range or a divisor is
zero. -/
def Metrics.snapshot? (m : Metrics) (uptimeSeconds : Nat) : Option Snapshot := do
  let sorted := m.latencies.toList.mergeSort
  let latencyMean ← mean? sorted
  let latencyMedian ← percentile? sorted 50
  let latencyPercentile99 ← percentile? sorted 99
  return { uptimeSeconds
           totalResponses := m.totalResponses
           statusCounts := m.statusCounts
           rejected := m.rejected
           ioFailures := m.ioFailures
           bodyBytes := m.bodyBytes
           latencyMean
           latencyMedian
           latencyPercentile99
           latencyGreatest := sorted.getLast?.getD 0 }

theorem getElem?_percentile {sorted : List Nat} (nonempty : sorted ≠ []) (percent : Nat) :
    sorted[min (sorted.length * percent / 100) (sorted.length - 1)]? =
      some (percentile sorted percent) := by
  have found : min (sorted.length * percent / 100) (sorted.length - 1) < sorted.length :=
    Nat.lt_of_le_of_lt (Nat.min_le_right _ _)
      (Nat.sub_one_lt_of_lt (List.length_pos_of_ne_nil nonempty))
  rw [percentile, List.getElem?_eq_getElem found, Option.getD_some]

theorem percentile?_eq (sorted : List Nat) (percent : Nat) :
    percentile? sorted percent = some (percentile sorted percent) := by
  cases sorted with
  | nil => rfl
  | cons first rest => exact getElem?_percentile (List.cons_ne_nil first rest) percent

theorem mean?_eq (values : List Nat) : mean? values = some (mean values) := by
  cases values with
  | nil => rfl
  | cons => rfl

theorem Metrics.snapshot?_eq (m : Metrics) (uptimeSeconds : Nat) :
    m.snapshot? uptimeSeconds = some (m.snapshot uptimeSeconds) := by
  simp only [snapshot?, mean?_eq, percentile?_eq]
  rfl

/-! ## Places in a sorted list -/

section Places

variable {sorted : List Nat} {i : Nat}

theorem countP_lt_getElem_le (ascending : sorted.SortedLE) (hi : i < sorted.length) :
    sorted.countP (· < sorted[i]) ≤ i := by
  have above : (sorted.drop i).countP (· < sorted[i]) = 0 := by
    refine List.countP_eq_zero.mpr fun value found => ?_
    obtain ⟨j, hj, rfl⟩ := List.mem_iff_getElem.mp found
    rw [List.getElem_drop, decide_eq_true_eq, Nat.not_lt]
    exact ascending.getElem_le_getElem_of_le (Nat.le_add_right i j)
  calc sorted.countP (· < sorted[i])
      = (sorted.take i).countP (· < sorted[i]) + (sorted.drop i).countP (· < sorted[i]) := by
        rw [← List.countP_append, List.take_append_drop]
    _ ≤ (sorted.take i).length := by
        rw [above]
        exact List.countP_le_length
    _ ≤ i := List.length_take_le i sorted

theorem lt_countP_getElem_le (ascending : sorted.SortedLE) (hi : i < sorted.length) :
    i < sorted.countP (· ≤ sorted[i]) := by
  have upTo : (sorted.take (i + 1)).countP (· ≤ sorted[i]) = (sorted.take (i + 1)).length := by
    refine List.countP_eq_length.mpr fun value found => ?_
    obtain ⟨j, hj, rfl⟩ := List.mem_iff_getElem.mp found
    rw [List.getElem_take, decide_eq_true_eq]
    rw [List.length_take] at hj
    exact ascending.getElem_le_getElem_of_le (by omega)
  calc i < (sorted.take (i + 1)).length := by
        rw [List.length_take]
        omega
    _ = (sorted.take (i + 1)).countP (· ≤ sorted[i]) := upTo.symm
    _ ≤ sorted.countP (· ≤ sorted[i]) := (List.take_sublist _ _).countP_le

end Places

/-- One of the values: at most `percent` hundredths of them, rounded down, are less, and more than
that are not greater. -/
structure IsPercentile (values : List Nat) (percent value : Nat) : Prop where
  mem : value ∈ values
  less : values.countP (· < value) ≤ values.length * percent / 100
  notGreater : values.length * percent / 100 < values.countP (· ≤ value)

theorem IsPercentile.perm {values others : List Nat} {percent value : Nat}
    (perm : values.Perm others) (percentile : IsPercentile values percent value) :
    IsPercentile others percent value where
  mem := perm.mem_iff.mp percentile.mem
  less := by
    rw [← perm.countP_eq, ← perm.length_eq]
    exact percentile.less
  notGreater := by
    rw [← perm.countP_eq, ← perm.length_eq]
    exact percentile.notGreater

section Sorted

variable {sorted : List Nat}

theorem isPercentile_percentile (ascending : sorted.SortedLE) (nonempty : sorted ≠ [])
    {percent : Nat} (part : percent < 100) :
    IsPercentile sorted percent (percentile sorted percent) := by
  have place : min (sorted.length * percent / 100) (sorted.length - 1) =
      sorted.length * percent / 100 := by
    have := Nat.mul_lt_mul_of_pos_left part (List.length_pos_of_ne_nil nonempty)
    omega
  have entry := getElem?_percentile nonempty percent
  rw [place] at entry
  obtain ⟨found, entry⟩ := List.getElem?_eq_some_iff.mp entry
  rw [← entry]
  exact
    { mem := List.getElem_mem found
      less := countP_lt_getElem_le ascending found
      notGreater := lt_countP_getElem_le ascending found }

/-- A greater part of the values has no lesser percentile. -/
theorem percentile_mono (ascending : sorted.SortedLE) {p q : Nat} (le : p ≤ q) :
    percentile sorted p ≤ percentile sorted q := by
  rcases eq_or_ne sorted [] with rfl | nonempty
  · exact Nat.le_refl 0
  · obtain ⟨_, lower⟩ := List.getElem?_eq_some_iff.mp (getElem?_percentile nonempty p)
    obtain ⟨_, upper⟩ := List.getElem?_eq_some_iff.mp (getElem?_percentile nonempty q)
    rw [← lower, ← upper]
    have place : sorted.length * p / 100 ≤ sorted.length * q / 100 :=
      Nat.div_le_div_right (Nat.mul_le_mul_left _ le)
    exact ascending.getElem_le_getElem_of_le (by omega)

theorem isLeast_head (ascending : sorted.SortedLE) (nonempty : sorted ≠ []) :
    IsLeast {value | value ∈ sorted} (sorted.head nonempty) := by
  refine ⟨List.head_mem nonempty, fun value found => ?_⟩
  obtain ⟨i, hi, rfl⟩ := List.mem_iff_getElem.mp found
  rw [List.head_eq_getElem]
  exact ascending.getElem_le_getElem_of_le (Nat.zero_le i)

theorem isGreatest_getLast (ascending : sorted.SortedLE) (nonempty : sorted ≠ []) :
    IsGreatest {value | value ∈ sorted} (sorted.getLast?.getD 0) := by
  rw [List.getLast?_eq_some_getLast nonempty, Option.getD_some]
  refine ⟨List.getLast_mem nonempty, fun value found => ?_⟩
  obtain ⟨i, hi, rfl⟩ := List.mem_iff_getElem.mp found
  rw [List.getLast_eq_getElem]
  exact ascending.getElem_le_getElem_of_le (Nat.le_sub_one_of_lt hi)

end Sorted

section Mean

variable {values : List Nat}

/-- The mean is rounded down. -/
theorem mean_mul_length_le (values : List Nat) : mean values * values.length ≤ total id values :=
  Nat.div_mul_le_self _ _

theorem lt_mean_add_one_mul (nonempty : values ≠ []) :
    total id values < (mean values + 1) * values.length := by
  rw [Nat.mul_comm]
  exact Nat.lt_mul_div_succ _ (List.length_pos_of_ne_nil nonempty)

theorem mean_le {greatest : Nat} (bound : greatest ∈ upperBounds {value | value ∈ values}) :
    mean values ≤ greatest :=
  Nat.div_le_of_le_mul (total_le_length_mul fun _ found => bound found)

theorem le_mean (nonempty : values ≠ []) {least : Nat}
    (bound : least ∈ lowerBounds {value | value ∈ values}) : least ≤ mean values := by
  rw [mean, Nat.le_div_iff_mul_le (List.length_pos_of_ne_nil nonempty), Nat.mul_comm]
  exact length_mul_le_total fun _ found => bound found

theorem mean_perm {others : List Nat} (perm : values.Perm others) : mean values = mean others := by
  rw [mean, mean, total_perm id perm, perm.length_eq]

end Mean

/-! ## Snapshots of a history -/

namespace Snapshot

/-- The counters of a snapshot cover these events. -/
structure Counts (s : Snapshot) (events : List Event) : Prop where
  responses_eq : s.totalResponses = events.countP (·.isResponse)
  status_eq : ∀ status, s.statusCounts.get status = events.countP (·.hasStatus status)
  status_total : total s.statusCounts.get Status.all = s.totalResponses
  rejected_eq : s.rejected = events.count .rejected
  ioFailures_eq : s.ioFailures = events.count .ioFailure
  bodyBytes_eq : s.bodyBytes = total (·.bodyBytes) events

/-- The statistics of a snapshot are those of these latencies, of which there are some. -/
structure Summarises (s : Snapshot) (latencies : List Nat) : Prop where
  /-- The mean is rounded down. -/
  mean_floor : s.latencyMean * latencies.length ≤ total id latencies ∧
    total id latencies < (s.latencyMean + 1) * latencies.length
  median : IsPercentile latencies 50 s.latencyMedian
  percentile99 : IsPercentile latencies 99 s.latencyPercentile99
  greatest : IsGreatest {latency | latency ∈ latencies} s.latencyGreatest
  least : ∃ least, IsLeast {latency | latency ∈ latencies} least ∧
    least ≤ s.latencyMedian ∧ least ≤ s.latencyMean
  median_le : s.latencyMedian ≤ s.latencyPercentile99
  percentile99_le : s.latencyPercentile99 ≤ s.latencyGreatest
  mean_le : s.latencyMean ≤ s.latencyGreatest

/-- There were no latencies. -/
def Idle (s : Snapshot) : Prop :=
  s.latencyMean = 0 ∧ s.latencyMedian = 0 ∧ s.latencyPercentile99 = 0 ∧ s.latencyGreatest = 0

end Snapshot

namespace Metrics

theorem counts_snapshot (events : List Event) (uptimeSeconds : Nat) :
    ((recordAll {} events).snapshot uptimeSeconds).Counts events where
  responses_eq := count_recordAll_eq_countP Event.weight_responses events
  status_eq := fun s => count_recordAll_eq_countP (Event.weight_status s) events
  status_total := total_status_recordAll events
  rejected_eq := count_recordAll_eq_countP Event.weight_rejected events
  ioFailures_eq := count_recordAll_eq_countP Event.weight_ioFailures events
  bodyBytes_eq := (count_recordAll events .bodyBytes).trans
    (congrArg (total · events) (funext Event.weight_bodyBytes))

theorem summarises_snapshot (m : Metrics) (uptimeSeconds : Nat) (kept : m.latencies.toList ≠ []) :
    (m.snapshot uptimeSeconds).Summarises m.latencies.toList := by
  rw [snapshot]
  generalize m.latencies.toList = latencies at kept ⊢
  have perm := List.mergeSort_perm latencies (· ≤ ·)
  have ascending : latencies.mergeSort.SortedLE := List.sortedLE_mergeSort
  have nonempty : latencies.mergeSort ≠ [] := fun empty => kept (List.nil_perm.mp (empty ▸ perm))
  have same : {latency | latency ∈ latencies.mergeSort} = {latency | latency ∈ latencies} :=
    Set.ext fun _ => perm.mem_iff
  have mean_eq : mean latencies.mergeSort = mean latencies := mean_perm perm
  have median : IsPercentile latencies 50 (percentile latencies.mergeSort 50) :=
    (isPercentile_percentile ascending nonempty (by decide)).perm perm
  have percentile99 : IsPercentile latencies 99 (percentile latencies.mergeSort 99) :=
    (isPercentile_percentile ascending nonempty (by decide)).perm perm
  have least := isLeast_head ascending nonempty
  have greatest := isGreatest_getLast ascending nonempty
  rw [same] at least greatest
  exact
    { mean_floor := mean_eq ▸ ⟨mean_mul_length_le _, lt_mean_add_one_mul kept⟩
      median
      percentile99
      greatest
      least := ⟨_, least, least.2 median.mem, mean_eq ▸ le_mean kept least.2⟩
      median_le := percentile_mono ascending (by decide)
      percentile99_le := greatest.2 percentile99.mem
      mean_le := mean_eq ▸ mean_le greatest.2 }

theorem idle_snapshot (m : Metrics) (uptimeSeconds : Nat) (kept : m.latencies.toList = []) :
    (m.snapshot uptimeSeconds).Idle := by
  have empty : m.latencies.toList.mergeSort = [] := by rw [kept, List.mergeSort_nil]
  simp only [Snapshot.Idle, snapshot, empty]
  exact ⟨rfl, rfl, rfl, rfl⟩

end Metrics

/-- What is shown of the latencies of a history: the last ones, in order. -/
structure Shows (latencies : List Nat) (events : List Event) : Prop where
  suffix : latencies <:+ events.filterMap (·.latency?)
  length_eq : latencies.length = min (events.countP (·.isResponse)) 10000

/-- A snapshot that is taken through any clone of a collector, after any history of events through
any of its clones, does not fail; it counts the whole history, and its statistics are those of the
last latencies. -/
theorem Collectors.snapshot_of_clones {c : Collectors} {events : List Event}
    (clones : c.Clones events) {handle : Nat} (held : handle < c.handles.length)
    (uptimeSeconds : Nat) :
    let m := c.behind handle
    let s := m.snapshot uptimeSeconds
    m.snapshot? uptimeSeconds = some s ∧
      Shows m.latencies.toList events ∧
      s.Counts events ∧
      (m.latencies.toList ≠ [] → s.Summarises m.latencies.toList) ∧
      (m.latencies.toList = [] → s.Idle) := by
  intro m s
  have counted : m = Metrics.recordAll {} events := clones.behind_eq held
  have kept := Metrics.toList_latencies_recordAll events
  rw [← counted] at kept
  refine ⟨m.snapshot?_eq _, ⟨?_, ?_⟩, ?_, m.summarises_snapshot _, m.idle_snapshot _⟩
  · rw [kept]
    exact latest_suffix _
  · rw [kept, length_latest, length_latencies]
    rfl
  · simp only [s, counted]
    exact Metrics.counts_snapshot events uptimeSeconds

/-- Two clones report, and a third one that is made between, through which the snapshot is taken. -/
theorem Collectors.snapshot_of_clones_shared :
    let history : List Event := [.response .ok 7 ⟨0, 3999⟩, .rejected, .response .notFound 0 ⟨1, 0⟩]
    let c := (((start.recordThrough 0 (.response .ok 7 ⟨0, 3999⟩)).recordThrough 1 .rejected).cloneOf
      1).recordThrough 0 (.response .notFound 0 ⟨1, 0⟩)
    let s := (c.behind 2).snapshot 5
    c.Clones history ∧ 2 < c.handles.length ∧ (c.behind 2).latencies.toList = [3, 1000000] ∧
      (c.behind 2).snapshot? 5 = some s ∧ Shows [3, 1000000] history ∧ s.Counts history ∧
      s.Summarises [3, 1000000] := by
  intro history c s
  have clones : c.Clones history :=
    .record (.clone (.record (.record .start (by decide) _) (by decide) _) (by decide)) (by decide) _
  have held : 2 < c.handles.length := by decide
  have kept : (c.behind 2).latencies.toList = [3, 1000000] := by decide +kernel
  obtain ⟨found, shows, counts, summarises, _⟩ := snapshot_of_clones clones held 5
  rw [kept] at shows summarises
  exact ⟨clones, held, kept, found, shows, counts, summarises (List.cons_ne_nil _ _)⟩

end StaticHttp
