import StaticHttp.Metrics.Collectors
import StaticHttp.Proofs.Metrics.Counters
import StaticHttp.Proofs.Total
import Mathlib.Data.List.Induction

/-!
# What collectors have counted

A collector and its clones count one history of events, whichever of them each event went through
(`Collectors.Clones`): behind every one of them are the counters after the whole history
(`Clones.behind_eq`). Those are sums over all events (`count_recordAll`), but of the latencies only
the last ones are kept (`toList_latencies_recordAll`).
-/

namespace StaticHttp

namespace Event

def isResponse : Event → Bool
  | response .. => true
  | rejected | ioFailure => false

def hasStatus (status : Status) : Event → Bool
  | response s _ _ => s == status
  | rejected | ioFailure => false

/-- The bytes of the body of a complete response. -/
def bodyBytes : Event → Nat
  | response _ sent _ => sent
  | rejected | ioFailure => 0

/-- The time that a response took, in whole microseconds, as a 64-bit word. -/
def latency? : Event → Option Nat
  | response _ _ elapsed => some ((elapsed.seconds * 1000000000 + elapsed.nanos) / 1000 % UInt64.size)
  | rejected | ioFailure => none

theorem weight_responses (e : Event) : e.weight .responses = e.isResponse.toNat := by
  cases e <;> rfl

theorem weight_status (s : Status) (e : Event) : e.weight (.status s) = (e.hasStatus s).toNat := by
  cases e with
  | response t sent elapsed => cases s <;> cases t <;> rfl
  | rejected | ioFailure => rfl

theorem weight_rejected (e : Event) : e.weight .rejected = (e == .rejected).toNat := by
  cases e <;> rfl

theorem weight_ioFailures (e : Event) : e.weight .ioFailures = (e == .ioFailure).toNat := by
  cases e <;> rfl

theorem weight_bodyBytes (e : Event) : e.weight .bodyBytes = e.bodyBytes := by
  cases e <;> rfl

end Event

theorem Duration.micros_eq (d : Duration) :
    d.micros = (d.seconds * 1000000000 + d.nanos) / 1000 % UInt64.size := by
  have whole : (d.seconds * 1000000000 + d.nanos) / 1000 = d.seconds * 1000000 + d.nanos / 1000 := by
    omega
  rw [whole, Duration.micros]

open Event in
/-- Every response has a latency, and nothing else has one. -/
theorem length_latencies (events : List Event) :
    (events.filterMap (·.latency?)).length = events.countP (·.isResponse) := by
  induction events with
  | nil => rfl
  | cons e events ih =>
    cases e with
    | response status sent elapsed =>
      have told : (response status sent elapsed).latency? = some _ := rfl
      rw [List.filterMap_cons_some told, List.countP_cons_of_pos rfl, List.length_cons, ih]
    | rejected | ioFailure =>
      rw [List.filterMap_cons_none rfl, List.countP_cons_of_neg Bool.false_ne_true, ih]

section Windows

variable {α : Type} {room : Nat}

/-- What was pushed out before does not matter for what is shown after. -/
theorem latest_latest_append (values : List α) (value : α) :
    latest room (latest room values ++ [value]) = latest room (values ++ [value]) := by
  unfold latest
  rw [← List.drop_append_of_le_length (by omega), List.drop_drop]
  simp only [List.length_drop, List.length_append, List.length_singleton]
  congr 1
  omega

theorem latest_suffix (values : List α) : latest room values <:+ values := List.drop_suffix _ _

theorem length_latest (values : List α) : (latest room values).length = min values.length room := by
  rw [latest, List.length_drop]
  omega

theorem latest_of_length_le {values : List α} (few : values.length ≤ room) :
    latest room values = values := by
  rw [latest, Nat.sub_eq_zero_of_le few, List.drop_zero]

end Windows

namespace Metrics

theorem recordAll_concat (m : Metrics) (events : List Event) (e : Event) :
    m.recordAll (events ++ [e]) = (m.recordAll events).record e := by
  simp only [recordAll, List.foldl_append, List.foldl_cons, List.foldl_nil]

/-- Every counter is a sum over the whole history. -/
theorem count_recordAll (events : List Event) (k : Counter) :
    (recordAll {} events).count k = total (·.weight k) events := by
  induction events using List.reverseRecOn with
  | nil => exact count_empty k
  | append_singleton events e ih =>
    rw [recordAll_concat, count_record, ih, total_append, total_cons, total_nil, Nat.add_zero]

/-- A counter to which some events add one, and the others nothing, is their number. -/
theorem count_recordAll_eq_countP {k : Counter} {p : Event → Bool}
    (weight : ∀ e : Event, e.weight k = (p e).toNat) (events : List Event) :
    (recordAll {} events).count k = events.countP p := by
  rw [count_recordAll, ← total_eq_countP]
  exact congrArg (total · events) (funext weight)

theorem total_status_recordAll (events : List Event) :
    total (recordAll {} events).statusCounts.get Status.all =
      (recordAll {} events).totalResponses := by
  induction events using List.reverseRecOn with
  | nil => rfl
  | append_singleton events e ih =>
    rw [recordAll_concat]
    exact total_status_record _ e ih

/-- Of the latencies, the last ones are kept, in order. -/
theorem toList_latencies_recordAll (events : List Event) :
    (recordAll {} events).latencies.toList =
      latest maxLatencies (events.filterMap (·.latency?)) := by
  induction events using List.reverseRecOn with
  | nil => simp only [recordAll, List.foldl_nil, List.filterMap_nil, Window.toList]
  | append_singleton events e ih =>
    rw [recordAll_concat, List.filterMap_append]
    cases e with
    | response status sent elapsed =>
      have told : (Event.response status sent elapsed).latency? = some elapsed.micros :=
        congrArg some (Duration.micros_eq elapsed).symm
      rw [List.filterMap_cons_some told, List.filterMap_nil, ← latest_latest_append, ← ih]
      exact Window.toList_push _ _
    | rejected | ioFailure =>
      rw [List.filterMap_cons_none rfl, List.filterMap_nil, List.append_nil]
      exact ih

end Metrics

namespace Collectors

/-- All handles are clones of one collector, and these events were counted through them, in this
order. -/
inductive Clones : Collectors → List Event → Prop
  | start : Clones start []
  | clone {c : Collectors} {events : List Event} {handle : Nat} (clones : Clones c events)
      (held : handle < c.handles.length) : Clones (c.cloneOf handle) events
  | record {c : Collectors} {events : List Event} {handle : Nat} (clones : Clones c events)
      (held : handle < c.handles.length) (e : Event) :
      Clones (c.recordThrough handle e) (events ++ [e])

namespace Clones

variable {c : Collectors} {events : List Event}

/-- The clones of one collector share its counters, and these have counted every event. -/
theorem shares (clones : Clones c events) :
    (∀ i ∈ c.handles, i = 0) ∧ c.counters = [Metrics.recordAll {} events] := by
  induction clones with
  | start => exact ⟨by decide, rfl⟩
  | @clone c events handle _ held ih =>
    obtain ⟨same, counters⟩ := ih
    rw [cloneOf, List.getElem?_eq_getElem held]
    refine ⟨List.forall_mem_cons.mpr ⟨same _ (List.getElem_mem held), same⟩, counters⟩
  | @record c events handle _ held e ih =>
    obtain ⟨same, counters⟩ := ih
    rw [recordThrough, List.getElem?_eq_getElem held, same _ (List.getElem_mem held)]
    refine ⟨same, ?_⟩
    rw [counters, Metrics.recordAll_concat]
    rfl

/-- Behind every clone are the counters after the whole history. -/
theorem behind_eq (clones : Clones c events) {handle : Nat} (held : handle < c.handles.length) :
    c.behind handle = Metrics.recordAll {} events := by
  obtain ⟨same, counters⟩ := clones.shares
  rw [behind, List.getElem?_eq_getElem held, same _ (List.getElem_mem held), counters]
  rfl

end Clones

end Collectors

end StaticHttp
