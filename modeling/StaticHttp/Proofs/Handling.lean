import StaticHttp.Handling
import StaticHttp.Proofs.Http.Request
import StaticHttp.Proofs.Http.Response
import StaticHttp.Proofs.Metrics.Counters

/-!
# One connection

`Site.Serves` lists the ways in which serving a connection can end: without a request, without an
outcome, or with an answer to it. None of them closes the connection, so that it is closed once, at
the end of its life (`closed_once`). What handling it adds to a counter depends neither on the time
it took nor on what was counted before (`count_handle`), and one that brings its worker down is not
counted.
-/

namespace StaticHttp

namespace Site

/-- The ways in which serving a connection can end. -/
inductive Serves (site : Site) (c : Connection) :
    Except Abort (Status × Nat) → Connection → Prop
  | unread {abort : Abort} {c' : Connection} (reads : c.Reads c')
      (request : (readRequest c).1 = .error abort) : Serves site c (.error abort) c'
  | unresolved {resource : ResourcePath} {e : IoError} {c' : Connection} (reads : c.Reads c')
      (request : (readRequest c).1 = .ok resource)
      (resolved : resolve site.files site.served resource = .error e) :
      Serves site c (.error (.error (.io e))) c'
  | unanswered {resource : ResourcePath} {outcome : Outcome} {e : IoError} {c' after : Connection}
      (reads : c.Reads c') (request : (readRequest c).1 = .ok resource)
      (resolved : resolve site.files site.served resource = .ok outcome)
      (ends : Responds site.files outcome c' (.error e) after) :
      Serves site c (.error (.error (.io e))) after
  | answered {resource : ResourcePath} {outcome : Outcome} {answer : Status × Nat}
      {c' after : Connection} (reads : c.Reads c') (request : (readRequest c).1 = .ok resource)
      (resolved : resolve site.files site.served resource = .ok outcome)
      (ends : Responds site.files outcome c' (.ok answer) after) : Serves site c (.ok answer) after

/-- Serving ends in one of these ways. -/
theorem serves (site : Site) (c : Connection) :
    site.Serves c (site.serve c).1 (site.serve c).2 := by
  have reads := Connection.reads_readRequest c
  unfold serve
  split <;> rename_i h <;> rw [h] at reads
  · exact .unread reads (congrArg Prod.fst h)
  · split
    · exact .unresolved reads (congrArg Prod.fst h) ‹_›
    · next c' _ outcome resolved =>
      have ends := responds site.files outcome c'
      split <;> rename_i hrespond <;> rw [hrespond] at ends
      · exact .unanswered reads (congrArg Prod.fst h) resolved ends
      · exact .answered reads (congrArg Prod.fst h) resolved ends

/-- Serving a connection does not close it. -/
theorem closed_serve (site : Site) (c : Connection) :
    (site.serve c).2.log.closed = c.log.closed := by
  have request : ∀ {c' : Connection}, c.Reads c' → c'.log.closed = c.log.closed := by
    rintro _ ⟨_, _, rfl⟩
    rfl
  have answer : ∀ {outcome result} {c' after : Connection},
      Responds site.files outcome c' result after → after.log.closed = c'.log.closed := by
    intro outcome result c' after ends
    cases ends <;> rfl
  have ends := site.serves c
  rcases h : site.serve c with ⟨answer, after⟩
  rw [h] at ends
  cases ends with
  | unread reads | unresolved reads => exact request reads
  | unanswered reads _ _ ends | answered reads _ _ ends =>
    exact (answer ends).trans (request reads)

/-- The connection brings down the worker that serves it. -/
def crashes (site : Site) (c : Connection) : Bool :=
  match (site.serve c).1 with
  | .error .crash => true
  | _ => false

theorem crashes_iff {site : Site} {c : Connection} :
    site.crashes c = true ↔ (site.serve c).1 = .error .crash := by
  unfold crashes
  split <;> simp_all

theorem handle_result (site : Site) (c : Connection) (elapsed : Duration) (metrics : Metrics) :
    (site.handle c elapsed metrics).result = (site.serve c).1.map (·.1) := rfl

theorem handle_log (site : Site) (c : Connection) (elapsed : Duration) (metrics : Metrics) :
    (site.handle c elapsed metrics).log = (site.serve c).2.close := rfl

/-- A connection is closed once. -/
theorem closed_once (site : Site) (c : Connection) :
    (site.serve c).2.close.closed = c.log.closed + 1 := congrArg (· + 1) (closed_serve site c)

/-- The result tells whether the connection brought its worker down. -/
theorem handle_result_eq_crash {site : Site} {c : Connection} {elapsed : Duration}
    {metrics : Metrics} :
    (site.handle c elapsed metrics).result = .error .crash ↔ site.crashes c = true := by
  rw [handle_result, crashes_iff]
  cases (site.serve c).1 <;> simp [Except.map]

/-- What a connection adds to a counter when it is handled alone. -/
def alone (site : Site) (k : Counter) (c : Connection) : Nat :=
  (site.handle c {} {}).metrics.count k

/-- What a connection adds to a counter is what it adds when it is handled alone. -/
theorem count_handle (site : Site) (c : Connection) (elapsed : Duration) (metrics : Metrics)
    (k : Counter) :
    (site.handle c elapsed metrics).metrics.count k = metrics.count k + site.alone k c := by
  simp only [alone, handle]
  rcases site.serve c with ⟨answer, c'⟩
  cases answer with
  | ok sent =>
    simp only [eventOf, Metrics.count_record, Metrics.count_empty, Nat.zero_add]
    cases k <;> rfl
  | error abort =>
    cases abort with
    | crash => simp only [eventOf, Metrics.count_empty, Nat.add_zero]
    | error e =>
      cases e <;> simp only [eventOf, Metrics.count_record, Metrics.count_empty, Nat.zero_add]

/-- Handling a connection is one event, unless it brings its worker down. -/
theorem events_handle (site : Site) (c : Connection) (elapsed : Duration) (metrics : Metrics) :
    (site.handle c elapsed metrics).metrics.events = metrics.events + (!site.crashes c).toNat := by
  unfold handle crashes
  rcases site.serve c with ⟨answer, c'⟩
  cases answer with
  | ok sent => exact Metrics.events_record _ _
  | error abort =>
    cases abort with
    | crash => rfl
    | error e => cases e <;> exact Metrics.events_record _ _

/-- Whether a connection brings its worker down does not depend on the files. -/
theorem crashes_iff_request {site : Site} {c : Connection} :
    site.crashes c = true ↔ (readRequest c).1 = .error .crash := by
  rw [crashes_iff]
  have ends := site.serves c
  generalize (site.serve c).1 = answer at ends
  generalize (site.serve c).2 = after at ends
  cases ends with
  | unread _ request =>
    rw [request]
    exact ⟨fun h => by cases h; rfl, fun h => by cases h; rfl⟩
  | unresolved _ request | unanswered _ request | answered _ request =>
    rw [request]
    exact ⟨nofun, nofun⟩

/-- A connection that brings its worker down is not counted. -/
theorem alone_of_crashes {site : Site} {c : Connection} (crashes : site.crashes c = true)
    (k : Counter) : site.alone k c = 0 := by
  have answer := crashes_iff.mp crashes
  simp only [alone, handle, answer, eventOf, Metrics.count_empty]

end Site

end StaticHttp
