import StaticHttp.Proofs.Handling
import StaticHttp.Proofs.Total
import Mathlib.Data.List.Forall2
import Mathlib.Data.List.Induction

/-!
# The accounts of a collector

Connections are handled one after the other, each from the files of its moment, and counted by one
collector that was new before the first (`handleAll`). What is counted of a connection can be told
from its result and its log (`Job.count_handle`), so that in the end every counter is a sum over
what became of the connections (`accounts_handleAll`): each of them is in one counter, unless it
brought its worker down, and the bytes of bodies that were not sent whole are in none.
-/

namespace StaticHttp

/-- The bytes accepted behind the first buffer, which is the head. -/
def Log.body (log : Log) : Bytes := log.transfers.reverse.tail.flatMap (·.accepted)

namespace Handled

def isAnswered (done : Handled) : Bool :=
  match done.result with
  | .ok _ => true
  | _ => false

def hasStatus (status : Status) (done : Handled) : Bool :=
  match done.result with
  | .ok sent => sent == status
  | _ => false

/-- The request was empty or malformed. -/
def isRejected (done : Handled) : Bool :=
  match done.result with
  | .error (.error .empty) | .error (.error (.malformed _)) => true
  | _ => false

def isIoFailure (done : Handled) : Bool :=
  match done.result with
  | .error (.error (.io _)) => true
  | _ => false

/-- A read brought the worker down. -/
def isCrash (done : Handled) : Bool :=
  match done.result with
  | .error .crash => true
  | _ => false

/-- What a connection that was handled has added to a counter. -/
def weight (k : Counter) (done : Handled) : Nat :=
  match k with
  | .responses => done.isAnswered.toNat
  | .status s => (done.hasStatus s).toNat
  | .rejected => done.isRejected.toNat
  | .ioFailures => done.isIoFailure.toNat
  | .bodyBytes => if done.isAnswered then done.log.body.length else 0

end Handled

/-- Who did not come down was answered, rejected, or failed, and one of these alone. -/
theorem Handled.kinds (done : Handled) :
    done.isAnswered.toNat + done.isRejected.toNat + done.isIoFailure.toNat =
      (!done.isCrash).toNat := by
  unfold isAnswered isRejected isIoFailure isCrash
  rcases done.result with (e | _) | status
  · cases e <;> rfl
  · rfl
  · rfl

/-- A connection on which nothing has happened yet, with what is served when it is handled and the
time that this takes. -/
structure Job where
  site : Site
  connection : Connection
  fresh : connection.log = {}
  elapsed : Duration

/-- What became of connections that were handled one after the other, and what was counted. -/
structure Journal where
  handled : List Handled := []
  metrics : Metrics := {}

namespace Job

def handle (job : Job) (metrics : Metrics) : Handled :=
  job.site.handle job.connection job.elapsed metrics

end Job

/-- One more connection is handled. -/
def Journal.next (journal : Journal) (job : Job) : Journal :=
  { handled := journal.handled ++ [job.handle journal.metrics]
    metrics := (job.handle journal.metrics).metrics }

/-- Connections are handled one after the other, and counted by a new collector. -/
def handleAll (jobs : List Job) : Journal := jobs.foldl Journal.next {}

theorem handleAll_concat (jobs : List Job) (job : Job) :
    handleAll (jobs ++ [job]) = (handleAll jobs).next job := by
  simp only [handleAll, List.foldl_append, List.foldl_cons, List.foldl_nil]

/-! ## One connection -/

/-- What became of a connection, of which this answer was given. -/
structure Job.Delivered (job : Job) (answer : Status × Nat) (log : Log) : Prop where
  /-- The request was read, an outcome was found for it, and the answer is that outcome's. -/
  found : ∃ resource outcome, (readRequest job.connection).1 = .ok resource ∧
    resolve job.site.files job.site.served resource = .ok outcome ∧
    answer = (outcome.status, outcome.size) ∧
    log.written = (Head.ofOutcome outcome).toBytes ++ log.body ∧
    log.body = outcome.body job.site.files
  length_eq : log.body.length = answer.2

/-- What can be told of a connection that was handled. -/
structure Job.Accounted (job : Job) (done : Handled) : Prop where
  result_eq : done.result = (job.site.serve job.connection).1.map (·.1)
  closed_eq : done.log.closed = 1
  delivered : ∀ answer, (job.site.serve job.connection).1 = .ok answer →
    job.Delivered answer done.log
  /-- A connection without a proper request is written nothing. -/
  silent : done.isRejected = true → done.log.transfers = []
  crash_iff : done.isCrash = true ↔ (readRequest job.connection).1 = .error .crash

namespace Job

/-- What is answered of a new connection has been delivered. -/
private theorem delivered (job : Job) (answer : Status × Nat)
    (answered : (job.site.serve job.connection).1 = .ok answer) :
    job.Delivered answer (job.site.serve job.connection).2.close := by
  have ends := job.site.serves job.connection
  rw [answered] at ends
  generalize (job.site.serve job.connection).2 = after at ends
  cases ends with
  | @answered resource outcome _ c' _ reads request resolved ends =>
    obtain ⟨rfl, deliverable, ts, rest, sent, rfl⟩ := ends.of_ok
    obtain ⟨t, parts, rfl, head, tail⟩ := sent.split_first
    rw [StaticHttp.flatten_buffers] at tail
    have fresh : c'.log.transfers = [] := by
      obtain ⟨_, _, rfl⟩ := reads
      exact congrArg Log.transfers job.fresh
    have transfers : (c'.sending (t :: parts) rest).flushed.close.transfers.reverse =
        t :: parts := by
      show ((t :: parts).reverse ++ c'.log.transfers).reverse = _
      rw [fresh, List.append_nil, List.reverse_reverse]
    have body : (c'.sending (t :: parts) rest).flushed.close.body =
        outcome.body job.site.files := by
      rw [Log.body, transfers]
      exact tail
    refine ⟨⟨resource, outcome, request, resolved, rfl, ?_, body⟩, ?_⟩
    · rw [body, Log.written, transfers, List.flatMap_cons, head, tail]
    · rw [body]
      exact Outcome.length_body_of_deliverable deliverable

/-- A connection on which an error other than that of its input or output is reported has been
written nothing. -/
private theorem transfers_eq_nil (job : Job) {abort : Abort}
    (unread : (readRequest job.connection).1 = .error abort) :
    (job.site.serve job.connection).2.close.transfers = [] := by
  have ends := job.site.serves job.connection
  generalize (job.site.serve job.connection).1 = answer at ends
  generalize (job.site.serve job.connection).2 = after at ends
  cases ends with
  | unread reads =>
    obtain ⟨_, _, rfl⟩ := reads
    exact congrArg Log.transfers job.fresh
  | unresolved _ request | unanswered _ request | answered _ request =>
    cases unread.symm.trans request

/-- A connection that is rejected, or brings its worker down, is one whose request was not read. -/
private theorem request_of_rejected (job : Job) {abort : Abort}
    (answer : (job.site.serve job.connection).1 = .error abort)
    (noFailure : ∀ e, abort ≠ .error (.io e)) :
    (readRequest job.connection).1 = .error abort := by
  have ends := job.site.serves job.connection
  rw [answer] at ends
  generalize (job.site.serve job.connection).2 = after at ends
  cases ends with
  | unread _ request => exact request
  | unresolved | unanswered => exact absurd rfl (noFailure _)

theorem handle_accounted (job : Job) (metrics : Metrics) : job.Accounted (job.handle metrics) where
  result_eq := rfl
  closed_eq := by
    show (job.site.serve job.connection).2.close.closed = 1
    rw [Site.closed_once, job.fresh]
  delivered := job.delivered
  silent := by
    intro rejected
    show (job.site.serve job.connection).2.close.transfers = []
    simp only [Handled.isRejected, handle, Site.handle_result] at rejected
    cases answer : (job.site.serve job.connection).1 with
    | ok sent =>
      rw [answer] at rejected
      cases rejected
    | error abort =>
      rw [answer] at rejected
      refine job.transfers_eq_nil (job.request_of_rejected answer fun e same => ?_)
      rw [same] at rejected
      cases rejected
  crash_iff := by
    rw [← Site.crashes_iff_request, ← Site.handle_result_eq_crash, Handled.isCrash]
    show _ ↔ (job.handle metrics).result = _
    split
    · next crashed => exact ⟨fun _ => crashed, fun _ => rfl⟩
    · next other => exact ⟨nofun, fun crashed => absurd crashed other⟩

/-- What is counted of a connection can be told from its result and its log. -/
theorem count_handle (job : Job) (metrics : Metrics) (k : Counter) :
    (job.handle metrics).metrics.count k = metrics.count k + (job.handle metrics).weight k := by
  have delivered := job.delivered
  rcases served : job.site.serve job.connection with ⟨answer, after⟩
  simp only [handle, Site.handle, served]
  rw [served] at delivered
  cases answer with
  | ok answer =>
    simp only [eventOf, Metrics.count_record]
    cases k with
    | status s =>
      simp only [Event.weight, Handled.weight, Handled.hasStatus, Except.map]
      cases answer.1 <;> cases s <;> rfl
    | bodyBytes => exact congrArg (metrics.bodyBytes + ·) (delivered answer rfl).length_eq.symm
    | _ => rfl
  | error abort =>
    cases abort with
    | crash => cases k <;> rfl
    | error e => cases e <;> simp only [eventOf, Metrics.count_record] <;> cases k <;> rfl

theorem total_status_handle (job : Job) {metrics : Metrics}
    (agree : total metrics.statusCounts.get Status.all = metrics.totalResponses) :
    total (job.handle metrics).metrics.statusCounts.get Status.all =
      (job.handle metrics).metrics.totalResponses := by
  simp only [handle, Site.handle]
  split
  · exact Metrics.total_status_record _ _ agree
  · exact agree

/-- A connection that brings its worker down is not counted. -/
theorem metrics_of_crash (job : Job) (crash : (readRequest job.connection).1 = .error .crash)
    (metrics : Metrics) : (job.handle metrics).metrics = metrics := by
  have crashes : job.site.crashes job.connection = true := Site.crashes_iff_request.mpr crash
  have answer := Site.crashes_iff.mp crashes
  simp only [handle, Site.handle, answer, eventOf]

end Job

/-! ## All connections -/

/-- Every counter is a sum over what became of the connections. -/
theorem count_handleAll (jobs : List Job) (k : Counter) :
    (handleAll jobs).metrics.count k = total (·.weight k) (handleAll jobs).handled := by
  induction jobs using List.reverseRecOn with
  | nil => exact Metrics.count_empty k
  | append_singleton jobs job ih =>
    rw [handleAll_concat]
    simp only [Journal.next, total_append, total_cons, total_nil, Nat.add_zero]
    rw [job.count_handle, ih]

theorem forall₂_handleAll (jobs : List Job) :
    List.Forall₂ Job.Accounted jobs (handleAll jobs).handled := by
  induction jobs using List.reverseRecOn with
  | nil => exact .nil
  | append_singleton jobs job ih =>
    rw [handleAll_concat]
    exact List.rel_append ih (.cons (job.handle_accounted _) .nil)

theorem total_status_handleAll (jobs : List Job) :
    total (handleAll jobs).metrics.statusCounts.get Status.all =
      (handleAll jobs).metrics.totalResponses := by
  induction jobs using List.reverseRecOn with
  | nil => rfl
  | append_singleton jobs job ih =>
    rw [handleAll_concat]
    exact job.total_status_handle ih

/-- The accounts of a journal of connections that were handled one after the other. -/
structure Journal.Accounts (jobs : List Job) (journal : Journal) : Prop where
  each : List.Forall₂ Job.Accounted jobs journal.handled
  /-- Every connection is in one counter, unless it brought its worker down. -/
  once : journal.metrics.totalResponses + journal.metrics.rejected + journal.metrics.ioFailures =
    journal.handled.countP (!·.isCrash)
  responses_eq : journal.metrics.totalResponses = journal.handled.countP (·.isAnswered)
  status_eq : ∀ s, journal.metrics.statusCounts.get s = journal.handled.countP (·.hasStatus s)
  status_total : total journal.metrics.statusCounts.get Status.all = journal.metrics.totalResponses
  /-- Only bodies that were sent whole are counted. -/
  bodyBytes_eq : journal.metrics.bodyBytes =
    total (·.log.body.length) (journal.handled.filter (·.isAnswered))
  rejected_eq : journal.metrics.rejected = journal.handled.countP (·.isRejected)
  ioFailures_eq : journal.metrics.ioFailures = journal.handled.countP (·.isIoFailure)

/-- The accounts agree after every sequence of connections, whatever their scripts and whatever
becomes of the files between them; and a connection that brings its worker down leaves them as they
are. -/
theorem accounts_handleAll (jobs : List Job) :
    (handleAll jobs).Accounts jobs ∧
    ∀ job : Job, (readRequest job.connection).1 = .error .crash →
      (handleAll (jobs ++ [job])).metrics = (handleAll jobs).metrics := by
  have count := count_handleAll jobs
  have responses : (handleAll jobs).metrics.totalResponses =
      total (·.isAnswered.toNat) (handleAll jobs).handled := count .responses
  have rejected : (handleAll jobs).metrics.rejected =
      total (·.isRejected.toNat) (handleAll jobs).handled := count .rejected
  have ioFailures : (handleAll jobs).metrics.ioFailures =
      total (·.isIoFailure.toNat) (handleAll jobs).handled := count .ioFailures
  refine ⟨⟨forall₂_handleAll jobs, ?_, ?_, ?_, ?_, ?_, ?_, ?_⟩, fun job crash => ?_⟩
  · rw [responses, rejected, ioFailures, ← total_add, ← total_add, ← total_eq_countP]
    exact congrArg (total · _) (funext Handled.kinds)
  · exact responses.trans (total_eq_countP _ _)
  · intro s
    exact (count (.status s)).trans (total_eq_countP _ _)
  · exact total_status_handleAll jobs
  · exact (count .bodyBytes).trans (total_if _ _ _)
  · exact rejected.trans (total_eq_countP _ _)
  · exact ioFailures.trans (total_eq_countP _ _)
  · rw [handleAll_concat]
    exact job.metrics_of_crash crash _

end StaticHttp
