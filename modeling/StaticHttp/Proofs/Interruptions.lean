import StaticHttp.Proofs.Handling
import StaticHttp.Proofs.Http.Reading
import Mathlib.Data.List.Forall2

/-!
# Interruptions do not show

A connection without the interruptions of its script (`Connection.calmed`) goes through the same as
the connection itself: in step with each other they read, write and flush the same, only that it
takes fewer calls (`Connection.Calms`). So it makes no difference to what becomes of a connection
where it is interrupted and how often (`Site.handle_calmed`).
-/

namespace StaticHttp

/-- The write is interrupted, which only asks for another attempt. -/
def WriteStep.isInterruption : WriteStep → Bool
  | .fail e => e.isInterrupted
  | _ => false

/-! ## What is the same with and without interruptions -/

/-- The buffer fared the same, in fewer calls. -/
structure Transfer.Calms (t u : Transfer) : Prop where
  accepted : u.accepted = t.accepted
  pending : u.pending = t.pending
  error : u.error = t.error
  offered : u.offered.Sublist t.offered

/-- The same has happened, in fewer calls. -/
structure Log.Calms (l m : Log) : Prop where
  transfers : List.Forall₂ Transfer.Calms l.transfers m.transfers
  flushes : m.flushes = l.flushes
  unread : m.unread = l.unread
  closed : m.closed = l.closed
  reads : m.reads ≤ l.reads

namespace Connection

/-- The connection without the interruptions of its reads and writes. -/
def calmed (c : Connection) : Connection :=
  { c with
    reads := c.reads.filter (!·.isInterruption)
    writes := c.writes.filter (!·.isInterruption) }

/-- The second connection has no interruptions to come, and is else in step with the first one. -/
structure Calms (c d : Connection) : Prop where
  reads : d.reads = c.reads.filter (!·.isInterruption)
  writes : d.writes = c.writes.filter (!·.isInterruption)
  flushError : d.flushError = c.flushError
  log : c.log.Calms d.log

end Connection

/-- Both have come to the same result, and are in step. -/
inductive InStep {α : Type} : α × Connection → α × Connection → Prop
  | both (result : α) {c d : Connection} (calms : c.Calms d) : InStep (result, c) (result, d)

theorem InStep.fst_eq {α : Type} {p q : α × Connection} (inStep : InStep p q) : q.1 = p.1 := by
  cases inStep
  rfl

theorem InStep.calms {α : Type} {p q : α × Connection} (inStep : InStep p q) : p.2.Calms q.2 := by
  cases inStep
  assumption

variable {c d : Connection}

theorem Transfer.Calms.refl (t : Transfer) : t.Calms t := ⟨rfl, rfl, rfl, .refl _⟩

theorem Log.Calms.refl (log : Log) : log.Calms log :=
  ⟨List.forall₂_same.mpr fun _ _ => .refl _, rfl, rfl, rfl, Nat.le_refl _⟩

theorem Connection.calms_calmed (c : Connection) : c.Calms c.calmed := ⟨rfl, rfl, rfl, .refl _⟩

/-! ## Writing -/

/-- An interrupted write offers the buffer once more, and nothing else comes of it. -/
theorem transfer_calms (steps : List WriteStep) (bs : Bytes) :
    (transfer steps bs).Calms (transfer (steps.filter (!·.isInterruption)) bs) ∧
    (transfer (steps.filter (!·.isInterruption)) bs).rest =
      (transfer steps bs).rest.filter (!·.isInterruption) := by
  fun_induction transfer steps bs with
  | case1 steps =>
    rw [transfer]
    exact ⟨⟨rfl, rfl, rfl, .refl _⟩, rfl⟩
  | case2 b bs =>
    rw [List.filter_nil, transfer]
    exact ⟨⟨rfl, rfl, rfl, .refl _⟩, rfl⟩
  | case3 e rest b bs interrupted t ih =>
    rw [List.filter_cons_of_neg (by simp [WriteStep.isInterruption, interrupted])]
    obtain ⟨same, left⟩ := ih
    exact ⟨⟨same.accepted, same.pending, same.error, same.offered.cons _⟩, left⟩
  | case4 e rest b bs final =>
    rw [List.filter_cons_of_pos (by simp [WriteStep.isInterruption, final]), transfer, if_neg final]
    exact ⟨⟨rfl, rfl, rfl, .refl _⟩, rfl⟩
  | case5 rest b bs =>
    rw [List.filter_cons_of_pos rfl, transfer, if_pos rfl]
    exact ⟨⟨rfl, rfl, rfl, .refl _⟩, rfl⟩
  | case6 count rest b bs some t ih =>
    rw [List.filter_cons_of_pos rfl, transfer, if_neg some]
    obtain ⟨same, left⟩ := ih
    exact ⟨⟨congrArg (_ ++ ·) same.accepted, same.pending, same.error, same.offered.cons_cons _⟩,
      left⟩

theorem send_inStep (bs : Bytes) (calms : c.Calms d) : InStep (c.send bs) (d.send bs) := by
  obtain ⟨same, left⟩ := transfer_calms c.writes bs
  rw [← calms.writes] at same left
  have sent : (c.send bs).2.Calms (d.send bs).2 :=
    ⟨calms.reads, left, calms.flushError,
      { calms.log with transfers := .cons same calms.log.transfers }⟩
  have result : (d.send bs).1 = (c.send bs).1 := by
    simp only [Connection.send, Transfer.result, same.error]
  rw [← Prod.eta (d.send bs), result]
  exact .both _ sent

theorem flush_inStep (calms : c.Calms d) : InStep c.flush d.flush := by
  obtain ⟨reads, writes, flushError, log⟩ := c
  obtain ⟨reads', writes', flushError', log'⟩ := d
  obtain ⟨sameReads, sameWrites, rfl, same⟩ := calms
  have flushed : Connection.Calms
      ⟨reads, writes, flushError', { log with flushes := log.flushes + 1 }⟩
      ⟨reads', writes', flushError', { log' with flushes := log'.flushes + 1 }⟩ :=
    ⟨sameReads, sameWrites, rfl, { same with flushes := congrArg (· + 1) same.flushes }⟩
  cases flushError' <;> exact .both _ flushed

theorem sendBuffers_inStep (buffers : List Bytes) (calms : c.Calms d) :
    InStep (sendBuffers buffers c) (sendBuffers buffers d) := by
  induction buffers generalizing c d with
  | nil => exact .both _ calms
  | cons buffer buffers ih =>
    have first := send_inStep buffer calms
    simp only [sendBuffers]
    generalize c.send buffer = p, d.send buffer = q at first ⊢
    obtain @⟨_ | _, c, d, calms⟩ := first
    · exact .both _ calms
    · have rest := ih calms
      simp only
      generalize sendBuffers buffers c = p, sendBuffers buffers d = q at rest ⊢
      obtain ⟨_ | _, calms⟩ := rest <;> exact .both _ calms

theorem sendBody_inStep (source : Source) (size : Nat) (calms : c.Calms d) :
    InStep (sendBody source size c) (sendBody source size d) := by
  cases source with
  | content bytes => exact sendBuffers_inStep _ calms
  | directory =>
    simp only [sendBody]
    split <;> exact .both _ calms

theorem finish_inStep (status : Status) (sent : Nat) (calms : c.Calms d) :
    InStep (finish status sent c) (finish status sent d) := by
  have flushed := flush_inStep calms
  simp only [finish]
  generalize c.flush = p, d.flush = q at flushed ⊢
  obtain ⟨_ | _, calms⟩ := flushed <;> exact .both _ calms

theorem respond_inStep (fs : FileSystem) (outcome : Outcome) (calms : c.Calms d) :
    InStep (respond fs outcome c) (respond fs outcome d) := by
  have head := send_inStep (Head.ofOutcome outcome).toBytes calms
  cases outcome with
  | notFound | unsupportedType =>
    simp only [respond]
    generalize c.send _ = p, d.send _ = q at head ⊢
    obtain ⟨_ | _, calms⟩ := head
    · exact .both _ calms
    · exact finish_inStep _ _ calms
  | found path size mime =>
    simp only [respond]
    cases fs.openFile path with
    | error e => exact .both _ calms
    | ok source =>
      simp only
      generalize c.send _ = p, d.send _ = q at head ⊢
      obtain @⟨_ | _, c, d, calms⟩ := head
      · exact .both _ calms
      have body := sendBody_inStep source size calms
      simp only
      generalize sendBody source size c = p, sendBody source size d = q at body ⊢
      obtain ⟨_ | sent, calms⟩ := body
      · exact .both _ calms
      by_cases whole : sent = size
      · simp only [if_pos whole]
        exact finish_inStep _ _ calms
      · simp only [if_neg whole]
        exact .both _ calms

/-! ## Reading -/

theorem filter_leaving (left : Bytes) (rest : List ReadStep) :
    (Connection.leaving left rest).filter (!·.isInterruption) =
      Connection.leaving left (rest.filter (!·.isInterruption)) := by
  unfold Connection.leaving
  split
  · rfl
  · exact List.filter_cons_of_pos rfl

/-- A read that is not interrupted brings the same. -/
theorem read_inStep {limit : Nat} (calms : c.Calms d)
    (final : (c.read limit).1.isInterrupted = false) : InStep (c.read limit) (d.read limit) := by
  obtain ⟨reads, writes, flushError, log⟩ := c
  obtain ⟨reads', writes', flushError', log'⟩ := d
  obtain ⟨rfl, writes, flushError, same⟩ := calms
  have counted : Log.Calms { log with reads := log.reads + 1 }
      { log' with reads := log'.reads + 1 } :=
    { same with reads := Nat.succ_le_succ same.reads }
  cases reads with
  | nil => exact .both _ ⟨rfl, writes, flushError, counted⟩
  | cons step rest =>
    cases step with
    | data bytes =>
      exact .both _ ⟨(filter_leaving _ _).symm, writes, flushError, counted⟩
    | fail e =>
      have kept : (ReadStep.fail e :: rest).filter (!·.isInterruption) =
          .fail e :: rest.filter (!·.isInterruption) :=
        List.filter_cons_of_pos (congrArg not final)
      simp only [kept]
      exact .both _ ⟨rfl, writes, flushError, counted⟩
    | eof | crash => exact .both _ ⟨rfl, writes, flushError, counted⟩

/-- A read that is interrupted is one that the other connection does not make. -/
theorem calms_of_interrupted {limit : Nat} (calms : c.Calms d)
    (interrupted : (c.read limit).1.isInterrupted = true) : (c.read limit).2.Calms d := by
  obtain ⟨reads, writes, flushError, log⟩ := c
  have counted : Log.Calms { log with reads := log.reads + 1 } d.log :=
    { calms.log with reads := Nat.le_succ_of_le calms.log.reads }
  cases reads with
  | nil => cases interrupted
  | cons step rest =>
    cases step with
    | fail e =>
      have again : e.isInterrupted = true := interrupted
      have dropped : (ReadStep.fail e :: rest).filter (!·.isInterruption) =
          rest.filter (!·.isInterruption) :=
        List.filter_cons_of_neg (by simp [ReadStep.isInterruption, again])
      exact ⟨calms.reads.trans dropped, calms.writes, calms.flushError, counted⟩
    | data | eof | crash => cases interrupted

/-- Both come to the first read that is not interrupted: the one makes the reads before it alone. -/
theorem readRetrying_inStep {c d : Connection} (calms : c.Calms d) :
    InStep (c.readRetrying bufferSize) (d.readRetrying bufferSize) := by
  rw [Connection.readRetrying_eq c]
  split
  · next interrupted => exact readRetrying_inStep (calms_of_interrupted calms interrupted)
  · next final =>
    have read := read_inStep calms (Bool.eq_false_iff.mpr final)
    rw [Connection.readRetrying_eq d, read.fst_eq, if_neg final]
    exact read
termination_by Connection.pendingReads c.reads
decreasing_by exact Connection.pendingReads_read_lt ‹_›

/-- What one connection reads, the other one reads as well. -/
theorem exists_readRetrying {result : ReadResult} {c' : Connection} (calms : c.Calms d)
    (read : c.readRetrying bufferSize = (result, c')) :
    ∃ d', d.readRetrying bufferSize = (result, d') ∧ c'.Calms d' := by
  have both := readRetrying_inStep calms
  rw [read] at both
  generalize d.readRetrying bufferSize = q at both ⊢
  obtain ⟨_, calms⟩ := both
  exact ⟨_, rfl, calms⟩

theorem drain_inStep (calms : c.Calms d) : InStep (drain c) (drain d) := by
  fun_induction drain c generalizing d with
  | case1 c c' h | case2 c e c' h =>
    obtain ⟨d', read, calms⟩ := exists_readRetrying calms h
    rw [Connection.drain_eq d, read]
    exact .both _ calms
  | case3 c bytes c' h ends =>
    obtain ⟨d', read, calms⟩ := exists_readRetrying calms h
    rw [Connection.drain_of_readRetrying read, if_pos ends]
    exact .both _ calms
  | case4 c bytes c' h full _ ih =>
    obtain ⟨d', read, calms⟩ := exists_readRetrying calms h
    rw [Connection.drain_of_readRetrying read, if_neg full]
    exact ih calms

theorem readRequest_inStep (calms : c.Calms d) : InStep (readRequest c) (readRequest d) := by
  have read := readRetrying_inStep calms
  simp only [readRequest]
  generalize c.readRetrying _ = p, d.readRetrying _ = q at read ⊢
  obtain @⟨result, c, d, calms⟩ := read
  cases result with
  | crashed | failed e => exact .both _ calms
  | bytes bytes =>
    cases bytes with
    | nil => exact .both _ calms
    | cons b bs =>
      simp only
      cases RequestLine.parse (b :: bs) with
      | error fault => exact .both _ calms
      | ok resource =>
        by_cases ends : (b :: bs).length < bufferSize
        · simp only [if_pos ends]
          exact .both _ calms
        have drained := drain_inStep calms
        simp only [if_neg ends]
        generalize drain c = p, drain d = q at drained ⊢
        obtain ⟨_ | _, calms⟩ := drained <;> exact .both _ calms

namespace Site

variable (site : Site)

theorem serve_inStep (calms : c.Calms d) : InStep (site.serve c) (site.serve d) := by
  have request := readRequest_inStep calms
  simp only [serve]
  generalize readRequest c = p, readRequest d = q at request ⊢
  obtain @⟨_ | resource, c, d, calms⟩ := request
  · exact .both _ calms
  simp only
  cases resolve site.files site.served resource with
  | error e => exact .both _ calms
  | ok outcome =>
    have answer := respond_inStep site.files outcome calms
    simp only
    generalize respond site.files outcome c = p, respond site.files outcome d = q at answer ⊢
    obtain ⟨_ | _, calms⟩ := answer <;> exact .both _ calms

end Site

/-! ## The whole life of a connection -/

namespace Log

variable {l m : Log}

theorem Calms.written_eq (calms : l.Calms m) : m.written = l.written := by
  have same : ∀ {ts us : List Transfer}, List.Forall₂ Transfer.Calms ts us →
      us.flatMap (·.accepted) = ts.flatMap (·.accepted) := by
    intro ts us all
    induction all with
    | nil => rfl
    | cons first _ ih => simp only [List.flatMap_cons, first.accepted, ih]
  exact same (List.rel_reverse calms.transfers)

theorem Calms.offered_sublist (calms : l.Calms m) : m.offered.Sublist l.offered := by
  have fewer : ∀ {ts us : List Transfer}, List.Forall₂ Transfer.Calms ts us →
      (us.flatMap (·.offered)).Sublist (ts.flatMap (·.offered)) := by
    intro ts us all
    induction all with
    | nil => exact .refl _
    | cons first _ ih => exact first.offered.append ih
  exact fewer (List.rel_reverse calms.transfers)

end Log

/-- An interruption brings nothing, so that as much is left unread without it. -/
theorem Connection.Calms.close (calms : c.Calms d) : c.close.Calms d.close := by
  have light : ∀ step : ReadStep, (!step.isInterruption) = false → step.size = 0 := by
    intro step interruption
    cases step with
    | data => cases interruption
    | fail | eof | crash => rfl
  refine { calms.log with unread := ?_, closed := congrArg (· + 1) calms.log.closed }
  simp only [Connection.close, calms.reads]
  exact total_filter light

/-- Without the interruptions of its reads and writes a connection comes to the same result, is sent
the same bytes, is left with as much unread, is flushed as often, is closed once and counted the
same. It only takes fewer reads and writes. -/
theorem Site.handle_calmed (site : Site) (c : Connection) (elapsed : Duration) (metrics : Metrics) :
    let noisy := site.handle c elapsed metrics
    let calm := site.handle c.calmed elapsed metrics
    calm.result = noisy.result ∧ calm.metrics = noisy.metrics ∧
    calm.log.written = noisy.log.written ∧ calm.log.unread = noisy.log.unread ∧
    calm.log.flushes = noisy.log.flushes ∧
    noisy.log.closed = c.log.closed + 1 ∧ calm.log.closed = c.log.closed + 1 ∧
    calm.log.reads ≤ noisy.log.reads ∧ calm.log.offered.Sublist noisy.log.offered ∧
    ∀ elapsed' k, (site.handle c.calmed elapsed' metrics).metrics.count k =
      noisy.metrics.count k := by
  intro noisy calm
  have inStep := site.serve_inStep c.calms_calmed
  have closed : noisy.log.Calms calm.log := inStep.calms.close
  have metrics_eq : calm.metrics = noisy.metrics := by
    simp only [calm, noisy, Site.handle]
    generalize site.serve c = p, site.serve c.calmed = q at inStep ⊢
    cases inStep
    rfl
  have result_eq : calm.result = noisy.result :=
    congrArg (fun answer => answer.map Prod.fst) inStep.fst_eq
  refine ⟨result_eq, metrics_eq, closed.written_eq, closed.unread,
    closed.flushes, site.closed_once c, site.closed_once c.calmed, closed.reads,
    closed.offered_sublist, fun elapsed' k => ?_⟩
  rw [← metrics_eq, site.count_handle, site.count_handle]

end StaticHttp
