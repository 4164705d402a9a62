import StaticHttp.Http.Response
import Mathlib.Data.List.Basic

/-!
# What a connection is sent

A response is a list of buffers, the head and the parts of the body, which are written one after the
other until one of them fails. `Sent` says what the script of a connection makes of such a list, and
`Responds` lists the ways in which answering an outcome can end; `responds` says that there are no
others.

The bytes that a connection accepts are therefore the first bytes of the response, whatever its
script and whatever became of the file since it was found (`respond_answers`): a body is never
longer than announced, only a complete one is flushed, and only a flushed one is reported as sent.
-/

namespace StaticHttp

/-! ## One buffer -/

theorem transfer_error_eq_none_iff (steps : List WriteStep) (bs : Bytes) :
    (transfer steps bs).error = none ↔ (transfer steps bs).pending = [] := by
  fun_induction transfer steps bs with
  | case1 | case2 => exact ⟨fun _ => rfl, fun _ => rfl⟩
  | case3 _ _ _ _ _ _ ih => exact ih
  | case4 | case5 => simp only [reduceCtorEq]
  | case6 _ _ _ _ _ _ ih => exact ih

/-- No more is offered than the buffer holds. -/
theorem transfer_offered_le (steps : List WriteStep) (bs : Bytes) :
    ∀ n ∈ (transfer steps bs).offered, n ≤ bs.length := by
  fun_induction transfer steps bs with
  | case1 => exact fun _ h => absurd h List.not_mem_nil
  | case2 | case4 | case5 =>
    intro n h
    exact Nat.le_of_eq (List.mem_singleton.mp h)
  | case3 _ _ _ _ _ _ ih =>
    intro n h
    rcases List.mem_cons.mp h with rfl | h
    · exact Nat.le_refl _
    · exact ih n h
  | case6 count _ b bs _ _ ih =>
    intro n h
    rcases List.mem_cons.mp h with rfl | h
    · exact Nat.le_refl _
    · refine Nat.le_trans (ih n h) ?_
      rw [List.length_drop]
      exact Nat.sub_le _ _

/-- The write lets the transfer of a buffer go on. -/
def WriteStep.goesOn : WriteStep → Bool
  | .accept count => count != 0
  | .fail e => e.isInterrupted

/-- A transfer takes steps off the front. -/
theorem transfer_rest_suffix (steps : List WriteStep) (bs : Bytes) :
    (transfer steps bs).rest <:+ steps := by
  fun_induction transfer steps bs with
  | case1 | case2 => exact List.suffix_rfl
  | case3 _ _ _ _ _ _ ih | case6 _ _ _ _ _ _ ih => exact ih.trans (List.suffix_cons _ _)
  | case4 | case5 => exact List.suffix_cons _ _

theorem transfer_error_of_goesOn (steps : List WriteStep) (bs : Bytes)
    (accepts : ∀ step ∈ steps, step.goesOn = true) : (transfer steps bs).error = none := by
  fun_induction transfer steps bs with
  | case1 | case2 => rfl
  | case3 _ _ _ _ _ _ ih | case6 _ _ _ _ _ _ ih =>
    exact ih fun step h => accepts step (List.mem_cons_of_mem _ h)
  | case4 e _ _ _ notInterrupted => exact absurd (accepts _ List.mem_cons_self) notInterrupted
  | case5 => cases accepts _ List.mem_cons_self

/-! ## Buffers one after the other -/

/-- What becomes of buffers that are written one after the other with these steps to come, and the
error of the last transfer: all of them are taken whole, but for one that fails, which is the last
to be written. -/
inductive Sent : List WriteStep → List Bytes → List Transfer → Option IoError → Prop
  | done (steps : List WriteStep) : Sent steps [] [] none
  | fails {steps : List WriteStep} {buffer : Bytes} (others : List Bytes) {e : IoError}
      (failed : (transfer steps buffer).error = some e) :
      Sent steps (buffer :: others) [transfer steps buffer] (some e)
  | next {steps : List WriteStep} {buffer : Bytes} {others : List Bytes} {ts : List Transfer}
      {error : Option IoError} (fine : (transfer steps buffer).error = none)
      (sent : Sent (transfer steps buffer).rest others ts error) :
      Sent steps (buffer :: others) (transfer steps buffer :: ts) error

namespace Sent

variable {steps : List WriteStep} {buffers : List Bytes} {ts : List Transfer}
  {error : Option IoError}

/-- A buffer that was written without an error was taken whole. -/
private theorem accepted_eq {steps : List WriteStep} {buffer : Bytes}
    (fine : (transfer steps buffer).error = none) : (transfer steps buffer).accepted = buffer := by
  have whole := accepted_append_pending steps buffer
  rwa [(transfer_error_eq_none_iff steps buffer).mp fine, List.append_nil] at whole

theorem accepted_prefix (sent : Sent steps buffers ts error) :
    ts.flatMap (·.accepted) <+: buffers.flatten := by
  induction sent with
  | done => exact List.prefix_rfl
  | @fails steps buffer others e failed =>
    have first : (transfer steps buffer).accepted <+: buffer :=
      ⟨_, accepted_append_pending steps buffer⟩
    simp only [List.flatMap_cons, List.flatMap_nil, List.append_nil, List.flatten_cons]
    exact first.trans (List.prefix_append _ _)
  | next fine _ ih =>
    simp only [List.flatMap_cons, List.flatten_cons, accepted_eq fine]
    exact (List.prefix_append_right_inj _).mpr ih

/-- Everything is accepted if and only if there is no error. -/
theorem accepted_eq_iff (sent : Sent steps buffers ts error) :
    ts.flatMap (·.accepted) = buffers.flatten ↔ error = none := by
  induction sent with
  | done => exact ⟨fun _ => rfl, fun _ => rfl⟩
  | @fails steps buffer others e failed =>
    have whole := accepted_append_pending steps buffer
    have left : (transfer steps buffer).pending ≠ [] := fun none => by
      cases failed.symm.trans ((transfer_error_eq_none_iff steps buffer).mpr none)
    simp only [List.flatMap_cons, List.flatMap_nil, List.append_nil, List.flatten_cons,
      reduceCtorEq, iff_false]
    intro same
    have length_eq := congrArg List.length (whole.trans (List.append_nil buffer).symm)
    have all := congrArg List.length same
    simp only [List.length_append, List.length_nil] at length_eq all
    exact left (List.eq_nil_of_length_eq_zero (by omega))
  | next fine _ ih =>
    simp only [List.flatMap_cons, List.flatten_cons, accepted_eq fine, List.append_cancel_left_eq]
    exact ih

/-- Of buffers that were all taken whole, the first transfer took the first one, and the others took
the rest. -/
theorem split_first {first : Bytes} (sent : Sent steps (first :: buffers) ts none) :
    ∃ t rest, ts = t :: rest ∧ t.accepted = first ∧
      rest.flatMap (·.accepted) = buffers.flatten := by
  cases sent with
  | next fine sent => exact ⟨_, _, rfl, accepted_eq fine, sent.accepted_eq_iff.mpr rfl⟩

/-- The error is that of the transfer that failed. -/
theorem error_eq (sent : Sent steps buffers ts error) {t : Transfer} (ht : t ∈ ts) {e : IoError}
    (failed : t.error = some e) : error = some e := by
  induction sent with
  | done => cases ht
  | fails _ failed' =>
    cases List.mem_singleton.mp ht
    exact failed'.symm.trans failed
  | next fine _ ih =>
    rcases List.mem_cons.mp ht with rfl | ht
    · cases fine.symm.trans failed
    · exact ih ht

/-- Nothing goes wrong where every write lets the transfers go on. -/
theorem error_eq_none (sent : Sent steps buffers ts error)
    (accepts : ∀ step ∈ steps, step.goesOn = true) : error = none := by
  induction sent with
  | done => rfl
  | fails _ failed => cases failed.symm.trans (transfer_error_of_goesOn _ _ accepts)
  | @next steps buffer _ _ _ _ _ ih =>
    exact ih fun step h => accepts step ((transfer_rest_suffix steps buffer).mem h)

/-- No more is offered of any buffer than it holds. -/
theorem offered_le (sent : Sent steps buffers ts error) {limit : Nat}
    (small : ∀ buffer ∈ buffers, buffer.length ≤ limit) :
    ∀ t ∈ ts, ∀ n ∈ t.offered, n ≤ limit := by
  induction sent with
  | done => exact fun _ h => nomatch h
  | @fails steps buffer others =>
    intro t ht n hn
    cases List.mem_singleton.mp ht
    exact Nat.le_trans (transfer_offered_le steps buffer n hn) (small _ List.mem_cons_self)
  | @next steps buffer _ _ _ _ _ ih =>
    intro t ht n hn
    rcases List.mem_cons.mp ht with rfl | ht
    · exact Nat.le_trans (transfer_offered_le steps buffer n hn) (small _ List.mem_cons_self)
    · exact ih (fun buffer hb => small buffer (List.mem_cons_of_mem _ hb)) t ht n hn

end Sent

namespace Connection

/-- The connection after these transfers, with these steps left to write. -/
def sending (c : Connection) (ts : List Transfer) (rest : List WriteStep) : Connection :=
  { c with writes := rest, log := { c.log with transfers := ts.reverse ++ c.log.transfers } }

/-- The connection after a call to flush. -/
def flushed (c : Connection) : Connection :=
  { c with log := { c.log with flushes := c.log.flushes + 1 } }

theorem written_sending (c : Connection) (ts : List Transfer) (rest : List WriteStep) :
    (c.sending ts rest).log.written = c.log.written ++ ts.flatMap (·.accepted) := by
  simp only [sending, Log.written, List.reverse_append, List.reverse_reverse, List.flatMap_append]

end Connection

/-- The result of sending is an error, or the number of bytes in all buffers. -/
def sentResult (buffers : List Bytes) : Option IoError → Except IoError Nat
  | none => .ok buffers.flatten.length
  | some e => .error e

theorem sendBuffers_sent (buffers : List Bytes) (c : Connection) :
    ∃ ts rest error, Sent c.writes buffers ts error ∧
      sendBuffers buffers c = (sentResult buffers error, c.sending ts rest) := by
  induction buffers generalizing c with
  | nil => exact ⟨[], c.writes, none, .done _, rfl⟩
  | cons buffer others ih =>
    cases failed : (transfer c.writes buffer).error with
    | some e =>
      refine ⟨_, (transfer c.writes buffer).rest, some e, .fails others failed, ?_⟩
      simp only [sendBuffers, Connection.send, Transfer.result, failed]
      rfl
    | none =>
      obtain ⟨ts, rest, error, sent, hrest⟩ := ih (c.send buffer).2
      refine ⟨_, rest, error, .next failed sent, ?_⟩
      simp only [Connection.send] at hrest
      simp only [sendBuffers, Connection.send, Transfer.result, failed, hrest]
      have after : ∀ t : Transfer, ts.reverse ++ t :: c.log.transfers =
          (t :: ts).reverse ++ c.log.transfers := by
        intro t
        rw [List.reverse_cons, List.append_assoc, List.singleton_append]
      cases error with
      | none =>
        simp only [sentResult, Connection.sending, after, List.flatten_cons, List.length_append]
      | some e => simp only [sentResult, Connection.sending, after]

/-! ## The parts of a body -/

theorem buffers_nil : buffers [] = [] := by
  rw [buffers, dif_pos rfl]

theorem flatten_buffers (bs : Bytes) : (buffers bs).flatten = bs := by
  fun_induction buffers bs with
  | case1 => rfl
  | case2 _ _ ih => rw [List.flatten_cons, ih, List.take_append_drop]

theorem length_le_of_mem_buffers (bs : Bytes) :
    ∀ buffer ∈ buffers bs, buffer.length ≤ bufferSize := by
  fun_induction buffers bs with
  | case1 => exact fun _ h => nomatch h
  | case2 bs _ ih =>
    intro buffer h
    rcases List.mem_cons.mp h with rfl | h
    · rw [List.length_take]
      exact Nat.min_le_left _ _
    · exact ih buffer h

namespace Source

/-- The first bytes of an open file, at most so many. A directory gives none. -/
def first (size : Nat) : Source → Bytes
  | content bytes => bytes.take size
  | directory => []

/-- An open file can be read for so many bytes. -/
def Gives (size : Nat) : Source → Prop
  | content bytes => size ≤ bytes.length
  | directory => size = 0

/-- Why an open file cannot be read for so many bytes. -/
def shortfall? (size : Nat) : Source → Option IoError
  | content bytes => if size ≤ bytes.length then none else some (fileEnded bytes.length size)
  | directory => if size = 0 then none else some (.system .isADirectory)

theorem shortfall?_eq_none_iff {source : Source} {size : Nat} :
    source.shortfall? size = none ↔ source.Gives size := by
  cases source <;> simp [shortfall?, Gives]

theorem length_first_of_gives {source : Source} {size : Nat} (gives : source.Gives size) :
    (source.first size).length = size := by
  cases source with
  | content bytes =>
    rw [first, List.length_take]
    exact Nat.min_eq_left gives
  | directory => exact (gives : size = 0).symm

theorem length_first_le (source : Source) (size : Nat) : (source.first size).length ≤ size := by
  cases source with
  | content bytes =>
    rw [first, List.length_take]
    exact Nat.min_le_left _ _
  | directory => exact Nat.zero_le _

end Source

/-! ## The response of an outcome -/

namespace Outcome

/-- The status with which an outcome is answered. -/
def status : Outcome → Status
  | found .. => .ok
  | notFound => .notFound
  | unsupportedType => .unsupportedMediaType

/-- The length of the body that an outcome announces. -/
def size : Outcome → Nat
  | found _ size _ => size
  | notFound | unsupportedType => 0

/-- The body of the response, as the file is now. -/
def body (fs : FileSystem) : Outcome → Bytes
  | found path size _ =>
    match fs.openFile path with
    | .ok source => source.first size
    | .error _ => []
  | notFound | unsupportedType => []

/-- Everything that is to be sent, as the file is now. -/
def response (fs : FileSystem) (outcome : Outcome) : Bytes :=
  (Head.ofOutcome outcome).toBytes ++ outcome.body fs

/-- The file of the outcome, if it has one, can be opened. -/
def Opens (fs : FileSystem) : Outcome → Prop
  | found path _ _ => ∃ source, fs.openFile path = .ok source
  | notFound | unsupportedType => True

/-- The file of the outcome, if it has one, opens and can be read for the announced size. -/
def Deliverable (fs : FileSystem) : Outcome → Prop
  | found path size _ => ∃ source, fs.openFile path = .ok source ∧ source.Gives size
  | notFound | unsupportedType => True

/-- The head announces the size. -/
theorem contentLength_mem (outcome : Outcome) :
    ("Content-Length", toString outcome.size) ∈ (Head.ofOutcome outcome).headers := by
  cases outcome with
  | found => exact List.mem_cons_of_mem _ List.mem_cons_self
  | notFound | unsupportedType => exact List.mem_cons_self

theorem length_body_le (fs : FileSystem) (outcome : Outcome) :
    (outcome.body fs).length ≤ outcome.size := by
  cases outcome with
  | found path size mime =>
    simp only [body]
    split
    · exact Source.length_first_le _ size
    · exact Nat.zero_le _
  | notFound | unsupportedType => exact Nat.le_refl 0

theorem length_body_of_deliverable {fs : FileSystem} {outcome : Outcome}
    (deliverable : outcome.Deliverable fs) : (outcome.body fs).length = outcome.size := by
  cases outcome with
  | found path size mime =>
    obtain ⟨source, opened, gives⟩ := deliverable
    simp only [body, opened]
    exact Source.length_first_of_gives gives
  | notFound | unsupportedType => rfl

theorem opens_of_deliverable {fs : FileSystem} {outcome : Outcome}
    (deliverable : outcome.Deliverable fs) : outcome.Opens fs := by
  cases outcome with
  | found path size mime =>
    obtain ⟨source, opened, _⟩ := deliverable
    exact ⟨source, opened⟩
  | notFound | unsupportedType => trivial

theorem not_opens_of_closed {fs : FileSystem} {outcome : Outcome} {path : Path} {size : Nat}
    {mime : String} {e : IoError} (found : outcome = .found path size mime)
    (closed : fs.openFile path = .error e) : ¬ outcome.Opens fs := by
  subst found
  exact fun ⟨_, opened⟩ => nomatch closed.symm.trans opened

theorem not_deliverable_of_shortfall {fs : FileSystem} {outcome : Outcome} {path : Path}
    {size : Nat} {mime : String} {source : Source} {e : IoError}
    (found : outcome = .found path size mime) (opened : fs.openFile path = .ok source)
    (shortfall : source.shortfall? size = some e) : ¬ outcome.Deliverable fs := by
  subst found
  rintro ⟨source', opened', gives⟩
  cases opened.symm.trans opened'
  cases shortfall.symm.trans (Source.shortfall?_eq_none_iff.mpr gives)

/-- The buffers that are written for an outcome: the head, and the parts of the body. -/
def buffers (fs : FileSystem) (outcome : Outcome) : List Bytes :=
  (Head.ofOutcome outcome).toBytes :: StaticHttp.buffers (outcome.body fs)

theorem flatten_buffers (fs : FileSystem) (outcome : Outcome) :
    (outcome.buffers fs).flatten = outcome.response fs := by
  rw [buffers, List.flatten_cons, StaticHttp.flatten_buffers, response]

end Outcome

/-! ## How answering ends -/

/-- The result of flushing a response. -/
def flushResult (outcome : Outcome) : Option IoError → Except IoError (Status × Nat)
  | none => .ok (outcome.status, outcome.size)
  | some e => .error e

/-- The ways in which answering an outcome can end. -/
inductive Responds (fs : FileSystem) (outcome : Outcome) (c : Connection) :
    Except IoError (Status × Nat) → Connection → Prop
  /-- The file cannot be opened. -/
  | unopened {path : Path} {size : Nat} {mime : String} {e : IoError}
      (found : outcome = .found path size mime) (closed : fs.openFile path = .error e) :
      Responds fs outcome c (.error e) c
  /-- A write fails. -/
  | broken {ts : List Transfer} {rest : List WriteStep} {e : IoError}
      (sent : Sent c.writes (outcome.buffers fs) ts (some e)) :
      Responds fs outcome c (.error e) (c.sending ts rest)
  /-- The file does not give what was announced. -/
  | short {path : Path} {size : Nat} {mime : String} {source : Source} {ts : List Transfer}
      {rest : List WriteStep} {e : IoError} (found : outcome = .found path size mime)
      (opened : fs.openFile path = .ok source) (shortfall : source.shortfall? size = some e)
      (sent : Sent c.writes (outcome.buffers fs) ts none) :
      Responds fs outcome c (.error e) (c.sending ts rest)
  | flushed {ts : List Transfer} {rest : List WriteStep} (deliverable : outcome.Deliverable fs)
      (sent : Sent c.writes (outcome.buffers fs) ts none) :
      Responds fs outcome c (flushResult outcome c.flushError) (c.sending ts rest).flushed

/-- Flushing ends the response. -/
private theorem finish_eq (outcome : Outcome) (c : Connection) :
    finish outcome.status outcome.size c = (flushResult outcome c.flushError, c.flushed) := by
  obtain ⟨reads, writes, flushError, log⟩ := c
  cases flushError <;> rfl

/-- An open file is sent like any list of buffers; then its size is looked at. -/
private theorem respond_found {fs : FileSystem} {path : Path} {source : Source}
    (opened : fs.openFile path = .ok source) (size : Nat) (mime : String) (c : Connection) :
    respond fs (.found path size mime) c =
      match sendBuffers ((Outcome.found path size mime).buffers fs) c with
      | (.error e, c) => (.error e, c)
      | (.ok _, c) =>
        match source.shortfall? size with
        | some e => (.error e, c)
        | none =>
          finish (Outcome.found path size mime).status (Outcome.found path size mime).size c := by
  simp only [respond, opened, Outcome.buffers, Outcome.body, sendBuffers]
  rcases c.send (Head.ofOutcome (.found path size mime)).toBytes with ⟨_ | _, c'⟩
  · rfl
  cases source with
  | directory =>
    simp only [sendBody, Source.first, Source.shortfall?, buffers_nil, sendBuffers]
    by_cases empty : size = 0
    · subst empty
      rfl
    · simp only [if_neg empty]
  | content bytes =>
    obtain ⟨ts, rest, error, sent, heq⟩ := sendBuffers_sent (buffers (bytes.take size)) c'
    simp only [sendBody, Source.first, Source.shortfall?, heq]
    cases error with
    | some e => rfl
    | none =>
      simp only [sentResult, flatten_buffers, List.length_take]
      by_cases enough : size ≤ bytes.length
      · rw [Nat.min_eq_left enough, if_pos rfl, if_pos enough]
        rfl
      · rw [Nat.min_eq_right (Nat.le_of_not_le enough), if_neg enough,
          if_neg fun same => enough (Nat.le_of_eq same.symm)]

/-- A head without a body is sent like any list of buffers, and flushed. -/
private theorem respond_bodiless {outcome : Outcome}
    (bodiless : ∀ path size mime, outcome ≠ .found path size mime) (fs : FileSystem)
    (c : Connection) :
    respond fs outcome c =
      match sendBuffers (outcome.buffers fs) c with
      | (.error e, c) => (.error e, c)
      | (.ok _, c) => finish outcome.status outcome.size c := by
  cases outcome with
  | found path size mime => exact absurd rfl (bodiless path size mime)
  | notFound | unsupportedType =>
    simp only [respond, Outcome.buffers, Outcome.body, buffers_nil, sendBuffers]
    rcases c.send (Head.ofOutcome _).toBytes with ⟨_ | _, c'⟩ <;> rfl

/-- Answering ends in one of these ways. -/
theorem responds (fs : FileSystem) (outcome : Outcome) (c : Connection) :
    Responds fs outcome c (respond fs outcome c).1 (respond fs outcome c).2 := by
  obtain ⟨ts, rest, error, sent, heq⟩ := sendBuffers_sent (outcome.buffers fs) c
  cases outcome with
  | found path size mime =>
    cases opened : fs.openFile path with
    | error e =>
      simp only [respond, opened]
      exact .unopened rfl opened
    | ok source =>
      rw [respond_found opened, heq]
      cases error with
      | some e => exact .broken sent
      | none =>
        simp only [sentResult]
        cases short : source.shortfall? size with
        | some e => exact .short rfl opened short sent
        | none =>
          have gives := Source.shortfall?_eq_none_iff.mp short
          simp only [finish_eq]
          exact .flushed ⟨source, opened, gives⟩ sent
  | notFound | unsupportedType =>
    rw [respond_bodiless (fun _ _ _ h => by cases h), heq]
    cases error with
    | some e => exact .broken sent
    | none =>
      simp only [sentResult, finish_eq]
      exact .flushed trivial sent

/-- Success is reported only of a response that was written whole and flushed. -/
theorem Responds.of_ok {fs : FileSystem} {outcome : Outcome} {c after : Connection}
    {answer : Status × Nat} (ends : Responds fs outcome c (.ok answer) after) :
    answer = (outcome.status, outcome.size) ∧ outcome.Deliverable fs ∧
    ∃ ts rest, Sent c.writes (outcome.buffers fs) ts none ∧
      after = (c.sending ts rest).flushed := by
  generalize reported : Except.ok answer = result at ends
  cases ends with
  | unopened | broken | short => cases reported
  | flushed deliverable sent =>
    refine ⟨?_, deliverable, _, _, sent, rfl⟩
    cases flush : c.flushError <;> rw [flush] at reported <;> cases reported
    rfl

/-- What is written of a response, told by what became of the buffers, in order. -/
structure Writes (fs : FileSystem) (outcome : Outcome) (ts : List Transfer) : Prop where
  /-- The bytes accepted are the first bytes of the response, none of them wrong. -/
  accepted_prefix : ts.flatMap (·.accepted) <+: outcome.response fs
  /-- What is accepted behind the head is not longer than the head announces. -/
  within_announced : ("Content-Length", toString outcome.size) ∈ (Head.ofOutcome outcome).headers ∧
    (ts.flatMap (·.accepted)).length ≤ (Head.ofOutcome outcome).toBytes.length + outcome.size
  /-- The head comes first, as one buffer. -/
  head_first : ∀ t, ts.head? = some t →
    t.accepted ++ t.pending = (Head.ofOutcome outcome).toBytes
  /-- The buffers of the body are small. -/
  small : ∀ t ∈ ts.tail, ∀ n ∈ t.offered, n ≤ bufferSize

/-- What answering an outcome does to a connection, told by what became of the buffers that it
wrote, in order. -/
structure Answers (fs : FileSystem) (outcome : Outcome) (c : Connection) (ts : List Transfer)
    (result : Except IoError (Status × Nat)) (after : Connection) : Prop
    extends Writes fs outcome ts where
  /-- They are what the connection's script makes of the head and the parts of the body, written one
  after the other until one of them fails for good. -/
  sent : outcome.Opens fs → ∃ error, Sent c.writes (outcome.buffers fs) ts error
  /-- The log has these transfers more, its latest first, and no others. -/
  transfers_eq : after.log.transfers = ts.reverse ++ c.log.transfers
  /-- The connection accepts what they accepted. -/
  written_eq : after.log.written = c.log.written ++ ts.flatMap (·.accepted)
  /-- Success is reported of a complete response alone, with its status and size: the file could be
  read for the announced size, everything was accepted and the flush succeeded. -/
  ok_iff : ∀ status sent, result = .ok (status, sent) ↔
    status = outcome.status ∧ sent = outcome.size ∧ outcome.Deliverable fs ∧
      ts.flatMap (·.accepted) = outcome.response fs ∧ c.flushError = none
  /-- A complete response is flushed once. -/
  flushes_eq : outcome.Deliverable fs → ts.flatMap (·.accepted) = outcome.response fs →
    after.log.flushes = c.log.flushes + 1
  /-- If a write fails for good, its error is reported, and nothing is flushed. -/
  aborted : ∀ t ∈ ts, ∀ e, t.error = some e →
    result = .error e ∧ after.log.flushes = c.log.flushes
  /-- If the file cannot give the announced size, there is an error, and nothing is flushed. -/
  undelivered : ¬ outcome.Deliverable fs →
    (∃ e, result = .error e) ∧ after.log.flushes = c.log.flushes

theorem Sent.writes {fs : FileSystem} {outcome : Outcome} {steps : List WriteStep}
    {ts : List Transfer} {error : Option IoError}
    (sent : Sent steps (outcome.buffers fs) ts error) :
    Writes fs outcome ts where
  accepted_prefix := outcome.flatten_buffers fs ▸ sent.accepted_prefix
  within_announced := by
    refine ⟨outcome.contentLength_mem, ?_⟩
    have most := sent.accepted_prefix.length_le
    rw [outcome.flatten_buffers fs, Outcome.response, List.length_append] at most
    exact Nat.le_trans most (Nat.add_le_add_left (outcome.length_body_le fs) _)
  head_first := by
    intro t ht
    cases sent with
    | fails | next =>
      cases ht
      exact accepted_append_pending _ _
  small := by
    intro t ht n hn
    have parts := length_le_of_mem_buffers (outcome.body fs)
    cases sent with
    | fails => cases ht
    | next _ sent => exact sent.offered_le parts t ht n hn

/-- All of a response is accepted if and only if no write failed for good. -/
theorem Sent.complete_iff {fs : FileSystem} {outcome : Outcome} {steps : List WriteStep}
    {ts : List Transfer} {error : Option IoError}
    (sent : Sent steps (outcome.buffers fs) ts error) :
    ts.flatMap (·.accepted) = outcome.response fs ↔ error = none := by
  rw [← sent.accepted_eq_iff, outcome.flatten_buffers]

/-- An error is reported, and nothing was flushed, of a response that is not complete. -/
private theorem Answers.of_error {fs : FileSystem} {outcome : Outcome} {c after : Connection}
    {ts : List Transfer} {e : IoError} (writes : Writes fs outcome ts)
    (sent : outcome.Opens fs → ∃ error, Sent c.writes (outcome.buffers fs) ts error)
    (transfers_eq : after.log.transfers = ts.reverse ++ c.log.transfers)
    (written_eq : after.log.written = c.log.written ++ ts.flatMap (·.accepted))
    (unflushed : after.log.flushes = c.log.flushes)
    (incomplete : outcome.Deliverable fs → ts.flatMap (·.accepted) ≠ outcome.response fs)
    (reported : ∀ t ∈ ts, ∀ e', t.error = some e' → e = e') :
    Answers fs outcome c ts (.error e) after where
  toWrites := writes
  sent := sent
  transfers_eq := transfers_eq
  written_eq := written_eq
  ok_iff _ _ := ⟨nofun, fun ⟨_, _, deliverable, complete, _⟩ =>
    absurd complete (incomplete deliverable)⟩
  flushes_eq deliverable complete := absurd complete (incomplete deliverable)
  aborted t ht e' failed := ⟨reported t ht e' failed ▸ rfl, unflushed⟩
  undelivered _ := ⟨⟨e, rfl⟩, unflushed⟩

/-- The same where the transfers are what the script makes of the response. -/
private theorem Answers.of_sent {fs : FileSystem} {outcome : Outcome} {c : Connection}
    {ts : List Transfer} {rest : List WriteStep} {error : Option IoError} {e : IoError}
    (sent : Sent c.writes (outcome.buffers fs) ts error)
    (incomplete : outcome.Deliverable fs → ts.flatMap (·.accepted) ≠ outcome.response fs)
    (reported : ∀ t ∈ ts, ∀ e', t.error = some e' → e = e') :
    Answers fs outcome c ts (.error e) (c.sending ts rest) :=
  .of_error sent.writes (fun _ => ⟨error, sent⟩) rfl (c.written_sending ts rest) rfl incomplete
    reported

/-- Answering an outcome, whatever has become of its file since and whatever the connection's script
does: nothing is written if the file cannot be opened, and else what the script takes of the response,
which is its first bytes, and all of them if and only if no write fails for good. Success is reported
if and only if they are all that was announced and are flushed. -/
theorem respond_answers (fs : FileSystem) (outcome : Outcome) (c : Connection) :
    (∀ path size mime e, outcome = .found path size mime → fs.openFile path = .error e →
      respond fs outcome c = (.error e, c)) ∧
    (outcome.Deliverable fs → (outcome.body fs).length = outcome.size) ∧
    ∃ ts, Answers fs outcome c ts (respond fs outcome c).1 (respond fs outcome c).2 := by
  refine ⟨?_, Outcome.length_body_of_deliverable, ?_⟩
  · rintro path size mime e rfl closed
    simp only [respond, closed]
  have ends := responds fs outcome c
  generalize (respond fs outcome c).1 = result at ends
  generalize (respond fs outcome c).2 = after at ends
  cases ends with
  | unopened found closed =>
    have writes : Writes fs outcome [] :=
      ⟨List.nil_prefix, ⟨outcome.contentLength_mem, Nat.zero_le _⟩, nofun, nofun⟩
    have unopened := Outcome.not_opens_of_closed found closed
    refine ⟨[], .of_error writes (absurd · unopened) rfl (List.append_nil _).symm rfl ?_ nofun⟩
    intro deliverable
    exact absurd (Outcome.opens_of_deliverable deliverable) unopened
  | @broken ts rest e sent =>
    refine ⟨ts, .of_sent sent ?_ ?_⟩
    · intro _ complete
      cases sent.complete_iff.mp complete
    · intro t ht e' failed
      exact Option.some.inj (sent.error_eq ht failed)
  | @short path size mime source ts rest e found opened shortfall sent =>
    refine ⟨ts, .of_sent sent ?_ ?_⟩
    · intro deliverable
      exact absurd deliverable (Outcome.not_deliverable_of_shortfall found opened shortfall)
    · intro t ht e' failed
      cases sent.error_eq ht failed
  | @flushed ts rest deliverable sent =>
    refine ⟨ts, sent.writes, fun _ => ⟨_, sent⟩, rfl, c.written_sending ts rest, ?_,
      fun _ _ => rfl, ?_, fun h => absurd deliverable h⟩
    · intro status count
      have complete := sent.complete_iff.mpr rfl
      cases c.flushError with
      | some e => exact ⟨nofun, fun h => nomatch h.2.2.2.2⟩
      | none =>
        simp only [flushResult, Except.ok.injEq, Prod.mk.injEq, deliverable, complete, and_true]
        exact ⟨fun h => ⟨h.1.symm, h.2.symm⟩, fun h => ⟨h.1.symm, h.2.symm⟩⟩
    · intro t ht e' failed
      cases sent.error_eq ht failed

/-- A file that has grown is sent as announced to a connection that takes a few bytes at a time and is
interrupted: its script makes all of the response of it. -/
theorem respond_answers_short_writes :
    let fs : FileSystem := ⟨.directory [(Bytes.ofString "a.txt", .file [1, 2, 3])], [], true⟩
    let outcome : Outcome := .found (Bytes.ofString "a.txt") 2 "text/plain"
    let c : Connection :=
      { writes := [.accept 60, .fail (.plain .interrupted), .accept 4, .accept 1,
          .fail (.plain .interrupted)] }
    ∃ ts, Answers fs outcome c ts (respond fs outcome c).1 (respond fs outcome c).2 ∧
      Sent c.writes (outcome.buffers fs) ts none ∧ (respond fs outcome c).1 = .ok (.ok, 2) ∧
      (respond fs outcome c).2.log.written = (Head.ofOutcome outcome).toBytes ++ [1, 2] ∧
      (respond fs outcome c).2.log.flushes = 1 := by
  intro fs outcome c
  obtain ⟨ts, answers⟩ := (respond_answers fs outcome c).2.2
  have deliverable : outcome.Deliverable fs := ⟨.content [1, 2, 3], rfl, (by decide : 2 ≤ 3)⟩
  obtain ⟨error, sent⟩ := answers.sent (Outcome.opens_of_deliverable deliverable)
  cases sent.error_eq_none (by decide)
  have complete := sent.complete_iff.mpr rfl
  refine ⟨ts, answers, sent, ?_, ?_, answers.flushes_eq deliverable complete⟩
  · exact (answers.ok_iff _ _).mpr ⟨rfl, rfl, deliverable, complete, rfl⟩
  · exact answers.written_eq.trans complete

end StaticHttp
