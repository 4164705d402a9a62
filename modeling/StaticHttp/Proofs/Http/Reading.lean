import StaticHttp.Proofs.Http.Draining
import StaticHttp.Proofs.Http.RequestLine

/-!
# How a request is read

A read that is interrupted is tried again until one is not (`Connection.Attempts`), and what those
reads bring, one after the other, is all that reading a request depends on (`Connection.Delivers`,
`Settles`). Every script without a crash is read to an end, after at most as many calls as there are
steps and bytes in it and one more, and what the reads did not deliver is still there
(`request_of_deliveries`).
-/

namespace StaticHttp

/-! ## One read -/

/-- The bytes that are there to be read in a step. -/
def ReadStep.content : ReadStep → Bytes
  | .data bytes => bytes
  | _ => []

namespace ReadResult

/-- The bytes that a read delivers. -/
def content : ReadResult → Bytes
  | .bytes delivered => delivered
  | _ => []

/-- The read only asks for another attempt. -/
def isInterrupted : ReadResult → Bool
  | .failed e => e.isInterrupted
  | _ => false

end ReadResult

namespace Connection

variable {c c' c₁ : Connection} {result : ReadResult} {results : List ReadResult}

/-- All the bytes that are there to be read, in order. -/
def incoming (c : Connection) : Bytes := c.reads.flatMap ReadStep.content

theorem unread_close (c : Connection) : c.close.unread = c.incoming.length := by
  show total ReadStep.size c.reads = (c.reads.flatMap ReadStep.content).length
  induction c.reads with
  | nil => rfl
  | cons step steps ih =>
    rw [total_cons, ih, List.flatMap_cons, List.length_append]
    cases step <;> rfl

/-- What a read takes from a connection: the first bytes that are there, as many as fit. -/
structure Takes (c : Connection) (result : ReadResult) (c' : Connection) : Prop where
  incoming_eq : c.incoming = result.content ++ c'.incoming
  small : result.content.length ≤ bufferSize
  sound : .crash ∉ c.reads → result ≠ .crashed ∧ .crash ∉ c'.reads
  /-- Each call leaves less to be read, unless there was nothing. -/
  calls_le : c'.log.reads + pendingReads c'.reads ≤
    c.log.reads + pendingReads c.reads + if result = .bytes [] then 1 else 0

theorem incoming_leaving (left : Bytes) (rest : List ReadStep) :
    (leaving left rest).flatMap ReadStep.content = left ++ rest.flatMap ReadStep.content := by
  unfold leaving
  split
  · next none => rw [List.isEmpty_iff.mp none, List.nil_append]
  · rfl

theorem pendingReads_leaving (left : Bytes) (rest : List ReadStep) :
    pendingReads (leaving left rest) = left.length + min 1 left.length + pendingReads rest := by
  unfold leaving
  cases left with
  | nil => exact (Nat.zero_add _).symm
  | cons b left =>
    rw [List.length_cons, Nat.min_eq_left (Nat.le_add_left 1 left.length)]
    rfl

theorem takes_read (c : Connection) : c.Takes (c.read bufferSize).1 (c.read bufferSize).2 := by
  obtain ⟨reads, writes, flushError, log⟩ := c
  cases reads with
  | nil => exact ⟨rfl, Nat.zero_le _, fun sound => ⟨(fun h => by cases h), sound⟩, Nat.le_refl _⟩
  | cons step rest =>
    have later : .crash ∉ step :: rest → .crash ∉ rest :=
      fun sound mem => sound (List.mem_cons_of_mem _ mem)
    cases step with
    | data bytes =>
      refine ⟨?_, List.length_take_le _ _, fun sound => ⟨(fun h => by cases h), fun mem => ?_⟩, ?_⟩
      · show bytes ++ rest.flatMap ReadStep.content =
          bytes.take bufferSize ++ (leaving (bytes.drop bufferSize) rest).flatMap ReadStep.content
        rw [incoming_leaving, ← List.append_assoc, List.take_append_drop]
      · rcases mem_leaving mem with crash | mem
        · cases crash
        · exact later sound mem
      · simp only [read, pendingReads_leaving, pendingReads, ReadStep.size, List.length_drop,
          bufferSize]
        omega
    | fail e | eof =>
      refine ⟨rfl, Nat.zero_le _, fun sound => ⟨(fun h => by cases h), later sound⟩, ?_⟩
      simp only [read, pendingReads]
      omega
    | crash =>
      refine ⟨rfl, Nat.zero_le _, fun sound => absurd List.mem_cons_self sound, ?_⟩
      simp only [read, pendingReads]
      omega

/-! ## Reading again after an interruption -/

/-- Reading, and reading again for as long as it is interrupted, comes to this result. -/
inductive Attempts : Connection → ReadResult → Connection → Prop
  | last {c c' : Connection} {result : ReadResult} (read : c.read bufferSize = (result, c'))
      (final : result.isInterrupted = false) : Attempts c result c'
  | again {c c₁ c' : Connection} {interruption result : ReadResult}
      (read : c.read bufferSize = (interruption, c₁))
      (interrupted : interruption.isInterrupted = true) (rest : Attempts c₁ result c') :
      Attempts c result c'

/-- Reading again after an interruption is a loop around the read. -/
theorem readRetrying_eq (c : Connection) :
    c.readRetrying bufferSize =
      if (c.read bufferSize).1.isInterrupted then (c.read bufferSize).2.readRetrying bufferSize
      else c.read bufferSize := by
  obtain ⟨reads, writes, flushError, log⟩ := c
  cases reads with
  | nil => rfl
  | cons step rest =>
    cases step with
    | fail e =>
      by_cases interrupted : e.isInterrupted = true
      · have skipped : skipInterruptions ⟨.fail e :: rest, writes, flushError, log⟩ =
            skipInterruptions ⟨rest, writes, flushError, { log with reads := log.reads + 1 }⟩ := by
          simp only [skipInterruptions, List.dropWhile_cons, List.takeWhile_cons,
            ReadStep.isInterruption, interrupted, if_true, List.length_cons]
          rw [Nat.add_assoc, Nat.add_comm 1]
        exact (congrArg (read bufferSize) skipped).trans (if_pos interrupted).symm
      · have kept : skipInterruptions ⟨.fail e :: rest, writes, flushError, log⟩ =
            ⟨.fail e :: rest, writes, flushError, log⟩ := by
          simp [skipInterruptions, ReadStep.isInterruption, interrupted]
        exact (congrArg (read bufferSize) kept).trans (if_neg interrupted).symm
    | data | eof | crash => rfl

theorem log_reads_read (limit : Nat) (c : Connection) :
    (c.read limit).2.log.reads = c.log.reads + 1 := by
  unfold read
  split <;> rfl

/-- An interruption is gone once it has been read. -/
theorem pendingReads_read_lt (interrupted : (c.read bufferSize).1.isInterrupted = true) :
    pendingReads (c.read bufferSize).2.reads < pendingReads c.reads := by
  have calls := (takes_read c).calls_le
  have one := log_reads_read bufferSize c
  have present : (c.read bufferSize).1 ≠ .bytes [] := by
    intro none
    rw [none] at interrupted
    cases interrupted
  rw [if_neg present] at calls
  omega

theorem attempts_of_readRetrying {c : Connection}
    (read : c.readRetrying bufferSize = (result, c')) : c.Attempts result c' := by
  rw [readRetrying_eq] at read
  split at read
  · next interrupted => exact .again rfl interrupted (attempts_of_readRetrying read)
  · next final =>
    rw [read] at final
    exact .last read (Bool.eq_false_iff.mpr final)
termination_by pendingReads c.reads
decreasing_by exact pendingReads_read_lt ‹_›

/-- A read that is tried again until it is not interrupted takes what one read takes. -/
theorem Attempts.takes (attempts : c.Attempts result c') : c.Takes result c' := by
  induction attempts with
  | @last c c' result read final =>
    have takes := takes_read c
    rwa [read] at takes
  | @again c c₁ c' interruption result read interrupted rest ih =>
    have first := takes_read c
    rw [read] at first
    cases interruption with
    | bytes | crashed => cases interrupted
    | failed e =>
      refine ⟨first.incoming_eq.trans ih.incoming_eq, ih.small,
        fun sound => ih.sound (first.sound sound).2, ?_⟩
      have calls := first.calls_le
      simp only [reduceCtorEq, if_false, Nat.add_zero] at calls
      exact ih.calls_le.trans (Nat.add_le_add_right calls _)

/-! ## Reads one after the other -/

/-- The next reads come to these results, those not counted that are interrupted. -/
inductive Delivers : Connection → List ReadResult → Connection → Prop
  | none (c : Connection) : Delivers c [] c
  | next {c c₁ c' : Connection} {result : ReadResult} {results : List ReadResult}
      (attempts : c.Attempts result c₁) (rest : Delivers c₁ results c') :
      Delivers c (result :: results) c'

theorem Delivers.incoming_eq (delivers : c.Delivers results c') :
    c.incoming = results.flatMap ReadResult.content ++ c'.incoming := by
  induction delivers with
  | none => rfl
  | next attempts _ ih =>
    rw [attempts.takes.incoming_eq, ih, List.flatMap_cons, List.append_assoc]

theorem Delivers.calls_le (delivers : c.Delivers results c') :
    c'.log.reads + pendingReads c'.reads ≤
      c.log.reads + pendingReads c.reads + results.count (.bytes []) := by
  induction delivers with
  | none => exact Nat.le_refl _
  | @next c c₁ c' result results attempts _ ih =>
    have first := attempts.takes.calls_le
    rw [List.count_cons]
    simp only [beq_iff_eq]
    omega

theorem Delivers.small (delivers : c.Delivers results c') :
    ∀ result ∈ results, result.content.length ≤ bufferSize := by
  induction delivers with
  | none => exact List.forall_mem_nil _
  | next attempts _ ih => exact List.forall_mem_cons.mpr ⟨attempts.takes.small, ih⟩

end Connection

/-! ## What comes of them -/

open ReadResult

/-- Reading on comes to an end with the first result that is not a full buffer. -/
inductive Drained : List ReadResult → Except Abort Unit → Prop
  | short {full : List Bytes} {last : Bytes} (filled : ∀ piece ∈ full, piece.length = bufferSize)
      (ends : last.length < bufferSize) : Drained (full.map .bytes ++ [.bytes last]) (.ok ())
  | failed {full : List Bytes} (e : IoError) (filled : ∀ piece ∈ full, piece.length = bufferSize) :
      Drained (full.map .bytes ++ [.failed e]) (.error (.error (.io e)))

theorem Drained.cons {piece : Bytes} {results : List ReadResult} {ending : Except Abort Unit}
    (full : piece.length = bufferSize) (drained : Drained results ending) :
    Drained (.bytes piece :: results) ending := by
  cases drained with
  | @short pieces last filled ends =>
    exact @Drained.short (piece :: pieces) last (List.forall_mem_cons.mpr ⟨full, filled⟩) ends
  | @failed pieces e filled =>
    exact @Drained.failed (piece :: pieces) e (List.forall_mem_cons.mpr ⟨full, filled⟩)

/-- Only the last read can have brought nothing. -/
theorem Drained.count_le {results : List ReadResult} {ending : Except Abort Unit}
    (drained : Drained results ending) : results.count (.bytes []) ≤ 1 := by
  have none : ∀ full : List Bytes, (∀ piece ∈ full, piece.length = bufferSize) →
      (full.map ReadResult.bytes).count (.bytes []) = 0 := by
    intro full filled
    refine List.count_eq_zero.mpr fun mem => ?_
    obtain ⟨piece, mem, empty⟩ := List.mem_map.mp mem
    cases empty
    cases filled [] mem
  cases drained with
  | short filled | failed _ filled =>
    rw [List.count_append, none _ filled, Nat.zero_add]
    exact List.count_le_length

/-- What a request comes to, told by the results of the reads that were made for it. -/
inductive Settles : List ReadResult → Except Abort ResourcePath → Prop
  | failed (e : IoError) : Settles [.failed e] (.error (.error (.io e)))
  | empty : Settles [.bytes []] (.error (.error .empty))
  | malformed {bytes : Bytes} {fault : RequestLine.Fault} (present : bytes ≠ [])
      (refused : RequestLine.parse bytes = .error fault) :
      Settles [.bytes bytes] (.error (.error (.malformed fault.reason)))
  | short {bytes : Bytes} {resource : ResourcePath}
      (accepted : RequestLine.parse bytes = .ok resource) (ends : bytes.length < bufferSize) :
      Settles [.bytes bytes] (.ok resource)
  | drained {bytes : Bytes} {resource : ResourcePath} {results : List ReadResult}
      {ending : Except Abort Unit} (accepted : RequestLine.parse bytes = .ok resource)
      (full : bytes.length = bufferSize) (rest : Drained results ending) :
      Settles (.bytes bytes :: results) (ending.map fun _ => resource)

/-- What the results of the reads say of a request: the first one decides, and only behind a request
line that fills the buffer are there others. -/
structure Told (results : List ReadResult) (request : Except Abort ResourcePath) : Prop where
  read : results ≠ []
  failed : ∀ e, results.head? = some (.failed e) → request = .error (.error (.io e))
  empty_iff : request = .error (.error .empty) ↔ results.head? = some (.bytes [])
  malformed_iff : ∀ reason, request = .error (.error (.malformed reason)) ↔
    ∃ bytes fault, results.head? = some (.bytes bytes) ∧ bytes ≠ [] ∧
      RequestLine.parse bytes = .error fault ∧ fault.reason = reason
  short_iff : ∀ resource, request = .ok resource ∧ results.length = 1 ↔
    ∃ bytes, results.head? = some (.bytes bytes) ∧ RequestLine.parse bytes = .ok resource ∧
      bytes.length < bufferSize
  drained : ∀ bytes resource, results.head? = some (.bytes bytes) →
    RequestLine.parse bytes = .ok resource → bytes.length = bufferSize →
      ∃ ending, Drained results.tail ending ∧ request = ending.map fun _ => resource
  more_iff : 1 < results.length ↔ ∃ bytes resource, results.head? = some (.bytes bytes) ∧
    RequestLine.parse bytes = .ok resource ∧ bytes.length = bufferSize

theorem Settles.told {results : List ReadResult} {request : Except Abort ResourcePath}
    (settles : Settles results request) : Told results request := by
  have blank : RequestLine.parse [] = .error .noPath := rfl
  cases settles with
  | failed e => constructor <;> simp
  | empty =>
    refine ⟨by simp, by simp, by simp, by simp [blank], by simp [blank], ?_, by simp [blank]⟩
    rintro bytes resource ⟨⟩ accepted
    cases accepted
  | @malformed bytes fault present refused =>
    refine ⟨by simp, by simp, by simp [present], by simp [present, refused], by simp [refused], ?_,
      by simp [refused]⟩
    rintro bytes resource ⟨⟩ accepted
    cases refused.symm.trans accepted
  | @short bytes resource accepted ends =>
    have present : bytes ≠ [] := by rintro rfl; cases accepted
    refine ⟨by simp, by simp, by simp [present], by simp [accepted], by simp [accepted, ends], ?_,
      by simp [accepted, ends.ne]⟩
    rintro bytes resource ⟨⟩ - full
    exact absurd full ends.ne
  | @drained bytes resource results ending accepted full rest =>
    have present : bytes ≠ [] := by rintro rfl; cases accepted
    have more : 0 < results.length := by cases rest <;> simp
    have later : results ≠ [] := List.ne_nil_of_length_pos more
    refine ⟨by simp, by simp, ?_, ?_, ?_, ?_, by simp [accepted, full, more]⟩
    · cases rest <;> simp [Except.map, present]
    · cases rest <;> simp [Except.map, accepted]
    · simp [accepted, full, later]
    · rintro bytes resource' ⟨⟩ accepted' -
      cases accepted.symm.trans accepted'
      exact ⟨ending, rest, rfl⟩

theorem Settles.count_le {results : List ReadResult} {request : Except Abort ResourcePath}
    (settles : Settles results request) : results.count (.bytes []) ≤ 1 := by
  cases settles with
  | @drained bytes _ _ _ _ full rest =>
    have present : ReadResult.bytes bytes ≠ .bytes [] := by
      rintro ⟨⟩
      cases full
    rw [List.count_cons_of_ne present]
    exact rest.count_le
  | failed | empty | malformed | short => exact List.count_le_length

theorem Settles.ne_crash {results : List ReadResult} {request : Except Abort ResourcePath}
    (settles : Settles results request) : request ≠ .error .crash := by
  cases settles with
  | drained _ _ rest => cases rest <;> nofun
  | failed | empty | malformed | short => nofun

/-- A path that was asked for stands on the line that one of the reads brought. -/
theorem Settles.exists_line {results : List ReadResult} {resource : ResourcePath}
    (settles : Settles results (.ok resource)) :
    ∃ bytes, .bytes bytes ∈ results ∧ RequestLine.parse bytes = .ok resource := by
  generalize settled : Except.ok resource = request at settles
  cases settles with
  | short accepted =>
    cases settled
    exact ⟨_, List.mem_cons_self, accepted⟩
  | drained accepted _ rest =>
    cases rest <;> cases settled
    exact ⟨_, List.mem_cons_self, accepted⟩
  | failed | empty | malformed => cases settled

namespace Connection

variable {c c' : Connection}

theorem drain_delivers (c : Connection) (sound : .crash ∉ c.reads) :
    ∃ results, c.Delivers results (drain c).2 ∧ Drained results (drain c).1 := by
  fun_induction drain c with
  | case1 c c' h => exact absurd rfl ((attempts_of_readRetrying h).takes.sound sound).1
  | case2 c e c' h =>
    exact ⟨_, .next (attempts_of_readRetrying h) (.none _),
      @Drained.failed [] e (List.forall_mem_nil _)⟩
  | case3 c bytes c' h ends =>
    exact ⟨_, .next (attempts_of_readRetrying h) (.none _),
      @Drained.short [] bytes (List.forall_mem_nil _) ends⟩
  | case4 c bytes c' h full _ ih =>
    have takes := (attempts_of_readRetrying h).takes
    obtain ⟨results, delivers, drained⟩ := ih (takes.sound sound).2
    exact ⟨_, .next (attempts_of_readRetrying h) delivers,
      drained.cons (Nat.le_antisymm takes.small (Nat.le_of_not_lt full))⟩

theorem readRequest_delivers (c : Connection) (sound : .crash ∉ c.reads) :
    ∃ results, c.Delivers results (readRequest c).2 ∧ Settles results (readRequest c).1 := by
  unfold readRequest
  split <;> rename_i h <;> have first := attempts_of_readRetrying h <;> have takes := first.takes
  · exact absurd rfl (takes.sound sound).1
  · exact ⟨_, .next first (.none _), .failed _⟩
  · exact ⟨_, .next first (.none _), .empty⟩
  · next b bs c₁ =>
    split
    · next fault refused =>
      exact ⟨_, .next first (.none _), .malformed (List.cons_ne_nil b bs) refused⟩
    · next resource accepted =>
      split
      · next ends => exact ⟨_, .next first (.none _), .short accepted ends⟩
      · next full =>
        obtain ⟨results, delivers, drained⟩ := drain_delivers c₁ (takes.sound sound).2
        have settles := Settles.drained accepted
          (Nat.le_antisymm takes.small (Nat.le_of_not_lt full)) drained
        split <;> rename_i ended <;> rw [ended] at delivers settles <;>
          exact ⟨_, .next first delivers, settles⟩

/-- A request is read to an end from every script without a crash, and told by what the reads bring
that are not interrupted. They take the first bytes that are there, and leave the others. -/
theorem request_of_deliveries (c : Connection) (sound : .crash ∉ c.reads) :
    (readRequest c).1 ≠ .error .crash ∧
    (∃ results, c.Delivers results (readRequest c).2 ∧ Told results (readRequest c).1 ∧
      c.incoming = results.flatMap ReadResult.content ++ (readRequest c).2.incoming) ∧
    (readRequest c).2.close.unread = (readRequest c).2.incoming.length ∧
    (readRequest c).2.log.reads ≤ c.log.reads + pendingReads c.reads + 1 ∧
    ∀ resource, (readRequest c).1 = .ok resource → resource.path.length ≤ 511 := by
  obtain ⟨results, delivers, settles⟩ := readRequest_delivers c sound
  refine ⟨?_, ⟨results, delivers, settles.told, delivers.incoming_eq⟩, unread_close _, ?_, ?_⟩
  · exact settles.ne_crash
  · have calls := delivers.calls_le
    have once := settles.count_le
    omega
  · intro resource request
    rw [request] at settles
    obtain ⟨bytes, mem, accepted⟩ := settles.exists_line
    have most : bytes.length ≤ 512 := delivers.small _ mem
    have shorter := RequestLine.length_lt_of_parse accepted
    omega

/-- The first read is tried again and fills the buffer, and the next one brings what is left of the
same step. -/
theorem request_of_deliveries_full :
    let line := Bytes.ofString "GET /a.txt HTTP/1.0\r\n" ++ List.replicate 600 0x61
    let c : Connection :=
      { reads := [.fail (.plain .interrupted), .data line, .fail (.plain .interrupted), .data [1]] }
    let after := (readRequest c).2
    .crash ∉ c.reads ∧ (readRequest c).1 ≠ .error .crash ∧
      (∃ results, c.Delivers results after ∧ Told results (readRequest c).1 ∧
        c.incoming = results.flatMap ReadResult.content ++ after.incoming) ∧
      after.log.reads = 3 ∧ after.close.unread = 1 := by
  intro line c after
  have sound : .crash ∉ c.reads := by decide
  obtain ⟨ends, delivered, -⟩ := request_of_deliveries c sound
  exact ⟨sound, ends, delivered, by decide +kernel, by decide +kernel⟩

end Connection

end StaticHttp
