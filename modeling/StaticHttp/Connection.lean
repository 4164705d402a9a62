import StaticHttp.Bytes
import StaticHttp.IoError
import StaticHttp.Total

/-!
# Connections

A connection is known by what its calls will do: a script of reads, writes and the flush. `read` and
`send` take the next steps of the script and keep a log of what happened, which is all that an
observer sees.

Sending a whole buffer goes on after a short write and after an interruption (`transfer`); what was
accepted and what is pending always make up the buffer (`accepted_append_pending`), so that whatever
the script, the bytes accepted are the first bytes of the buffer. The log holds the transfers, the
latest first; `written_send` and `offered_send` say what one more adds to the log's views.
-/

namespace StaticHttp

/-- What one call to read does. -/
inductive ReadStep
  /-- It delivers these bytes, as many as fit; the rest stays for the next call. -/
  | data (bytes : Bytes)
  | fail (error : IoError)
  | eof
  /-- It brings the reader down. -/
  | crash
  deriving DecidableEq, Repr

/-- The read is interrupted, which only asks for another attempt. -/
def ReadStep.isInterruption : ReadStep → Bool
  | .fail e => e.isInterrupted
  | _ => false

def ReadStep.size : ReadStep → Nat
  | .data bytes => bytes.length
  | _ => 0

/-- What one call to write does. -/
inductive WriteStep
  | accept (count : Nat)
  | fail (error : IoError)
  deriving DecidableEq, Repr

/-- What becomes of a buffer that is written as a whole. -/
structure Transfer where
  accepted : Bytes
  pending : Bytes
  /-- The sizes of the buffers offered, in order. -/
  offered : List Nat
  rest : List WriteStep
  error : Option IoError
  deriving DecidableEq, Repr

/-- What the writer of the buffer is told. -/
def Transfer.result (t : Transfer) : Except IoError Unit :=
  match t.error with
  | none => .ok ()
  | some e => .error e

/-- Writes a whole buffer: goes on with the rest after a short write, and again after an
interruption. A write that accepts nothing is an error. -/
def transfer : List WriteStep → Bytes → Transfer
  | steps, [] => ⟨[], [], [], steps, none⟩
  | [], b :: bs => ⟨b :: bs, [], [(b :: bs).length], [], none⟩
  | .fail e :: rest, b :: bs =>
    if e.isInterrupted then
      let t := transfer rest (b :: bs)
      { t with offered := (b :: bs).length :: t.offered }
    else ⟨[], b :: bs, [(b :: bs).length], rest, some e⟩
  | .accept count :: rest, b :: bs =>
    if count = 0 then ⟨[], b :: bs, [(b :: bs).length], rest, some .nothingWritten⟩
    else
      let t := transfer rest ((b :: bs).drop count)
      { t with
        accepted := (b :: bs).take count ++ t.accepted
        offered := (b :: bs).length :: t.offered }

/-- What was accepted and what is pending make up the buffer. -/
theorem accepted_append_pending (steps : List WriteStep) (bs : Bytes) :
    (transfer steps bs).accepted ++ (transfer steps bs).pending = bs := by
  fun_induction transfer steps bs with
  | case1 => rfl
  | case2 => simp only [List.append_nil]
  | case3 _ _ _ _ _ _ ih => exact ih
  | case4 => rfl
  | case5 => rfl
  | case6 count rest b bs _ _ ih =>
    show (b :: bs).take count ++ _ ++ _ = _
    rw [List.append_assoc, ih, List.take_append_drop]

/-- What happened on a connection. -/
structure Log where
  reads : Nat := 0
  /-- What became of the buffers that were written, the latest first. -/
  transfers : List Transfer := []
  flushes : Nat := 0
  /-- Bytes that were there to be read when the connection was closed. -/
  unread : Nat := 0
  closed : Nat := 0
  deriving DecidableEq, Repr

namespace Log

def offered (log : Log) : List Nat := log.transfers.reverse.flatMap (·.offered)

def written (log : Log) : Bytes := log.transfers.reverse.flatMap (·.accepted)

end Log

/-- What a connection will do, and what has happened on it. Behind the end of its script it delivers
nothing and accepts everything. -/
structure Connection where
  reads : List ReadStep := []
  writes : List WriteStep := []
  /-- The error of every flush, if flushing fails. -/
  flushError : Option IoError := none
  log : Log := {}
  deriving DecidableEq, Repr

inductive ReadResult
  | bytes (bytes : Bytes)
  | failed (error : IoError)
  | crashed
  deriving DecidableEq, Repr

namespace Connection

/-- The reads to come when these bytes are left of a step. -/
def leaving (left : Bytes) (rest : List ReadStep) : List ReadStep :=
  if left.isEmpty then rest else .data left :: rest

/-- Takes the next step of the reads, with room for `limit` bytes. -/
def read (limit : Nat) (c : Connection) : ReadResult × Connection :=
  let log := { c.log with reads := c.log.reads + 1 }
  match c.reads with
  | [] => (.bytes [], { c with log })
  | .data bytes :: rest =>
    (.bytes (bytes.take limit), { c with log, reads := leaving (bytes.drop limit) rest })
  | .fail e :: rest => (.failed e, { c with log, reads := rest })
  | .eof :: rest => (.bytes [], { c with log, reads := rest })
  | .crash :: rest => (.crashed, { c with log, reads := rest })

/-- The connection after all interrupted reads at the front of its script. -/
def skipInterruptions (c : Connection) : Connection :=
  { c with
    reads := c.reads.dropWhile (·.isInterruption)
    log := { c.log with reads := c.log.reads + (c.reads.takeWhile (·.isInterruption)).length } }

/-- Reads again for as long as the read is interrupted. -/
def readRetrying (limit : Nat) (c : Connection) : ReadResult × Connection :=
  c.skipInterruptions.read limit

/-- Steps and bytes still to be read: every read of a positive number of bytes lowers the number. -/
def pendingReads : List ReadStep → Nat
  | [] => 0
  | step :: rest => step.size + 1 + pendingReads rest

theorem pendingReads_dropWhile_le (p : ReadStep → Bool) (steps : List ReadStep) :
    pendingReads (steps.dropWhile p) ≤ pendingReads steps := by
  induction steps with
  | nil => exact Nat.le_refl _
  | cons step rest ih =>
    rw [List.dropWhile_cons]
    split
    · rw [pendingReads]; omega
    · exact Nat.le_refl _

/-- A read that delivers something leaves less to be read. -/
theorem pendingReads_readRetrying_lt {limit : Nat} {c c' : Connection} {bytes : Bytes}
    (h : c.readRetrying limit = (.bytes bytes, c')) (hne : 0 < bytes.length) :
    pendingReads c'.reads < pendingReads c.reads := by
  have hle := pendingReads_dropWhile_le (·.isInterruption) c.reads
  simp only [readRetrying, read, skipInterruptions] at h
  split at h <;> simp only [Prod.mk.injEq, ReadResult.bytes.injEq, reduceCtorEq, false_and] at h
  · obtain ⟨rfl, rfl⟩ := h
    exact absurd hne (Nat.lt_irrefl 0)
  · next data rest hs =>
    obtain ⟨rfl, rfl⟩ := h
    rw [hs, pendingReads, ReadStep.size] at hle
    rw [List.length_take] at hne
    show pendingReads (leaving (data.drop limit) rest) < _
    unfold leaving
    split
    · omega
    · rw [pendingReads, ReadStep.size, List.length_drop]
      omega
  · obtain ⟨rfl, rfl⟩ := h
    exact absurd hne (Nat.lt_irrefl 0)

end Connection

namespace Connection

def send (bs : Bytes) (c : Connection) : Except IoError Unit × Connection :=
  let t := transfer c.writes bs
  (t.result, { c with writes := t.rest, log := { c.log with transfers := t :: c.log.transfers } })

/-- Sending a buffer adds the bytes accepted of it to those accepted before. -/
theorem written_send (bs : Bytes) (c : Connection) :
    (c.send bs).2.log.written = c.log.written ++ (transfer c.writes bs).accepted := by
  simp only [send, Log.written, List.reverse_cons, List.flatMap_append, List.flatMap_cons,
    List.flatMap_nil, List.append_nil]

/-- Sending a buffer adds the sizes offered of it to those offered before. -/
theorem offered_send (bs : Bytes) (c : Connection) :
    (c.send bs).2.log.offered = c.log.offered ++ (transfer c.writes bs).offered := by
  simp only [send, Log.offered, List.reverse_cons, List.flatMap_append, List.flatMap_cons,
    List.flatMap_nil, List.append_nil]

def flush (c : Connection) : Except IoError Unit × Connection :=
  let c := { c with log := { c.log with flushes := c.log.flushes + 1 } }
  match c.flushError with
  | none => (.ok (), c)
  | some e => (.error e, c)

/-- Closes the connection and gives the log of all that happened on it. -/
def close (c : Connection) : Log :=
  { c.log with
    unread := total ReadStep.size c.reads
    closed := c.log.closed + 1 }

end Connection

end StaticHttp
