import StaticHttp.Proofs.Http.Response
import StaticHttp.Proofs.Total

/-!
# What is taken of a request

Nothing can go wrong on a connection whose reads do not fail (`Connection.Calm`), so that what is
read of it is read to the end of the loop. Where that is depends on the pieces in which the request
comes (`Connection.Brings`): it is read up to and with the first piece that does not fill the
buffer, and what comes after that piece is still there when the connection is closed. Nothing is
left exactly if every piece but the last fills the buffer (`unread_of_readRequest`).
-/

namespace StaticHttp

/-- The read does no more harm than to ask for another attempt. -/
def ReadStep.isCalm : ReadStep → Bool
  | .data _ | .eof => true
  | .fail e => e.isInterrupted
  | .crash => false

namespace Connection

variable {c c' : Connection} {piece : Bytes} {pieces : List Bytes}

/-! ## Reads that do not fail -/

/-- No read to come fails. -/
def Calm (c : Connection) : Prop := ∀ step ∈ c.reads, step.isCalm = true

instance : Decidable c.Calm := inferInstanceAs (Decidable (∀ step ∈ c.reads, step.isCalm = true))

theorem mem_leaving {left : Bytes} {rest : List ReadStep} {step : ReadStep}
    (mem : step ∈ leaving left rest) : step = .data left ∨ step ∈ rest := by
  unfold leaving at mem
  split at mem
  · exact .inr mem
  · exact List.mem_cons.mp mem

/-- Such a read brings bytes, and none after it fails. -/
theorem Calm.readRetrying (calm : c.Calm) (limit : Nat) :
    ∃ bytes c', c.readRetrying limit = (.bytes bytes, c') ∧ c'.Calm := by
  have later : ∀ step ∈ c.skipInterruptions.reads, step.isCalm = true :=
    fun step mem => calm step ((List.dropWhile_sublist _).subset mem)
  have first : ∀ step ∈ c.skipInterruptions.reads.head?, step.isInterruption = false := by
    intro step head
    have stops := List.head?_dropWhile_not (·.isInterruption) c.reads
    rwa [show (c.reads.dropWhile (·.isInterruption)).head? = some step from head] at stops
  unfold Connection.readRetrying read
  split <;> rename_i reads <;> rw [reads] at later first
  · exact ⟨_, _, rfl, fun step mem => later step (reads ▸ mem)⟩
  · refine ⟨_, _, rfl, fun step mem => ?_⟩
    rcases mem_leaving mem with rfl | mem
    · rfl
    · exact later step (List.mem_cons_of_mem _ mem)
  · cases (later _ List.mem_cons_self).symm.trans (first _ rfl)
  · exact ⟨_, _, rfl, fun step mem => later step (List.mem_cons_of_mem _ mem)⟩
  · cases later _ List.mem_cons_self

theorem Calm.drain (calm : c.Calm) : ∃ c', StaticHttp.drain c = (.ok (), c') := by
  fun_induction StaticHttp.drain c with
  | case1 c _ h | case2 c _ _ h =>
    obtain ⟨_, _, read, _⟩ := calm.readRetrying bufferSize
    cases h.symm.trans read
  | case3 => exact ⟨_, rfl⟩
  | case4 c bytes c' h _ _ ih =>
    obtain ⟨_, _, read, calm⟩ := calm.readRetrying bufferSize
    cases h.symm.trans read
    exact ih calm

/-! ## Reads that bring a request -/

/-- The reads to come bring these pieces, and then nothing more. -/
def Brings (c : Connection) (pieces : List Bytes) : Prop :=
  ∃ (chunks : List Bytes) (ends : Nat),
    c.reads = chunks.map .data ++ List.replicate ends .eof ∧
    (∀ chunk ∈ chunks, chunk ≠ []) ∧ pieces = chunks.flatMap buffers

/-- A connection that brings something brings its first piece with the next read. -/
theorem Brings.readRetrying_cons (brings : c.Brings (piece :: pieces)) :
    ∃ c', c.readRetrying bufferSize = (.bytes piece, c') ∧ c'.Brings pieces ∧
      piece ≠ [] ∧ piece.length ≤ bufferSize := by
  obtain ⟨chunks, ends, reads, filled, pieces_eq⟩ := brings
  cases chunks with
  | nil => cases pieces_eq
  | cons chunk chunks =>
    obtain ⟨present, filled⟩ := List.forall_mem_cons.mp filled
    rw [List.flatMap_cons, buffers, dif_neg present, List.cons_append] at pieces_eq
    obtain ⟨rfl, rfl⟩ := List.cons.inj pieces_eq
    rw [List.map_cons, List.cons_append] at reads
    refine ⟨_, by simp only [readRetrying, skipInterruptions, read, reads]; rfl, ?_, ?_,
      List.length_take_le _ _⟩
    · by_cases left : chunk.drop bufferSize = []
      · refine ⟨chunks, ends, ?_, filled, by rw [left, buffers_nil, List.nil_append]⟩
        simp only [leaving, left, List.isEmpty_nil, if_pos]
      · refine ⟨chunk.drop bufferSize :: chunks, ends, ?_,
          List.forall_mem_cons.mpr ⟨left, filled⟩, List.flatMap_cons.symm⟩
        simp only [leaving, List.isEmpty_iff, left]
        rfl
    · rw [ne_eq, List.take_eq_nil_iff]
      exact fun none => none.elim (by decide) present

/-- A connection that brings nothing more delivers nothing with the next read. -/
theorem Brings.readRetrying_nil (brings : c.Brings []) :
    ∃ c', c.readRetrying bufferSize = (.bytes [], c') ∧ c'.Brings [] := by
  obtain ⟨chunks, ends, reads, filled, pieces_eq⟩ := brings
  cases chunks with
  | cons chunk chunks =>
    rw [List.flatMap_cons, buffers, dif_neg (filled _ List.mem_cons_self)] at pieces_eq
    cases pieces_eq
  | nil =>
    rw [List.map_nil, List.nil_append] at reads
    cases ends with
    | zero =>
      refine ⟨_, by simp only [readRetrying, skipInterruptions, read, reads]; rfl, ?_⟩
      exact ⟨[], 0, rfl, List.forall_mem_nil _, rfl⟩
    | succ ends =>
      rw [List.replicate_succ] at reads
      refine ⟨_, by simp only [readRetrying, skipInterruptions, read, reads]; rfl, ?_⟩
      exact ⟨[], ends, rfl, List.forall_mem_nil _, rfl⟩

theorem ne_nil_of_mem_buffers {bs : Bytes} : ∀ piece ∈ buffers bs, piece ≠ [] := by
  fun_induction buffers bs with
  | case1 => exact List.forall_mem_nil _
  | case2 bs present ih =>
    refine List.forall_mem_cons.mpr ⟨fun none => ?_, ih⟩
    exact (List.take_eq_nil_iff.mp none).elim (by decide) present

theorem flatten_flatMap_buffers (chunks : List Bytes) :
    (chunks.flatMap buffers).flatten = chunks.flatten := by
  induction chunks with
  | nil => rfl
  | cons chunk chunks ih =>
    rw [List.flatMap_cons, List.flatten_append, flatten_buffers, ih, List.flatten_cons]

/-- What the pieces hold is there to be read. -/
theorem Brings.unread (brings : c.Brings pieces) : c.close.unread = pieces.flatten.length := by
  obtain ⟨chunks, ends, reads, _, rfl⟩ := brings
  show total ReadStep.size c.reads = _
  rw [reads, total_append, total_replicate, total_map, flatten_flatMap_buffers,
    List.length_flatten]
  exact total_eq_sum List.length chunks

/-- The pieces that are not read. -/
def leftOf (pieces : List Bytes) : List Bytes :=
  (pieces.dropWhile (·.length = bufferSize)).drop 1

/-- No piece is left exactly if only the last may be one that does not fill the buffer. -/
theorem leftOf_eq_nil_iff :
    leftOf pieces = [] ↔ ∀ piece ∈ pieces.dropLast, piece.length = bufferSize := by
  unfold leftOf
  induction pieces with
  | nil => exact ⟨fun _ => List.forall_mem_nil _, fun _ => rfl⟩
  | cons piece pieces ih =>
    cases pieces with
    | nil =>
      refine ⟨fun _ => List.forall_mem_nil _, fun _ => ?_⟩
      rw [List.drop_eq_nil_iff]
      exact (List.dropWhile_sublist _).length_le
    | cons next pieces =>
      rw [List.dropLast_cons_cons, List.forall_mem_cons]
      by_cases full : piece.length = bufferSize
      · rw [List.dropWhile_cons_of_pos (by simpa), ih]
        exact ⟨fun rest => ⟨full, rest⟩, And.right⟩
      · rw [List.dropWhile_cons_of_neg (by simpa)]
        exact ⟨fun none => absurd none (List.cons_ne_nil _ _), fun all => absurd all.1 full⟩

theorem drain_eq (c : Connection) :
    StaticHttp.drain c =
      match c.readRetrying bufferSize with
      | (.crashed, c') => (.error .crash, c')
      | (.failed e, c') => (.error (.error (.io e)), c')
      | (.bytes bytes, c') =>
        if bytes.length < bufferSize then (.ok (), c') else StaticHttp.drain c' := by
  rw [StaticHttp.drain]
  split <;> rename_i h
  · simp only [h]
  · simp only [h]
  · simp only [h]
    rfl

theorem drain_of_readRetrying {bytes : Bytes}
    (read : c.readRetrying bufferSize = (.bytes bytes, c')) :
    StaticHttp.drain c =
      if bytes.length < bufferSize then (.ok (), c') else StaticHttp.drain c' := by
  rw [drain_eq, read]

/-- Reading on stops with the first piece that does not fill the buffer. -/
theorem Brings.drain (brings : c.Brings pieces) :
    ∃ c', StaticHttp.drain c = (.ok (), c') ∧ c'.Brings (leftOf pieces) := by
  induction pieces generalizing c with
  | nil =>
    obtain ⟨c', read, rest⟩ := brings.readRetrying_nil
    exact ⟨c', (drain_of_readRetrying read).trans (if_pos (by decide)), rest⟩
  | cons piece pieces ih =>
    obtain ⟨c', read, rest, _, most⟩ := brings.readRetrying_cons
    rw [drain_of_readRetrying read, leftOf]
    by_cases full : piece.length = bufferSize
    · rw [if_neg (Nat.not_lt.mpr (Nat.le_of_eq full.symm)), List.dropWhile_cons_of_pos (by simpa)]
      exact ih rest
    · rw [if_pos (Nat.lt_of_le_of_ne most full), List.dropWhile_cons_of_neg (by simpa)]
      exact ⟨c', rfl, rest⟩

/-- What is read of a request is read by reading on: its first read is like any other. -/
theorem drain_of_readRequest {resource : ResourcePath}
    (h : StaticHttp.readRequest c = (.ok resource, c')) :
    StaticHttp.drain c = (.ok (), c') := by
  unfold StaticHttp.readRequest at h
  split at h <;> try cases h
  next b bs c'' read =>
  rw [drain_of_readRetrying read]
  split at h <;> try cases h
  split at h
  · next short =>
    cases h
    exact if_pos short
  · next full =>
    rw [if_neg full]
    split at h <;> cases h
    assumption

/-- A request that comes in non-empty reads of any sizes is read up to and with the first piece that
does not fill the buffer. Nothing is left exactly if that is the last one. -/
theorem unread_of_readRequest {chunks : List Bytes} {ends : Nat} {resource : ResourcePath}
    (reads : c.reads = chunks.map .data ++ List.replicate ends .eof)
    (filled : ∀ chunk ∈ chunks, chunk ≠ [])
    (request : StaticHttp.readRequest c = (.ok resource, c')) :
    c'.close.unread = (leftOf (chunks.flatMap buffers)).flatten.length ∧
    (c'.close.unread = 0 ↔
      ∀ piece ∈ (chunks.flatMap buffers).dropLast, piece.length = bufferSize) := by
  have brings : c.Brings (chunks.flatMap buffers) := ⟨chunks, ends, reads, filled, rfl⟩
  obtain ⟨_, drained, rest⟩ := brings.drain
  cases drained.symm.trans (drain_of_readRequest request)
  refine ⟨rest.unread, ?_⟩
  rw [rest.unread, List.length_eq_zero_iff, List.flatten_eq_nil_iff, ← leftOf_eq_nil_iff]
  constructor
  · intro empty
    refine List.eq_nil_iff_forall_not_mem.mpr fun piece mem => ?_
    have brought := (List.dropWhile_sublist _).subset ((List.drop_sublist _ _).subset mem)
    obtain ⟨chunk, _, cut⟩ := List.mem_flatMap.mp brought
    exact ne_nil_of_mem_buffers piece cut (empty piece mem)
  · intro none
    rw [none]
    exact List.forall_mem_nil _

/-- The request line comes alone, in a read that does not fill the buffer, so that the header is not
read. -/
theorem unread_of_readRequest_header :
    let chunks := [Bytes.ofString "GET /a.txt HTTP/1.0\r\n", Bytes.ofString "Host: x\r\n",
      Bytes.ofString "\r\n"]
    let c : Connection := { reads := chunks.map .data ++ List.replicate 1 .eof }
    let after := (StaticHttp.readRequest c).2
    (∀ chunk ∈ chunks, chunk ≠ []) ∧ (∃ resource, (StaticHttp.readRequest c).1 = .ok resource) ∧
      after.close.unread = (leftOf (chunks.flatMap buffers)).flatten.length ∧
      after.close.unread = 11 := by
  intro chunks c after
  have filled : ∀ chunk ∈ chunks, chunk ≠ [] := by decide
  obtain ⟨resource, request⟩ : ∃ resource, (StaticHttp.readRequest c).1 = .ok resource := ⟨_, rfl⟩
  have request' : StaticHttp.readRequest c = (.ok resource, after) := Prod.ext request rfl
  have left := unread_of_readRequest rfl filled request'
  exact ⟨filled, ⟨resource, request⟩, left.1, rfl⟩

/-- So a request is not always read to its end, though no read fails: of this one the header is left
behind. -/
theorem not_readRequest_leaves_nothing :
    ¬ ∀ (chunks : List Bytes) (ends : Nat) (c c' : Connection) (resource : ResourcePath),
      c.reads = chunks.map .data ++ List.replicate ends .eof → (∀ chunk ∈ chunks, chunk ≠ []) →
      StaticHttp.readRequest c = (.ok resource, c') → c'.close.unread = 0 := by
  intro leavesNothing
  let chunks := [Bytes.ofString "GET /a.txt HTTP/1.0\r\n", Bytes.ofString "Host: x\r\n\r\n"]
  let c : Connection := { reads := chunks.map .data ++ List.replicate 0 .eof }
  have eleven : (StaticHttp.readRequest c).2.close.unread = 11 := rfl
  obtain ⟨resource, request⟩ : ∃ resource, (StaticHttp.readRequest c).1 = .ok resource := ⟨_, rfl⟩
  have none := leavesNothing chunks 0 c _ resource rfl (by decide) (Prod.ext request rfl)
  exact absurd (eleven.symm.trans none) (by decide)

end Connection

end StaticHttp
