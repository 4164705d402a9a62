import StaticHttp.Proofs.Handling
import StaticHttp.Proofs.Http.Draining
import StaticHttp.Proofs.Http.RequestLine

/-!
# Only the target counts

Of a request line the target alone is looked at, whatever stands before and behind it, and of a
request nothing but its line, into however many pieces the rest falls: a connection whose reads do
not fail is answered as if the target were all that it sent (`Asks.request`). The answer
does not depend on what happened on the connection before (`Site.answer_over`). So two connections
that ask for the same target and take the same writes are answered and counted alike
(`Site.alike_of_asks`).
-/

namespace StaticHttp

/-! ## The request -/

/-- The connection asks for these bytes: its first read brings a request line with them, and no read
fails. -/
structure Connection.Asks (c : Connection) (target : Bytes) : Prop where
  slashed : target.head? = some Path.slash
  within : ∀ b ∈ target, inTarget b = true
  first : ∃ before after, (∀ b ∈ before, RequestLine.beforeTarget b = true) ∧
    (c.readRetrying bufferSize).1 = .bytes (before ++ target ++ space :: after)
  calm : c.Calm

variable {c c' c₁ c₂ : Connection} {target : Bytes}

/-- If no read fails the first one decides, however the rest is read. -/
theorem Connection.Calm.request {bytes : Bytes} (calm : c.Calm)
    (read : (c.readRetrying bufferSize).1 = .bytes bytes) (present : bytes ≠ []) :
    (readRequest c).1 = (RequestLine.parse bytes).mapError
      fun fault => .error (.malformed fault.reason) := by
  obtain ⟨_, c', reads, later⟩ := calm.readRetrying bufferSize
  rw [reads] at read
  cases read
  obtain ⟨b, bs, rfl⟩ := List.exists_cons_of_ne_nil present
  obtain ⟨_, drained⟩ := later.drain
  simp only [readRequest, reads]
  cases RequestLine.parse (b :: bs) with
  | error fault => rfl
  | ok resource =>
    simp only [drained]
    split <;> rfl

/-- A connection is asked as if the target were all that it sends. -/
theorem Connection.Asks.request (asks : c.Asks target) :
    (readRequest c).1 = (RequestLine.parse (target ++ [space])).mapError
      fun fault => .error (.malformed fault.reason) := by
  obtain ⟨before, after, skipped, first⟩ := asks.first
  have bare := @RequestLine.parse_eq [] target [] (List.forall_mem_nil _) asks.slashed asks.within
  rw [asks.calm.request first (by simp), RequestLine.parse_eq skipped asks.slashed asks.within]
  exact congrArg _ bare.symm

/-! ## The answer -/

/-- What a connection will do and what has happened on it, put over what has happened on another one
before. -/
def Connection.over (c d : Connection) : Connection :=
  { d with
    writes := c.writes
    flushError := c.flushError
    log := { d.log with
      transfers := c.log.transfers ++ d.log.transfers
      flushes := d.log.flushes + c.log.flushes } }

/-- What the connection will do with what is written to it, before anything is. -/
def Connection.bare (c : Connection) : Connection :=
  { writes := c.writes, flushError := c.flushError }

variable (d : Connection)

theorem written_over (c : Connection) :
    (c.over d).log.written = d.log.written ++ c.log.written := by
  simp only [Connection.over, Log.written, List.reverse_append, List.flatMap_append]

theorem send_over (bs : Bytes) (c : Connection) :
    (c.over d).send bs = ((c.send bs).1, (c.send bs).2.over d) := rfl

theorem flush_over (c : Connection) : (c.over d).flush = (c.flush.1, c.flush.2.over d) := by
  unfold Connection.flush
  simp only [Connection.over]
  cases c.flushError <;> rfl

theorem sendBuffers_over (buffers : List Bytes) (c : Connection) :
    sendBuffers buffers (c.over d) =
      ((sendBuffers buffers c).1, (sendBuffers buffers c).2.over d) := by
  induction buffers generalizing c with
  | nil => rfl
  | cons buffer buffers ih =>
    simp only [sendBuffers, send_over]
    rcases c.send buffer with ⟨_ | _, c'⟩
    · rfl
    · simp only [ih]
      rcases sendBuffers buffers c' with ⟨_ | _, c''⟩ <;> rfl

theorem sendBody_over (source : Source) (size : Nat) (c : Connection) :
    sendBody source size (c.over d) =
      ((sendBody source size c).1, (sendBody source size c).2.over d) := by
  cases source with
  | directory =>
    simp only [sendBody]
    split <;> rfl
  | content bytes => exact sendBuffers_over d _ c

theorem finish_over (status : Status) (sent : Nat) (c : Connection) :
    finish status sent (c.over d) =
      ((finish status sent c).1, (finish status sent c).2.over d) := by
  simp only [finish, flush_over]
  rcases c.flush with ⟨_ | _, c'⟩ <;> rfl

theorem respond_over (fs : FileSystem) (outcome : Outcome) (c : Connection) :
    respond fs outcome (c.over d) =
      ((respond fs outcome c).1, (respond fs outcome c).2.over d) := by
  cases outcome with
  | notFound | unsupportedType =>
    simp only [respond, send_over]
    rcases c.send _ with ⟨_ | _, c'⟩
    · rfl
    · exact finish_over d _ _ c'
  | found path size mime =>
    simp only [respond]
    cases fs.openFile path with
    | error => rfl
    | ok source =>
      simp only [send_over]
      rcases c.send _ with ⟨_ | _, c'⟩
      · rfl
      · simp only [sendBody_over]
        rcases sendBody source size c' with ⟨_ | sent, c''⟩
        · rfl
        · simp only
          split
          · exact finish_over d _ _ c''
          · rfl

namespace Site

variable (site : Site)

/-- What becomes of a connection once its request is read, or is not. -/
def answer (request : Except Abort ResourcePath) (c : Connection) :
    Except Abort (Status × Nat) × Connection :=
  match request with
  | .error a => (.error a, c)
  | .ok resource =>
    match resolve site.files site.served resource with
    | .error e => (.error (.error (.io e)), c)
    | .ok outcome =>
      match respond site.files outcome c with
      | (.error e, c) => (.error (.error (.io e)), c)
      | (.ok answer, c) => (.ok answer, c)

theorem serve_eq_answer (c : Connection) :
    site.serve c = site.answer (readRequest c).1 (readRequest c).2 := by
  unfold serve answer
  rcases readRequest c with ⟨_ | _, c'⟩ <;> rfl

theorem answer_over (request : Except Abort ResourcePath) (c : Connection) :
    site.answer request (c.over d) =
      ((site.answer request c).1, (site.answer request c).2.over d) := by
  cases request with
  | error => rfl
  | ok resource =>
    simp only [answer]
    cases resolve site.files site.served resource with
    | error => rfl
    | ok outcome =>
      simp only [respond_over]
      rcases respond site.files outcome c with ⟨_ | _, c'⟩ <;> rfl

theorem serve_of_request {request : Except Abort ResourcePath} (h : (readRequest c).1 = request) :
    ∃ d, c.Reads d ∧ site.serve c =
      ((site.answer request c.bare).1, (site.answer request c.bare).2.over d) := by
  refine ⟨(readRequest c).2, Connection.reads_readRequest c, ?_⟩
  rw [serve_eq_answer, h, ← answer_over]
  obtain ⟨reads, count, same⟩ := Connection.reads_readRequest c
  rw [same]
  rfl

end Site

/-- Two connections cannot be told apart by what was made of them: the same result, the same buffers
offered and the same bytes of them accepted, and each counter raised by the same number. -/
structure Alike (c₁ c₂ : Connection) (metrics₁ metrics₂ : Metrics) (h₁ h₂ : Handled) : Prop where
  result : h₁.result = h₂.result
  transfers : ∃ ts, h₁.log.transfers = ts ++ c₁.log.transfers ∧
    h₂.log.transfers = ts ++ c₂.log.transfers
  written : ∃ sent, h₁.log.written = c₁.log.written ++ sent ∧
    h₂.log.written = c₂.log.written ++ sent
  flushes : ∃ n, h₁.log.flushes = c₁.log.flushes + n ∧ h₂.log.flushes = c₂.log.flushes + n
  count : ∀ k, ∃ gain, h₁.metrics.count k = metrics₁.count k + gain ∧
    h₂.metrics.count k = metrics₂.count k + gain

namespace Site

/-- Two connections that ask for the same target, and on which writing and flushing goes the same
way, are handled alike: neither the method nor what follows the target has a say in it, nor how the
request falls into reads. -/
theorem alike_of_asks (site : Site) (asks₁ : c₁.Asks target) (asks₂ : c₂.Asks target)
    (writes : c₁.writes = c₂.writes) (flushError : c₁.flushError = c₂.flushError)
    (elapsed₁ elapsed₂ : Duration) (metrics₁ metrics₂ : Metrics) :
    Alike c₁ c₂ metrics₁ metrics₂ (site.handle c₁ elapsed₁ metrics₁)
      (site.handle c₂ elapsed₂ metrics₂) := by
  obtain ⟨d₁, reads₁, serve₁⟩ := serve_of_request site asks₁.request
  obtain ⟨d₂, reads₂, serve₂⟩ := serve_of_request site asks₂.request
  have same : c₂.bare = c₁.bare := by simp only [Connection.bare, writes, flushError]
  rw [same] at serve₂
  generalize site.answer _ c₁.bare = answered at serve₁ serve₂
  obtain ⟨_, _, rfl⟩ := reads₁
  obtain ⟨_, _, rfl⟩ := reads₂
  refine ⟨?_, ?_, ?_, ?_, fun k => ⟨site.alone k c₁, ?_⟩⟩
  · rw [handle_result, handle_result, serve₁, serve₂]
  · refine ⟨answered.2.log.transfers, ?_, ?_⟩
    · rw [handle_log, serve₁]
      rfl
    · rw [handle_log, serve₂]
      rfl
  · refine ⟨answered.2.log.written, ?_, ?_⟩
    · rw [handle_log, serve₁]
      exact written_over _ _
    · rw [handle_log, serve₂]
      exact written_over _ _
  · refine ⟨answered.2.log.flushes, ?_, ?_⟩
    · rw [handle_log, serve₁]
      rfl
    · rw [handle_log, serve₂]
      rfl
  · have alone : site.alone k c₁ = site.alone k c₂ := by
      simp only [Site.alone, handle, serve₁, serve₂]
    exact ⟨count_handle .., alone ▸ count_handle ..⟩

/-- A request in one piece, and one with another method that takes two reads, for a file that is not
there. -/
theorem alike_of_asks_not_found :
    let site : Site := ⟨⟨.directory [(Bytes.ofString "a.txt", .file [1, 2, 3])], [], true⟩,
      Path.here⟩
    let target := Bytes.ofString "/b.txt"
    let line := target ++ Bytes.ofString " HTTP/1.0\r\n"
    let c₁ : Connection := { reads := [.data (Bytes.ofString "GET " ++ line)] }
    let c₂ : Connection :=
      { reads := [.data (Bytes.ofString "POST " ++ line ++ List.replicate 600 0x61), .eof] }
    c₁.Asks target ∧ c₂.Asks target ∧
      Alike c₁ c₂ {} {} (site.handle c₁ {} {}) (site.handle c₂ {} {}) ∧
      (site.handle c₁ {} {}).result = .ok .notFound := by
  intro site target line c₁ c₂
  have within : ∀ b ∈ target, inTarget b = true := List.all_eq_true.mp rfl
  have asks₁ : c₁.Asks target :=
    ⟨rfl, within, ⟨Bytes.ofString "GET ", Bytes.ofString "HTTP/1.0\r\n",
      List.all_eq_true.mp rfl, rfl⟩, by decide⟩
  have asks₂ : c₂.Asks target :=
    ⟨rfl, within, ⟨Bytes.ofString "POST ", Bytes.ofString "HTTP/1.0\r\n" ++ List.replicate 490 0x61,
      List.all_eq_true.mp rfl, by decide +kernel⟩, by decide⟩
  exact ⟨asks₁, asks₂, alike_of_asks site asks₁ asks₂ rfl rfl {} {} {} {}, rfl⟩

end Site

end StaticHttp
