import StaticHttp.Proofs.Handling
import StaticHttp.Proofs.Http.Outcome
import StaticHttp.Proofs.Text

/-!
# What the protocol prescribes

`Site.Prescribes` says what a client is to be sent for a request, byte for byte, and what is to be
reported of it. A connection that accepts what is written to it is handled as prescribed
(`handle_fulfils`), from the reading of the request to the last byte of the file: as long as the
tree stays as it is, a file that was found gives what was announced.
-/

namespace StaticHttp

/-! ## Heads as text -/

namespace Head

theorem toBytes_notFound :
    (ofOutcome .notFound).toBytes =
      Bytes.ofString "HTTP/1.0 404 Not Found\r\nContent-Length: 0\r\n\r\n" := by
  decide

theorem toBytes_unsupportedType :
    (ofOutcome .unsupportedType).toBytes =
      Bytes.ofString "HTTP/1.0 415 Unsupported Media Type\r\nContent-Length: 0\r\n\r\n" := by
  decide

/-- The head of a response with a body, as text. -/
def foundText (mime : String) (size : Nat) : String :=
  "HTTP/1.0 200 OK\r\n" ++ ("Content-Type: " ++ mime ++ "\r\n" ++
    ("Content-Length: " ++ toString size ++ "\r\n")) ++ "\r\n"

theorem line_eq (text : String) : line text = Bytes.ofString (text ++ "\r\n") :=
  (Bytes.ofString_append text "\r\n").symm

theorem toBytes_found (path : Path) (size : Nat) (mime : String) :
    (ofOutcome (.found path size mime)).toBytes = Bytes.ofString (foundText mime size) := by
  have ending : lineEnd = Bytes.ofString "\r\n" := rfl
  simp only [toBytes, ofOutcome, add, List.nil_append, List.cons_append, List.flatMap_cons,
    List.flatMap_nil, List.append_nil, line_eq, ending, ← Bytes.ofString_append]
  rfl

end Head

/-- The whole response of a file that holds what was announced. -/
theorem response_found {fs : FileSystem} {path : Path} {content : Bytes} {source : Source}
    (file : fs.lookup path = .ok (.file content)) (opened : fs.openFile path = .ok source)
    (mime : String) :
    (Outcome.found path content.length mime).response fs =
      Bytes.ofString (Head.foundText mime content.length) ++ content := by
  simp only [Outcome.response, Outcome.body, opened, FileSystem.openFile_eq file opened,
    Node.source, Source.first, List.take_length, Head.toBytes_found]

namespace Site

/-- What a request that was read, or not, is to come to: the result, and the bytes sent. -/
inductive Prescribes (site : Site) :
    Except Abort ResourcePath → Except Abort Status → Bytes → Prop
  | unread (abort : Abort) : Prescribes site (.error abort) (.error abort) []
  | unresolved {resource : ResourcePath} {e : IoError}
      (resolved : resolve site.files site.served resource = .error e) :
      Prescribes site (.ok resource) (.error (.error (.io e))) []
  | unopened {resource : ResourcePath} {path : Path} {size : Nat} {mime : String} {e : IoError}
      (resolved : resolve site.files site.served resource = .ok (.found path size mime))
      (closed : site.files.openFile path = .error e) :
      Prescribes site (.ok resource) (.error (.error (.io e))) []
  | notFound {resource : ResourcePath}
      (resolved : resolve site.files site.served resource = .ok .notFound) :
      Prescribes site (.ok resource) (.ok .notFound)
        (Bytes.ofString "HTTP/1.0 404 Not Found\r\nContent-Length: 0\r\n\r\n")
  | unsupportedType {resource : ResourcePath}
      (resolved : resolve site.files site.served resource = .ok .unsupportedType) :
      Prescribes site (.ok resource) (.ok .unsupportedMediaType)
        (Bytes.ofString "HTTP/1.0 415 Unsupported Media Type\r\nContent-Length: 0\r\n\r\n")
  | found {resource : ResourcePath} {path : Path} {mime : String} {content : Bytes}
      (resolved : resolve site.files site.served resource = .ok (.found path content.length mime))
      (file : site.files.lookup path = .ok (.file content))
      (opened : site.files.openFile path = .ok (.content content)) :
      Prescribes site (.ok resource) (.ok .ok)
        (Bytes.ofString (Head.foundText mime content.length) ++ content)

/-- A connection came to what is prescribed, and these bytes were sent. -/
structure Fulfils (site : Site) (c : Connection) (result : Except Abort Status) (log : Log)
    (sent : Bytes) : Prop where
  prescribed : site.Prescribes (readRequest c).1 result sent
  written_eq : log.written = c.log.written ++ sent
  /-- Without a status nothing is written at all, and nothing flushed. -/
  silent : ∀ abort, result = .error abort →
    log.transfers = c.log.transfers ∧ log.flushes = c.log.flushes
  flushes_eq : ∀ status, result = .ok status → log.flushes = c.log.flushes + 1
  /-- No file ends early: such an error can only be one of reading the request. -/
  whole_file : ∀ count size, result = .error (.error (.io (fileEnded count size))) →
    (readRequest c).1 = .error (.error (.io (fileEnded count size)))

variable {site : Site} {c c' after : Connection} {resource : ResourcePath} {outcome : Outcome}

/-- The error of a file that ended early is none with which a path is looked up or opened. -/
private theorem not_isOfLookup_fileEnded (count size : Nat) :
    ¬ (fileEnded count size).IsOfLookup := by
  rintro (h | ⟨_, h⟩)
  · cases congrArg IoError.kind h
  · cases h

/-- Nothing has happened but reading. -/
private theorem fulfils_of_reads {abort : Abort} (reads : c.Reads c')
    (prescribed : site.Prescribes (readRequest c).1 (.error abort) [])
    (whole_file : ∀ count size, abort = .error (.io (fileEnded count size)) →
      (readRequest c).1 = .error abort) :
    site.Fulfils c (.error abort) c'.close [] := by
  obtain ⟨_, _, rfl⟩ := reads
  refine ⟨prescribed, (List.append_nil _).symm, fun _ _ => ⟨rfl, rfl⟩, nofun, ?_⟩
  intro count size h
  cases h
  exact whole_file count size rfl

/-- The outcome of a request is answered as prescribed. -/
private theorem fulfils_of_responds {result : Except IoError (Status × Nat)}
    (reads : c.Reads c') (request : (readRequest c).1 = .ok resource)
    (resolved : resolve site.files site.served resource = .ok outcome)
    (ends : Responds site.files outcome c' result after)
    (accepts : ∀ step ∈ c.writes, step.goesOn = true) (flushes : c.flushError = none) :
    ∃ sent, site.Fulfils c
      ((result.mapError (fun e => Abort.error (.io e))).map (·.1)) after.close sent := by
  have writes_eq : c'.writes = c.writes := by obtain ⟨_, _, rfl⟩ := reads; rfl
  cases ends with
  | unopened found closed =>
    subst found
    refine ⟨[], fulfils_of_reads reads (request ▸ .unopened resolved closed) ?_⟩
    rintro count size h
    cases h
    exact absurd (FileSystem.isOfLookup_of_openFile closed) (not_isOfLookup_fileEnded count size)
  | broken sent => cases sent.error_eq_none (writes_eq ▸ accepts)
  | short found opened shortfall =>
    subst found
    obtain ⟨content, file, rfl⟩ := exists_content_of_resolve resolved
    cases FileSystem.openFile_eq file opened
    simp only [Node.source, Source.shortfall?, Nat.le_refl, if_true, reduceCtorEq] at shortfall
  | @flushed ts rest deliverable sent =>
    have complete := sent.complete_iff.mpr rfl
    obtain ⟨_, _, rfl⟩ := reads
    rw [flushes]
    refine ⟨outcome.response site.files, ?_, ?_, (fun _ failed => by cases failed),
      fun _ _ => rfl, (fun _ _ ended => by cases ended)⟩
    · rw [request]
      cases outcome with
      | notFound =>
        simp only [Outcome.response, Outcome.body, List.append_nil, Head.toBytes_notFound]
        exact .notFound resolved
      | unsupportedType =>
        simp only [Outcome.response, Outcome.body, List.append_nil, Head.toBytes_unsupportedType]
        exact .unsupportedType resolved
      | found path size mime =>
        obtain ⟨source, opened, _⟩ := deliverable
        obtain ⟨content, file, rfl⟩ := exists_content_of_resolve resolved
        rw [response_found file opened]
        cases FileSystem.openFile_eq file opened
        exact .found resolved file opened
    · rw [← complete]
      exact Connection.written_sending _ ts rest

/-- A connection that accepts what is written to it is handled as prescribed, whatever its script
reads, whatever the tree and whatever was counted before. -/
theorem handle_fulfils (site : Site) (c : Connection) (elapsed : Duration) (metrics : Metrics)
    (accepts : ∀ step ∈ c.writes, step.goesOn = true) (flushes : c.flushError = none) :
    ∃ sent, site.Fulfils c (site.handle c elapsed metrics).result
      (site.handle c elapsed metrics).log sent := by
  rw [handle_result, handle_log]
  have ends := site.serves c
  generalize (site.serve c).1 = answer at ends
  generalize (site.serve c).2 = after at ends
  cases ends with
  | unread reads request =>
    exact ⟨[], fulfils_of_reads reads (request ▸ .unread _) fun _ _ _ => request⟩
  | unresolved reads request resolved =>
    refine ⟨[], fulfils_of_reads reads (request ▸ .unresolved resolved) ?_⟩
    rintro count size h
    cases h
    exact absurd (isOfLookup_of_resolve resolved) (not_isOfLookup_fileEnded count size)
  | unanswered reads request resolved ends =>
    exact fulfils_of_responds reads request resolved ends accepts flushes
  | answered reads request resolved ends =>
    exact fulfils_of_responds reads request resolved ends accepts flushes

/-- A file is found and sent to a connection that takes a few bytes at a time and is interrupted. -/
theorem handle_fulfils_small_writes :
    let site : Site := ⟨⟨.directory [(Bytes.ofString "a.txt", .file [1, 2, 3])], [], true⟩,
      Path.here⟩
    let c : Connection :=
      { reads := [.fail (.plain .interrupted), .data (Bytes.ofString "GET /a.txt HTTP/1.0\r\n")]
        writes := [.accept 3, .fail (.plain .interrupted), .accept 1] }
    (∀ step ∈ c.writes, step.goesOn = true) ∧ c.flushError = none ∧
      (∃ resource, (readRequest c).1 = .ok resource ∧
        resolve site.files site.served resource =
          .ok (.found (Bytes.ofString "./a.txt") 3 "text/plain")) ∧
      ∃ sent, site.Fulfils c (site.handle c {} {}).result (site.handle c {} {}).log sent :=
  ⟨by decide, rfl, ⟨_, rfl, rfl⟩, handle_fulfils _ _ _ _ (by decide) rfl⟩

end Site

end StaticHttp
