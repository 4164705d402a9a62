import StaticHttp.Proofs.Http.Mime
import StaticHttp.Proofs.Http.Outcome
import StaticHttp.Proofs.Http.Response
import StaticHttp.Proofs.Text

/-!
# Reading a response

How a client reads a response: the head ends at the first empty line (`Head.blankLine`), the first
line of it has the status, and every other one is a header, cut at its first colon with a space
behind it (`Head.decode?`). Heads are read as they were written, whatever body follows
(`Head.decodes`), since no part of a header can be taken for the end of its line. What is announced
of a body in this way is what a response that was sent has (`Outcome.Announces`).
-/

namespace StaticHttp

namespace Head

/-! ## The reader -/

/-- What ends a head: the end of its last line, and an empty line. -/
def blankLine : Bytes := Bytes.crlf ++ Bytes.crlf

/-- The status on a status line, between spaces: the version, the code and the reason. -/
def status? (line : Bytes) : Option Status := do
  let (version, rest) ← Bytes.cut? [space] line
  let (code, reason) ← Bytes.cut? [space] rest
  let status ← Status.ofCode? (← Number.natural? (← Utf8.toText? code).toList)
  if version = Bytes.ofString "HTTP/1.0" ∧ reason = Bytes.ofString status.reason then some status
  else none

/-- The name and the value on the line of a header. -/
def header? (line : Bytes) : Option (String × String) := do
  let (name, value) ← Bytes.cut? (Bytes.ofString ": ") line
  return (← Utf8.toText? name, ← Utf8.toText? value)

/-- Reads what stands before the empty line, line by line. -/
def decode? (text : Bytes) : Option Head :=
  match Bytes.lines text with
  | [] => none
  | first :: others => do return ⟨← status? first, ← others.mapM header?⟩

/-- The head is what a client reads from these bytes, and what follows them is the body. -/
def DecodesTo (encoded : Bytes) (head : Head) : Prop :=
  ∃ text, encoded = text ++ blankLine ∧ decode? text = some head ∧
    ∀ body, Bytes.cut? blankLine (encoded ++ body) = some (text, body)

/-- No name holds a colon, and neither a name nor a value the end of a line. -/
def WellFormed (head : Head) : Prop :=
  ∀ header ∈ head.headers,
    (':' ∉ header.1.toList ∧ '\r' ∉ header.1.toList ∧ '\n' ∉ header.1.toList) ∧
    '\r' ∉ header.2.toList ∧ '\n' ∉ header.2.toList

/-! ## Lines -/

/-- The end of a line before one that is not empty is no empty line. -/
theorem not_blankLine_prefix {next : Bytes} (clean : 0x0D ∉ next) (present : next ≠ [])
    (rest : Bytes) : ¬ blankLine <+: Bytes.crlf ++ (next ++ rest) := by
  obtain ⟨b, next, rfl⟩ := List.exists_cons_of_ne_nil present
  intro here
  have same : 0x0D = b := by
    simp only [blankLine, Bytes.crlf, List.cons_append, List.nil_append,
      List.cons_prefix_cons] at here
    exact here.2.2.1
  exact clean (same ▸ List.mem_cons_self)

/-- The first empty line is the one behind lines that are not empty. -/
theorem cut?_blankLine {line : Bytes} {others : List Bytes}
    (clean : ∀ l ∈ line :: others, 0x0D ∉ l) (present : ∀ l ∈ others, l ≠ []) (body : Bytes) :
    Bytes.cut? blankLine (line ++ (others.flatMap (Bytes.crlf ++ ·) ++ (blankLine ++ body))) =
      some (line ++ others.flatMap (Bytes.crlf ++ ·), body) := by
  have returnless : 0x0D ∉ line := clean line List.mem_cons_self
  induction others generalizing line with
  | nil =>
    rw [List.flatMap_nil, List.append_nil]
    exact Bytes.cut?_append_mark rfl returnless body
  | cons next rest ih =>
    have below : ∀ l ∈ next :: rest, 0x0D ∉ l := fun l mem => clean l (List.mem_cons_of_mem _ mem)
    have found := ih below (fun l mem => present l (List.mem_cons_of_mem _ mem))
      (below next List.mem_cons_self)
    have absent := not_blankLine_prefix (below next List.mem_cons_self)
      (present next List.mem_cons_self) (rest.flatMap (Bytes.crlf ++ ·) ++ (blankLine ++ body))
    have absent' (tail : Bytes) : ¬ blankLine <+: 0x0A :: tail :=
      fun here => absurd (List.cons_prefix_cons.mp here).1 (by decide)
    rw [List.flatMap_cons, List.append_assoc, List.append_assoc, Bytes.cut?_append rfl returnless]
    simp only [Bytes.crlf, List.cons_append, List.nil_append] at absent found ⊢
    rw [Bytes.cut?_cons absent, Bytes.cut?_cons (absent' _), found]
    rfl

/-! ## Heads are read as they were written -/

/-- The line of a status. -/
def statusLine (status : Status) : Bytes := Bytes.ofString ("HTTP/1.0 " ++ status.text)

def headerLine (header : String × String) : Bytes :=
  Bytes.ofString (header.1 ++ ": " ++ header.2)

/-- The lines of a head, with their ends between them. -/
def text (head : Head) : Bytes :=
  statusLine head.status ++ (head.headers.map headerLine).flatMap (Bytes.crlf ++ ·)

/-- The end of a line can be written before it as well as behind it. -/
theorem crlf_append_flatMap (headers : List (String × String)) :
    Bytes.crlf ++ headers.flatMap (fun header => headerLine header ++ Bytes.crlf) =
      (headers.map headerLine).flatMap (Bytes.crlf ++ ·) ++ Bytes.crlf := by
  induction headers with
  | nil => rfl
  | cons header rest ih =>
    simp only [List.flatMap_cons, List.map_cons, List.append_assoc, ← ih]

theorem toBytes_eq (head : Head) : head.toBytes = head.text ++ blankLine := by
  have lines := crlf_append_flatMap head.headers
  calc
    head.toBytes = statusLine head.status ++ (Bytes.crlf ++
        head.headers.flatMap (fun header => headerLine header ++ Bytes.crlf)) ++ Bytes.crlf := by
      rw [← List.append_assoc]
      rfl
    _ = head.text ++ blankLine := by
      rw [lines, text, blankLine]
      simp only [List.append_assoc]

theorem status?_statusLine (status : Status) : status? (statusLine status) = some status := by
  cases status <;> decide

theorem header?_headerLine {header : String × String} (uncolonned : ':' ∉ header.1.toList) :
    header? (headerLine header) = some header := by
  have clean : 0x3A ∉ Bytes.ofString header.1 :=
    fun mem => uncolonned (Bytes.mem_toList_of_mem_ofString (by decide) mem)
  have found : Bytes.cut? (Bytes.ofString ": ")
      (Bytes.ofString header.1 ++ (Bytes.ofString ": " ++ Bytes.ofString header.2)) =
        some (Bytes.ofString header.1, Bytes.ofString header.2) :=
    Bytes.cut?_append_mark rfl clean _
  rw [headerLine, Bytes.ofString_append, Bytes.ofString_append, List.append_assoc, header?, found]
  simp [Utf8.toText?_ofString]

/-- A head without the end of a line in its names and values is as many lines as it has. -/
theorem returnless_of_wellFormed {head : Head} (wellFormed : head.WellFormed) :
    ∀ line ∈ statusLine head.status :: head.headers.map headerLine, 0x0D ∉ line := by
  intro line mem
  rcases List.mem_cons.mp mem with rfl | mem
  · cases head.status <;> decide
  · obtain ⟨header, written, rfl⟩ := List.mem_map.mp mem
    obtain ⟨name, value⟩ := wellFormed header written
    intro inside
    have inside : '\r' ∈ (header.1 ++ ": " ++ header.2).toList :=
      Bytes.mem_toList_of_mem_ofString (by decide) inside
    rw [String.toList_append, String.toList_append] at inside
    rcases List.mem_append.mp inside with inside | inside
    · rcases List.mem_append.mp inside with inside | inside
      · exact name.2.1 inside
      · exact absurd inside (by decide)
    · exact value.1 inside

theorem mapM_header? {headers : List (String × String)}
    (uncolonned : ∀ header ∈ headers, ':' ∉ header.1.toList) :
    (headers.map headerLine).mapM header? = some headers := by
  induction headers with
  | nil => rfl
  | cons header rest ih =>
    rw [List.map_cons, List.mapM_cons, header?_headerLine (uncolonned header List.mem_cons_self),
      ih fun other mem => uncolonned other (List.mem_cons_of_mem _ mem)]
    rfl

/-- Heads are read as they were written, whatever follows them. -/
theorem decodesTo_toBytes {head : Head} (wellFormed : head.WellFormed) :
    DecodesTo head.toBytes head := by
  have returnless := returnless_of_wellFormed wellFormed
  refine ⟨head.text, head.toBytes_eq, ?_, fun body => ?_⟩
  · have uncolonned : ∀ header ∈ head.headers, ':' ∉ header.1.toList :=
      fun header mem => (wellFormed header mem).1.1
    simp only [decode?, text, Bytes.lines_eq returnless, status?_statusLine,
      mapM_header? uncolonned]
    rfl
  · have present : ∀ line ∈ head.headers.map headerLine, line ≠ [] := by
      intro line mem empty
      obtain ⟨header, -, rfl⟩ := List.mem_map.mp mem
      rw [headerLine, Bytes.ofString_append, Bytes.ofString_append] at empty
      exact absurd (List.append_eq_nil_iff.mp (List.append_eq_nil_iff.mp empty).1).2 (by decide)
    rw [head.toBytes_eq, List.append_assoc, text, List.append_assoc]
    exact cut?_blankLine returnless present body

end Head

/-! ## What is announced of a body -/

/-- What a client is told of the body that belongs to an outcome. -/
structure Outcome.Announces (outcome : Outcome) (head : Head) : Prop where
  status_eq : head.status = outcome.status
  type_iff : (∃ value, ("Content-Type", value) ∈ head.headers) ↔ head.status.code = 200
  /-- The length is told once, in decimal digits. -/
  length_told : ∃ value,
    (head.headers.filter fun header => header.1 = "Content-Length") = [("Content-Length", value)] ∧
    Number.natural? value.toList = some outcome.size

theorem Outcome.announces (outcome : Outcome) : outcome.Announces (Head.ofOutcome outcome) where
  status_eq := by cases outcome <;> rfl
  type_iff := by cases outcome <;> simp [Head.ofOutcome, Head.add, Status.code]
  length_told := by
    refine ⟨toString outcome.size, ?_, Number.natural?_toString _⟩
    cases outcome with
    | found path size mime => simp [Head.ofOutcome, Head.add, Outcome.size]
    | notFound | unsupportedType => rfl

/-- What is found has a media type of the table. -/
theorem mem_table_of_resolve {fs : FileSystem} {served path : Path} {resource : ResourcePath}
    {size : Nat} {mime : String}
    (found : resolve fs served resource = .ok (.found path size mime)) :
    ∃ extension, (extension, mime) ∈ Mime.table := by
  obtain ⟨_, _, _, _, _, _, typed⟩ := exists_file_of_resolve found
  obtain ⟨_, _, known⟩ := Option.bind_eq_some_iff.mp typed
  obtain ⟨listed, mem, _⟩ := Mime.ofExtension?_eq_some_iff.mp known
  exact ⟨listed, mem⟩

namespace Head

theorem wellFormed_of_resolve {fs : FileSystem} {served : Path} {resource : ResourcePath}
    {outcome : Outcome} (resolved : resolve fs served resource = .ok outcome) :
    (ofOutcome outcome).WellFormed := by
  cases outcome with
  | found path size mime =>
    obtain ⟨extension, listed⟩ := mem_table_of_resolve resolved
    have types : ∀ entry ∈ Mime.table, '\r' ∉ entry.2.toList ∧ '\n' ∉ entry.2.toList := by decide
    have digits : '\r' ∉ (toString size).toList ∧ '\n' ∉ (toString size).toList :=
      ⟨fun mem => absurd (Number.isDigit_of_mem_toString mem) (by decide),
        fun mem => absurd (Number.isDigit_of_mem_toString mem) (by decide)⟩
    have names : ∀ name ∈ ["Content-Type", "Content-Length"],
        ':' ∉ name.toList ∧ '\r' ∉ name.toList ∧ '\n' ∉ name.toList := by decide
    intro header mem
    rcases List.mem_pair.mp mem with rfl | rfl
    · exact ⟨names "Content-Type" (by decide), types (extension, mime) listed⟩
    · exact ⟨names "Content-Length" (by decide), digits⟩
  | notFound | unsupportedType =>
    intro header mem
    obtain rfl := List.mem_singleton.mp mem
    exact ⟨by decide, by decide⟩

end Head

/-- What a client is sent when a response is reported as sent is the head, and a body of the length
that the head announces. -/
theorem exists_body_of_respond {now : FileSystem} {outcome : Outcome} {c : Connection}
    {answer : Status × Nat} (answered : (respond now outcome c).1 = .ok answer) :
    ∃ body, body.length = outcome.size ∧
      (respond now outcome c).2.log.written =
        c.log.written ++ ((Head.ofOutcome outcome).toBytes ++ body) := by
  have ends := responds now outcome c
  rw [answered] at ends
  obtain ⟨-, deliverable, ts, rest, sent, after⟩ := ends.of_ok
  refine ⟨outcome.body now, Outcome.length_body_of_deliverable deliverable, ?_⟩
  rw [after]
  exact (c.written_sending ts rest).trans (congrArg _ (sent.complete_iff.mpr rfl))

/-- A head is read as it was written, whatever body follows it. The head of whatever a request comes
to tells the status, the type of a file that was found and of nothing else, and once the length of
the body, which is the length of the body that was sent when a response is reported as sent. -/
theorem Head.decodes :
    (∀ head : Head, head.WellFormed → DecodesTo head.toBytes head) ∧
    ∀ {fs served resource outcome}, resolve fs served resource = .ok outcome →
      ∃ head, DecodesTo (ofOutcome outcome).toBytes head ∧ outcome.Announces head ∧
        ∀ {now c answer}, (respond now outcome c).1 = .ok answer →
          ∃ body, body.length = outcome.size ∧ (respond now outcome c).2.log.written =
            c.log.written ++ ((ofOutcome outcome).toBytes ++ body) := by
  refine ⟨fun head => decodesTo_toBytes, fun {fs served resource outcome} resolved => ?_⟩
  exact ⟨ofOutcome outcome, decodesTo_toBytes (wellFormed_of_resolve resolved),
    outcome.announces, exists_body_of_respond⟩

/-- Colons in a value are part of it, a header may be empty, and an empty line in a file is none of
the head. -/
theorem Head.decodes_blank_lines :
    let head : Head := ⟨.notFound, [("X", ": a: b"), ("", "")]⟩
    let fs : FileSystem := ⟨.directory [(Bytes.ofString "www",
      .directory [(Bytes.ofString "a.txt", .file [13, 10, 13, 10, 7])])], [], true⟩
    let resource : ResourcePath := ⟨Bytes.ofString "/a.txt", rfl, List.all_eq_true.mp rfl, rfl⟩
    let outcome : Outcome := .found (Bytes.ofString "www/a.txt") 5 "text/plain"
    head.WellFormed ∧ DecodesTo head.toBytes head ∧
    resolve fs (Bytes.ofString "www") resource = .ok outcome ∧
    (respond fs outcome {}).1 = .ok (.ok, 5) ∧
    ∃ read, DecodesTo (ofOutcome outcome).toBytes read ∧ outcome.Announces read ∧
      ∃ body, body.length = 5 ∧
        (respond fs outcome {}).2.log.written = (ofOutcome outcome).toBytes ++ body := by
  intro head fs resource outcome
  have wellFormed : head.WellFormed := by
    show ∀ header ∈ head.headers, _
    decide
  have resolved : resolve fs (Bytes.ofString "www") resource = .ok outcome := by decide
  have answered : (respond fs outcome {}).1 = .ok (.ok, 5) := by decide +kernel
  obtain ⟨read, decodes, announces, sent⟩ := Head.decodes.2 resolved
  exact ⟨wellFormed, Head.decodes.1 head wellFormed, resolved, answered, read, decodes, announces,
    sent answered⟩

end StaticHttp
