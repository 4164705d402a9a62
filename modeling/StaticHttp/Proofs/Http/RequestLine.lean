import StaticHttp.Http.Request
import Mathlib.Data.List.TakeWhile

/-!
# The grammar of a request line

A request line is one that can be cut into what stands before its target, the target and what
follows the space behind it (`RequestLine.Cut`); there is only one such cut (`Cut.unique`). A line is
accepted exactly if it can be cut and its target is a text, and of every other line it is said in
which of three ways it fails (`parses`, `verdict_of_line`). Reading the line by positions, as a scan over
an array does, comes to the same, and no position lies outside the line (`byPositions?_eq`).
-/

namespace StaticHttp

/-! ## Texts -/

/-- The bytes of texts are the lists of bytes that encode lists of characters. -/
theorem Utf8.isText_iff {bs : Bytes} : isText bs = true ↔ ∃ text, Bytes.ofString text = bs := by
  rw [isText, ByteArray.validateUTF8_eq_true_iff]
  constructor
  · intro valid
    exact ⟨.ofByteArray ⟨bs.toArray⟩ valid, rfl⟩
  · rintro ⟨text, rfl⟩
    exact text.isValidUTF8

namespace RequestLine

variable {line before target after : Bytes}

/-! ## The cut -/

/-- The line falls into what stands before its target, the target, and what follows the space behind
it: the target begins with the first slash of the line, and the space comes before the line ends. -/
structure Cut (line before target after : Bytes) : Prop where
  whole : line = before ++ target ++ 0x20 :: after
  skipped : ∀ b ∈ before, b ≠ 0x2F ∧ b ≠ 0x0D ∧ b ≠ 0x0A
  slashed : ∃ name, target = 0x2F :: name
  within : ∀ b ∈ target, b ≠ 0x20 ∧ b ≠ 0x0D ∧ b ≠ 0x0A

theorem beforeTarget_iff {b : UInt8} :
    beforeTarget b = true ↔ b ≠ 0x2F ∧ b ≠ 0x0D ∧ b ≠ 0x0A := by
  simp [beforeTarget, isLineEnd, Path.slash]

theorem inTarget_iff {b : UInt8} : inTarget b = true ↔ b ≠ 0x20 ∧ b ≠ 0x0D ∧ b ≠ 0x0A := by
  simp [inTarget, isLineEnd, space]

/-- What precedes the first end of a line. -/
def firstLine (bs : Bytes) : Bytes := bs.takeWhile fun b => !isLineEnd b

/-- The skipping of what precedes a target ends at a slash exactly if the first line has one. -/
theorem slash_mem_firstLine_iff :
    Path.slash ∈ firstLine line ↔ ∃ name, line.dropWhile beforeTarget = Path.slash :: name := by
  induction line with
  | nil => simp [firstLine]
  | cons b rest ih =>
    by_cases slashed : b = Path.slash
    · subst slashed
      exact iff_of_true List.mem_cons_self ⟨rest, rfl⟩
    by_cases ends : isLineEnd b = true
    · simp [firstLine, beforeTarget, ends, slashed]
    · rw [firstLine, List.takeWhile_cons_of_pos (by simpa using ends), List.mem_cons,
        or_iff_right (Ne.symm slashed), List.dropWhile_cons_of_pos (by simp [beforeTarget, *])]
      exact ih

namespace Cut

variable (cut : Cut line before target after)
include cut

theorem head?_target : target.head? = some Path.slash := by
  obtain ⟨name, rfl⟩ := cut.slashed
  rfl

theorem dropWhile_beforeTarget : line.dropWhile beforeTarget = target ++ space :: after := by
  obtain ⟨name, rfl⟩ := cut.slashed
  rw [cut.whole, List.append_assoc,
    List.dropWhile_append_of_pos fun b mem => beforeTarget_iff.mpr (cut.skipped b mem)]
  exact List.dropWhile_cons_of_neg (by decide)

theorem takeWhile_inTarget : (target ++ space :: after).takeWhile inTarget = target := by
  rw [List.takeWhile_append_of_pos fun b mem => inTarget_iff.mpr (cut.within b mem),
    List.takeWhile_cons_of_neg (by decide), List.append_nil]

theorem dropWhile_inTarget :
    (target ++ space :: after).dropWhile inTarget = space :: after := by
  rw [List.dropWhile_append_of_pos fun b mem => inTarget_iff.mpr (cut.within b mem),
    List.dropWhile_cons_of_neg (by decide)]

/-- A line is cut in one way only. -/
theorem unique {before' target' after' : Bytes} (cut' : Cut line before' target' after') :
    before = before' ∧ target = target' ∧ after = after' := by
  have rest := cut.dropWhile_beforeTarget.symm.trans cut'.dropWhile_beforeTarget
  obtain rfl : target = target' := by
    rw [← cut.takeWhile_inTarget, rest, cut'.takeWhile_inTarget]
  obtain rfl : after = after' := List.tail_eq_of_cons_eq (List.append_cancel_left rest)
  have first := cut.whole.symm.trans cut'.whole
  rw [List.append_assoc, List.append_assoc] at first
  exact ⟨List.append_cancel_right first, rfl, rfl⟩

/-- More bytes behind a line do not change its cut. -/
theorem append (more : Bytes) : Cut (line ++ more) before target (after ++ more) where
  whole := by rw [cut.whole, List.append_assoc, List.cons_append]
  skipped := cut.skipped
  slashed := cut.slashed
  within := cut.within

/-- The target alone decides about a line that can be cut. -/
theorem parse_eq :
    parse line = if text : Utf8.isText target = true
      then .ok ⟨target, cut.head?_target, fun b mem => inTarget_iff.mpr (cut.within b mem), text⟩
      else .error .notText := by
  have opens : (target ++ space :: after).head? = some Path.slash := by
    rw [List.head?_append, cut.head?_target, Option.some_or]
  have taken := cut.takeWhile_inTarget
  have left := cut.dropWhile_inTarget
  unfold parse
  rw [cut.dropWhile_beforeTarget]
  split
  · next none =>
    rw [none] at opens
    cases opens
  · next first rest whole =>
    rw [whole] at taken left opens
    rw [dif_pos (Option.some.inj opens)]
    simp only [left, taken, List.head?_cons, if_true]

end Cut

/-- The target alone decides about a request line. -/
theorem parse_eq (skipped : ∀ b ∈ before, beforeTarget b = true)
    (slashed : target.head? = some Path.slash) (within : ∀ b ∈ target, inTarget b = true) :
    parse (before ++ target ++ space :: after) =
      if text : Utf8.isText target = true then .ok ⟨target, slashed, within, text⟩
      else .error .notText := by
  have cut : Cut (before ++ target ++ space :: after) before target after :=
    ⟨rfl, fun b mem => beforeTarget_iff.mp (skipped b mem), List.head?_eq_some_iff.mp slashed,
      fun b mem => inTarget_iff.mp (within b mem)⟩
  exact cut.parse_eq

/-! ## What is said of a line -/

/-- What may be said of a line, and when. -/
inductive Parses (line : Bytes) : Except Fault ResourcePath → Prop
  | accepted {before after : Bytes} {resource : ResourcePath}
      (cut : Cut line before resource.path after) : Parses line (.ok resource)
  | notText {before target after : Bytes} (cut : Cut line before target after)
      (wrong : Utf8.isText target = false) : Parses line (.error .notText)
  | noPath (unslashed : Path.slash ∉ firstLine line) : Parses line (.error .noPath)
  | incomplete (slashed : Path.slash ∈ firstLine line)
      (uncut : ∀ before target after, ¬ Cut line before target after) :
      Parses line (.error .incomplete)

theorem parse_of_unslashed (unslashed : Path.slash ∉ firstLine line) :
    parse line = .error .noPath := by
  unfold parse
  split
  · rfl
  · next first rest skipped =>
    refine dif_neg fun slashed => unslashed (slash_mem_firstLine_iff.mpr ⟨rest, ?_⟩)
    rw [skipped, slashed]

theorem parse_of_uncut (slashed : Path.slash ∈ firstLine line)
    (uncut : ∀ before target after, ¬ Cut line before target after) :
    parse line = .error .incomplete := by
  obtain ⟨name, skipped⟩ := slash_mem_firstLine_iff.mp slashed
  have open_ : ((Path.slash :: name).dropWhile inTarget).head? ≠ some space := by
    intro closed
    obtain ⟨after, left⟩ := List.head?_eq_some_iff.mp closed
    refine uncut (line.takeWhile beforeTarget) ((Path.slash :: name).takeWhile inTarget) after
      ⟨?_, fun b mem => beforeTarget_iff.mp (List.mem_takeWhile_imp mem),
        ⟨name.takeWhile inTarget, rfl⟩,
        fun b mem => inTarget_iff.mp (inTarget_of_mem_takeWhile mem)⟩
    calc line = line.takeWhile beforeTarget ++ line.dropWhile beforeTarget :=
          List.takeWhile_append_dropWhile.symm
      _ = line.takeWhile beforeTarget ++ ((Path.slash :: name).takeWhile inTarget ++
            (Path.slash :: name).dropWhile inTarget) := by
          rw [skipped, List.takeWhile_append_dropWhile]
      _ = _ := by rw [left, List.append_assoc]; rfl
  unfold parse
  simp only [skipped, dif_pos, if_neg open_]

theorem parses (line : Bytes) : Parses line (parse line) := by
  by_cases cuts : ∃ before target after, Cut line before target after
  · obtain ⟨before, target, after, cut⟩ := cuts
    rw [cut.parse_eq]
    split
    · exact .accepted cut
    · next wrong => exact .notText cut (Bool.eq_false_iff.mpr wrong)
  · have uncut : ∀ before target after, ¬ Cut line before target after :=
      fun before target after cut => cuts ⟨before, target, after, cut⟩
    by_cases slashed : Path.slash ∈ firstLine line
    · rw [parse_of_uncut slashed uncut]
      exact .incomplete slashed uncut
    · rw [parse_of_unslashed slashed]
      exact .noPath slashed

theorem parse_eq_ok_iff {resource : ResourcePath} :
    parse line = .ok resource ↔ ∃ before after, Cut line before resource.path after := by
  constructor
  · intro accepted
    have said := parses line
    rw [accepted] at said
    cases said with
    | accepted cut => exact ⟨_, _, cut⟩
  · rintro ⟨before, after, cut⟩
    rw [cut.parse_eq, dif_pos resource.isTarget.2.2]

/-- A line is longer than the path on it. -/
theorem length_lt_of_parse {resource : ResourcePath} (accepted : parse line = .ok resource) :
    resource.path.length < line.length := by
  obtain ⟨before, after, cut⟩ := parse_eq_ok_iff.mp accepted
  rw [cut.whole, List.length_append, List.length_append, List.length_cons]
  omega

theorem parse_eq_notText_iff :
    parse line = .error .notText ↔
      ∃ before target after, Cut line before target after ∧ Utf8.isText target = false := by
  constructor
  · intro refused
    have said := parses line
    rw [refused] at said
    cases said with
    | notText cut wrong => exact ⟨_, _, _, cut, wrong⟩
  · rintro ⟨before, target, after, cut, wrong⟩
    rw [cut.parse_eq, dif_neg (Bool.eq_false_iff.mp wrong)]

theorem parse_eq_noPath_iff : parse line = .error .noPath ↔ Path.slash ∉ firstLine line := by
  constructor
  · intro refused
    have said := parses line
    rw [refused] at said
    cases said with
    | noPath unslashed => exact unslashed
  · exact parse_of_unslashed

theorem parse_eq_incomplete_iff :
    parse line = .error .incomplete ↔
      Path.slash ∈ firstLine line ∧ ∀ before target after, ¬ Cut line before target after := by
  constructor
  · intro refused
    have said := parses line
    rw [refused] at said
    cases said with
    | incomplete slashed uncut => exact ⟨slashed, uncut⟩
  · rintro ⟨slashed, uncut⟩
    exact parse_of_uncut slashed uncut

/-! ## Positions -/

/-- Where a scan stops, the bytes before are those that it skips, and there is one to stop at. -/
theorem stops_of_findIdx? {p : UInt8 → Bool} {bs : Bytes} {i : Nat}
    (found : bs.findIdx? (fun b => !p b) = some i) :
    ∃ b rest, bs[i]? = some b ∧ i ≤ bs.length ∧ p b = false ∧
      bs.drop i = b :: rest ∧ bs.dropWhile p = b :: rest ∧ bs.take i = bs.takeWhile p := by
  obtain ⟨inside, stop, -⟩ := List.findIdx?_eq_some_iff_getElem.mp found
  obtain ⟨-, rfl⟩ := List.findIdx?_eq_some_iff_findIdx_eq.mp found
  rw [List.dropWhile_eq_drop_findIdx_not, List.takeWhile_eq_take_findIdx_not,
    List.drop_eq_getElem_cons inside]
  exact ⟨_, _, List.getElem?_eq_getElem inside, inside.le, by simpa using stop, rfl, rfl, rfl⟩

theorem dropWhile_of_findIdx?_eq_none {p : UInt8 → Bool} {bs : Bytes}
    (none : bs.findIdx? (fun b => !p b) = none) : bs.dropWhile p = [] := by
  apply List.dropWhile_eq_nil_iff.mpr
  intro b mem
  simpa using List.findIdx?_eq_none_iff.mp none b mem

/-- The bytes from a position on, which must not lie behind the end. -/
def from? (start : Nat) (bs : Bytes) : Option Bytes :=
  if start ≤ bs.length then some (bs.drop start) else none

/-- The bytes up to a position, which must not lie behind the end. -/
def upTo? (stop : Nat) (bs : Bytes) : Option Bytes :=
  if stop ≤ bs.length then some (bs.take stop) else none

/-- Reads a line by the positions at which its target begins and ends. There is no result if a
position lies outside of what it is looked up in. -/
def byPositions? (bs : Bytes) : Option (Except Fault Bytes) :=
  match bs.findIdx? (fun b => !beforeTarget b) with
  | none => some (.error .noPath)
  | some start => do
    let first ← bs[start]?
    if isLineEnd first then return .error .noPath
    let rest ← from? start bs
    match rest.findIdx? (fun b => !inTarget b) with
    | none => return .error .incomplete
    | some stop =>
      let last ← rest[stop]?
      if last != space then return .error .incomplete
      let target ← upTo? stop rest
      return if Utf8.isText target then .ok target else .error .notText

/-- No position lies outside, and reading by positions comes to the same. -/
theorem byPositions?_eq (line : Bytes) :
    byPositions? line = some ((parse line).map ResourcePath.path) := by
  unfold byPositions? parse
  cases found : line.findIdx? (fun b => !beforeTarget b) with
  | none =>
    rw [dropWhile_of_findIdx?_eq_none found]
    rfl
  | some start =>
    obtain ⟨first, rest, here, inside, stop, left, skipped, -⟩ := stops_of_findIdx? found
    rw [skipped]
    simp only [here, from?, if_pos inside, left, Option.bind_eq_bind, Option.bind_some]
    by_cases slashed : first = Path.slash
    · subst slashed
      rw [dif_pos rfl, if_neg (by decide)]
      cases found : (Path.slash :: rest).findIdx? (fun b => !inTarget b) with
      | none =>
        rw [dropWhile_of_findIdx?_eq_none found]
        rfl
      | some stop =>
        obtain ⟨last, after, here, inside, -, -, left, taken⟩ := stops_of_findIdx? found
        simp only [here, upTo?, if_pos inside, left, taken, Option.bind_some, List.head?_cons]
        by_cases closed : last = space
        · subst closed
          rw [if_neg (by decide), if_pos rfl]
          split <;> rfl
        · rw [if_pos (by simpa using closed), if_neg (by simpa using closed)]
          rfl
    · have ends : isLineEnd first = true := by simpa [beforeTarget, slashed] using stop
      rw [dif_neg slashed, if_pos ends]
      rfl

/-! ## The verdict -/

/-- The target of a line, or the error with which a request that has no other is refused. -/
def verdict (line : Bytes) : Except RequestError Bytes :=
  ((parse line).mapError fun fault => .malformed fault.reason).map ResourcePath.path

theorem reason_injective {fault other : Fault} (same : fault.reason = other.reason) :
    fault = other := by
  cases fault <;> cases other <;> simp_all [Fault.reason]

theorem verdict_eq_error_iff {fault : Fault} :
    verdict line = .error (.malformed fault.reason) ↔ parse line = .error fault := by
  unfold verdict
  cases parse line with
  | ok resource => exact ⟨nofun, nofun⟩
  | error other =>
    simp only [Except.mapError, Except.map, Except.error.injEq, RequestError.malformed.injEq]
    exact ⟨reason_injective, congrArg _⟩

theorem verdict_eq_ok_iff {target : Bytes} :
    verdict line = .ok target ↔
      ∃ text before after, Cut line before target after ∧ Bytes.ofString text = target := by
  constructor
  · intro accepted
    unfold verdict at accepted
    cases said : parse line with
    | error fault =>
      rw [said] at accepted
      cases accepted
    | ok resource =>
      rw [said] at accepted
      cases accepted
      obtain ⟨before, after, cut⟩ := parse_eq_ok_iff.mp said
      obtain ⟨text, same⟩ := Utf8.isText_iff.mp resource.isTarget.2.2
      exact ⟨text, before, after, cut, same⟩
  · rintro ⟨text, before, after, cut, same⟩
    rw [verdict, cut.parse_eq, dif_pos (Utf8.isText_iff.mpr ⟨text, same⟩)]
    rfl

/-- A line is accepted exactly if it can be cut and its target is a text; then more bytes behind it
change nothing, and there is one cut only. Of the others, those are said to have no path that have no
slash on their first line, and those not to be text that can be cut; the rest are incomplete. At no
position is a line read that lies outside it. -/
theorem verdict_of_line (line : Bytes) :
    (∀ target, verdict line = .ok target ↔
      ∃ text before after, Cut line before target after ∧ Bytes.ofString text = target) ∧
    (∀ before target after before' target' after', Cut line before target after →
      Cut line before' target' after' →
        before = before' ∧ target = target' ∧ after = after') ∧
    (∀ target more, verdict line = .ok target → verdict (line ++ more) = .ok target) ∧
    (verdict line = .error (.malformed "no resource path on request line") ↔
      Path.slash ∉ firstLine line) ∧
    (verdict line = .error (.malformed "resource path is not UTF-8") ↔
      ∃ before target after, Cut line before target after ∧
        ∀ text, Bytes.ofString text ≠ target) ∧
    (verdict line = .error (.malformed "request line incomplete") ↔
      Path.slash ∈ firstLine line ∧ ∀ before target after, ¬ Cut line before target after) ∧
    byPositions? line = some ((parse line).map ResourcePath.path) := by
  refine ⟨fun _ => verdict_eq_ok_iff, fun _ _ _ _ _ _ cut cut' => cut.unique cut',
    fun target more accepted => ?_, ?_, ?_, ?_, byPositions?_eq line⟩
  · obtain ⟨text, before, after, cut, same⟩ := verdict_eq_ok_iff.mp accepted
    exact verdict_eq_ok_iff.mpr ⟨text, before, after ++ more, cut.append more, same⟩
  · exact verdict_eq_error_iff.trans parse_eq_noPath_iff
  · refine (verdict_eq_error_iff.trans parse_eq_notText_iff).trans ?_
    simp only [← Bool.not_eq_true, Utf8.isText_iff, not_exists]
  · exact verdict_eq_error_iff.trans parse_eq_incomplete_iff

/-- A line with a second slash and a second space, and with a header behind it. -/
theorem verdict_of_line_header :
    let line := Bytes.ofString "GET /a/b.txt HTTP/1.0\r\n"
    let target := Bytes.ofString "/a/b.txt"
    let header := Bytes.ofString "Host: x/y z\r\n"
    Cut line (Bytes.ofString "GET ") target (Bytes.ofString "HTTP/1.0\r\n") ∧
      verdict line = .ok target ∧ verdict (line ++ header) = .ok target ∧
      ∀ before other after, Cut line before other after → other = target := by
  intro line target header
  have cut : Cut line (Bytes.ofString "GET ") target (Bytes.ofString "HTTP/1.0\r\n") :=
    ⟨rfl, fun b mem => beforeTarget_iff.mp (List.all_eq_true.mp rfl b mem), ⟨_, rfl⟩,
      fun b mem => inTarget_iff.mp (List.all_eq_true.mp rfl b mem)⟩
  obtain ⟨accepts, unique, more, -⟩ := verdict_of_line line
  have accepted := (accepts target).mpr ⟨_, _, _, cut, rfl⟩
  exact ⟨cut, accepted, more target header accepted,
    fun before other after cut' => (unique _ _ _ _ _ _ cut' cut).2.1⟩

end RequestLine

end StaticHttp
