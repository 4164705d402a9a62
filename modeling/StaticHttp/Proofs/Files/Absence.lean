import StaticHttp.Proofs.Files.Lookup

/-!
# Nothing at a path

A look-up that leads nowhere is stopped somewhere on its way: by a directory that lacks an entry, by
a name too long for any, by something that is no directory (`Place.Refuses`), or by too many links
(`FileSystem.Strands`). Or else the path itself is one that no look-up can take
(`FileSystem.Absent`). Each reason has its error, and there are no others
(`FileSystem.placeFrom_eq_error_iff`).
-/

namespace StaticHttp

/-! ## Where a walk stops -/

namespace Place

/-- There is no way on from a place by a segment. -/
inductive Refuses (p : Place) (segment : Bytes) : SystemError → Prop
  | missing {entries : List (Bytes × Node)} (directory : p.node = .directory entries)
      (named : Path.step? segment = some (.name segment))
      (short : segment.length ≤ maxNameLength) (missing : entries.lookup segment = none) :
      Refuses p segment .notFound
  | tooLong {entries : List (Bytes × Node)} (directory : p.node = .directory entries)
      (long : maxNameLength < segment.length) : Refuses p segment .nameTooLong
  | notADirectory (other : ∀ entries, p.node ≠ .directory entries) :
      Refuses p segment .notADirectory

theorem Refuses.advance {p : Place} {segment : Bytes} {e : SystemError}
    (refuses : p.Refuses segment e) (rest : List Bytes) :
    p.advance (segment :: rest) = .failed e := by
  obtain ⟨node, above⟩ := p
  cases refuses with
  | @missing entries directory named short missing =>
    obtain ⟨-, present, other, down⟩ := Path.eq_of_step?_eq_name named
    obtain rfl : node = .directory entries := directory
    rw [advance_directory, if_neg (not_or.mpr ⟨present, other⟩), if_neg down,
      if_neg (Nat.not_lt.mpr short), missing]
  | @tooLong entries directory long =>
    obtain rfl : node = .directory entries := directory
    have present : segment ≠ [] := by rintro rfl; exact absurd long (by decide)
    have other : segment ≠ Path.here := by rintro rfl; exact absurd long (by decide)
    have down : segment ≠ Path.parent := by rintro rfl; exact absurd long (by decide)
    rw [advance_directory, if_neg (not_or.mpr ⟨present, other⟩), if_neg down, if_pos long]
  | notADirectory other =>
    unfold Place.advance
    split
    · next node => exact absurd node (other _)
    · rfl

/-- A walk comes to a place where there is no way on. -/
def Stops (p : Place) (segments : List Bytes) (e : SystemError) : Prop :=
  ∃ before segment rest q, segments = before ++ segment :: rest ∧
    p.advance before = .arrived q ∧ q.Refuses segment e

variable {p q : Place} {segment : Bytes} {segments rest : List Bytes} {e : SystemError}

theorem Refuses.stops (refuses : p.Refuses segment e) : p.Stops (segment :: rest) e :=
  ⟨[], segment, rest, p, rfl, rfl, refuses⟩

theorem Stops.after (goesOn : ∀ rest, p.advance (segment :: rest) = q.advance rest)
    (stops : q.Stops rest e) : p.Stops (segment :: rest) e := by
  obtain ⟨before, last, left, stop, rfl, walk, refuses⟩ := stops
  exact ⟨segment :: before, last, left, stop, rfl, (goesOn before).trans walk, refuses⟩

/-- A walk fails where there is no way on. -/
theorem advance_eq_failed_iff : p.advance segments = .failed e ↔ p.Stops segments e := by
  constructor
  · intro failed
    fun_induction Place.advance p segments with
    | case1 | case6 => cases failed
    | case2 p segment rest entries directory blank ih =>
      refine (ih failed).after fun rest => ?_
      simp only [advance, directory, if_pos blank]
    | case3 p rest entries directory step ih =>
      refine (ih failed).after fun rest => ?_
      simp only [advance, directory, if_neg step, if_true]
    | case4 p segment rest entries directory =>
      cases failed
      exact (Refuses.tooLong directory ‹_›).stops
    | case5 p segment rest entries directory blank up short missing =>
      cases failed
      refine (Refuses.missing directory ?_ (Nat.not_lt.mp short) missing).stops
      rw [Path.step?, if_neg blank, if_neg up]
    | case7 p segment rest entries directory blank up short node other entry ih =>
      refine (ih failed).after fun rest => ?_
      simp only [advance, directory, if_neg blank, if_neg up, if_neg short, entry]
    | case8 p segment rest other =>
      cases failed
      exact (Refuses.notADirectory other).stops
  · rintro ⟨before, segment, rest, q, rfl, walk, refuses⟩
    rw [advance_append, walk]
    exact refuses.advance rest

end Place

/-! ## Where a look-up stops -/

namespace FileSystem

variable {fs : FileSystem} {directory : Place} {path : Path}

/-- A look-up is stopped with this error, on the way down to the first link, behind one of so many
links, or at a link too many. -/
inductive Strands (fs : FileSystem) : Nat → Place → List Bytes → SystemError → Prop
  | here {links : Nat} {p : Place} {segments : List Bytes} {e : SystemError}
      (stops : p.Stops segments e) : Strands fs links p segments e
  | behind {links : Nat} {p directory : Place} {segments rest : List Bytes} {target : Path}
      {e : SystemError} (meets : p.advance segments = .atLink directory target rest)
      (strands : Strands fs links (fs.startOf directory target) (target.segments ++ rest) e) :
      Strands fs (links + 1) p segments e
  | tooMany {p directory : Place} {segments rest : List Bytes} {target : Path}
      (meets : p.advance segments = .atLink directory target rest) :
      Strands fs 0 p segments .linkLoop

theorem follow_eq_error_iff {links : Nat} {p : Place} {segments : List Bytes} {e : SystemError} :
    fs.follow links p segments = .error e ↔ fs.Strands links p segments e := by
  constructor
  · intro failed
    fun_induction fs.follow links p segments with
    | case1 => cases failed
    | case2 links p segments e' stops =>
      cases failed
      exact .here (Place.advance_eq_failed_iff.mp stops)
    | case3 p segments directory target rest meets =>
      cases failed
      exact .tooMany meets
    | case4 p segments directory target rest meets links ih =>
      exact .behind meets (ih failed)
  · intro strands
    induction strands with
    | here stops => exact follow_of_failed (Place.advance_eq_failed_iff.mpr stops)
    | behind meets _ ih => rw [follow_of_atLink meets]; exact ih
    | tooMany meets => rw [follow_of_atLink meets]

/-- Nothing is to be found at a path that is seen from a directory, for this reason. -/
inductive Absent (fs : FileSystem) (directory : Place) (path : Path) : IoError → Prop
  | nul (nul : 0 ∈ path) : Absent fs directory path .nulInPath
  | tooLong (clean : 0 ∉ path) (long : maxPathLength < path.length) :
      Absent fs directory path (.system .nameTooLong)
  | empty (empty : path = []) : Absent fs directory path (.system .notFound)
  | stranded {e : SystemError} (clean : 0 ∉ path) (short : path.length ≤ maxPathLength)
      (present : path ≠ [])
      (strands : fs.Strands maxLinks (fs.startOf directory path) path.segments e) :
      Absent fs directory path (.system e)

/-- A path leads to no place for one of these reasons, with the error that belongs to it. -/
theorem placeFrom_eq_error_iff {e : IoError} :
    fs.placeFrom directory path = .error e ↔ fs.Absent directory path e := by
  unfold placeFrom
  constructor
  · intro failed
    split at failed
    · next nul =>
      cases failed
      exact .nul nul
    next clean =>
    split at failed
    · next long =>
      cases failed
      exact .tooLong clean long
    next short =>
    split at failed
    · next empty =>
      cases failed
      exact .empty empty
    next present =>
    split at failed <;> cases failed
    next stopped =>
    exact .stranded clean (Nat.not_lt.mp short) present (follow_eq_error_iff.mp stopped)
  · intro absent
    cases absent with
    | nul nul => exact if_pos nul
    | tooLong clean long => rw [if_neg clean, if_pos long]
    | empty empty =>
      subst empty
      rfl
    | stranded clean short present strands =>
      rw [if_neg clean, if_neg (Nat.not_lt.mpr short), if_neg present]
      simp only [follow_eq_error_iff.mpr strands]

theorem lookup_eq_error_iff {e : IoError} :
    fs.lookup path = .error e ↔ fs.Absent fs.workingPlace path e := by
  rw [← placeFrom_eq_error_iff, lookup]
  cases fs.placeFrom fs.workingPlace path with
  | ok => simp only [reduceCtorEq]
  | error => simp only [Except.error.injEq]

/-- Only an entry that is missing, or a path that is empty, is reported as not found. -/
theorem Absent.kind_eq_notFound_iff {e : IoError} (absent : fs.Absent directory path e) :
    e.kind = .notFound ↔ e = .system .notFound := by
  cases absent with
  | nul | tooLong => simp [IoError.kind, IoError.nulInPath, SystemError.kind]
  | empty => exact ⟨fun _ => rfl, fun _ => rfl⟩
  | @stranded e => cases e <;> exact ⟨fun h => by cases h <;> rfl, fun h => by cases h <;> rfl⟩

end FileSystem

end StaticHttp
