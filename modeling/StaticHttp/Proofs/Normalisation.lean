import StaticHttp.Http.Outcome
import StaticHttp.Proofs.Files.Path
import Mathlib.Logic.Relation

/-!
# The normal form of a requested path

Two paths are spellings of each other if one comes from the other by writing slashes once more or
once less, anywhere, and segments for the directory itself likewise (`Path.Respells`). They are
exactly if they have the same names in the same order (`respells_iff`), so the joined names are a
normal form: `relative?` computes it for every path that does not lead up, and refuses all others
(`relative?_normal`). It adds its names to those of whatever directory it is joined to, and paths
that are spellings of each other come to the same everywhere.
-/

namespace StaticHttp

namespace Bytes

variable {sep : UInt8}

/-- Joined pieces, told from the first one on. -/
theorem join_cons (piece : Bytes) (pieces : List Bytes) :
    join sep (piece :: pieces) = piece ++ pieces.flatMap (sep :: ·) := by
  induction pieces generalizing piece with
  | nil => rw [join, List.intercalate_singleton, List.flatMap_nil, List.append_nil]
  | cons next rest ih =>
    rw [join, List.intercalate_cons_cons, List.append_assoc, List.flatMap_cons]
    exact congrArg (piece ++ sep :: ·) (ih next)

/-- A path is what stands between its separators, each behind one more. -/
theorem flatMap_split (bs : Bytes) : (split sep bs).flatMap (sep :: ·) = sep :: bs := by
  have whole := join_split sep bs
  cases pieces : split sep bs with
  | nil => exact absurd pieces (split_ne_nil sep bs)
  | cons piece rest =>
    rw [pieces, join_cons] at whole
    rw [List.flatMap_cons, List.cons_append, whole]

end Bytes

namespace Path

/-! ## Spellings of a path -/

/-- The second path has one slash more than the first, or one segment for the directory itself. -/
inductive Pads : Path → Path → Prop
  | leading (p : Path) : Pads p (slash :: p)
  | trailing (p : Path) : Pads p (p ++ [slash])
  | repeated (front back : Path) : Pads (front ++ slash :: back) (front ++ slash :: slash :: back)
  | pointed (front back : Path) :
      Pads (front ++ slash :: back) (front ++ slash :: dot :: slash :: back)
  | pointedLast (front : Path) : Pads (front ++ [slash]) (front ++ [slash, dot])

/-- The paths differ in leading, trailing and repeated slashes and in segments for the directory
itself, and in nothing else. -/
def Respells (p q : Path) : Prop := Relation.EqvGen Pads p q

theorem names_nil : names [] = [] := by decide

theorem names_here : names here = [] := by decide

theorem names_append_slash (front back : Path) :
    names (front ++ slash :: back) = names front ++ names back := by
  simp only [names, segments, Bytes.split_append_cons, List.filter_append]

theorem Pads.names_eq {p q : Path} (pads : p.Pads q) : p.names = q.names := by
  cases pads with
  | leading => exact (names_append_slash [] p).symm
  | trailing => rw [names_append_slash, names_nil, List.append_nil]
  | repeated front back =>
    have doubled : names (slash :: back) = names back := names_append_slash [] back
    rw [names_append_slash, names_append_slash, doubled]
  | pointed front back =>
    have pointed : names (dot :: slash :: back) = names here ++ names back :=
      names_append_slash here back
    rw [names_append_slash, names_append_slash, pointed, names_here, List.nil_append]
  | pointedLast front =>
    have pointed : names [dot] = names [] := names_here.trans names_nil.symm
    rw [names_append_slash, names_append_slash, pointed]

theorem Respells.names_eq {p q : Path} (respells : p.Respells q) : p.names = q.names := by
  induction respells with
  | rel _ _ pads => exact pads.names_eq
  | refl => rfl
  | symm _ _ _ ih => exact ih.symm
  | trans _ _ _ _ _ first second => exact first.trans second

/-- Segments that stand for no step can be left out, whatever stands before them. -/
theorem respells_filter (front : Path) (pieces : List Bytes) :
    Respells (front ++ pieces.flatMap (slash :: ·))
      (front ++ (pieces.filter fun s => s ≠ [] ∧ s ≠ here).flatMap (slash :: ·)) := by
  induction pieces generalizing front with
  | nil => exact .refl _
  | cons piece rest ih =>
    by_cases void : piece = [] ∨ piece = here
    · rw [List.filter_cons_of_neg (by simpa using fun present => void.resolve_left present)]
      refine .trans _ _ _ (.symm _ _ ?_) (ih front)
      rcases void with rfl | rfl
      · cases rest with
        | nil => exact .rel _ _ (by simpa using Pads.trailing front)
        | cons next rest => exact .rel _ _ (by simpa using Pads.repeated front (next ++ _))
      · cases rest with
        | nil =>
          refine .trans _ _ _ (.rel _ _ (Pads.trailing _)) ?_
          exact .rel _ _ (by simpa [here] using Pads.pointedLast front)
        | cons next rest => exact .rel _ _ (by simpa [here] using Pads.pointed front (next ++ _))
    · rw [List.filter_cons_of_pos (by simpa [not_or] using void)]
      simpa using ih (front ++ slash :: piece)

/-- Paths are spellings of each other exactly if their names are the same. -/
theorem respells_iff {p q : Path} : p.Respells q ↔ p.names = q.names := by
  refine ⟨Respells.names_eq, fun same => ?_⟩
  have normal (r : Path) : r.Respells (r.names.flatMap (slash :: ·)) := by
    refine .trans _ _ _ (.rel _ _ (.leading r)) ?_
    rw [← Bytes.flatMap_split r]
    exact respells_filter [] r.segments
  exact .trans _ _ _ (normal p) (same ▸ .symm _ _ (normal q))

/-! ## The normal form -/

variable {p q r : Path}

theorem parent_mem_names : parent ∈ p.names ↔ parent ∈ p.segments :=
  mem_names.trans (and_iff_left ⟨by decide, by decide⟩)

theorem relative?_eq_none_iff : p.relative? = none ↔ parent ∈ p.segments := by
  rw [relative?_eq]
  split <;> simp [*]

theorem relative?_eq_some_iff :
    p.relative? = some r ↔ parent ∉ p.segments ∧ r = Bytes.join slash p.names := by
  rw [relative?_eq]
  split <;> simp [*, eq_comm]

theorem segments_join_names (present : p.names ≠ []) :
    segments (Bytes.join slash p.names) = p.names :=
  Bytes.split_join present fun _ mem => slash_not_mem_of_mem_names mem

/-- Joining the names of a path adds no name and loses none. -/
theorem names_join_names (p : Path) : names (Bytes.join slash p.names) = p.names := by
  by_cases present : p.names = []
  · rw [present]
    exact names_nil
  · rw [names, segments_join_names present, List.filter_eq_self]
    intro name mem
    exact decide_eq_true (mem_names.mp mem).2

/-- A path that continues another one in the same place has the parts of that one, and its own. -/
theorem components_eq_append {more : List Component} (root : q.isAbsolute = p.isAbsolute)
    (first : q.segments.head? = p.segments.head?)
    (steps : q.segments.filterMap step? = p.segments.filterMap step? ++ more) :
    q.components = p.components ++ more := by
  simp only [components, root, first, steps, List.append_assoc]

/-- Nothing stands before the first name of a normal form. -/
theorem components_of_relative? (asked : p.relative? = some r) :
    r.components = p.names.map .name := by
  obtain ⟨-, rfl⟩ := relative?_eq_some_iff.mp asked
  have descends := descends_of_relative? asked
  have steps := filterMap_step? descends.parent_not_mem
  rw [names_join_names] at steps
  have unmarked : (segments (Bytes.join slash p.names)).head? ≠ some here := by
    by_cases present : p.names = []
    · rw [present]
      decide
    · rw [segments_join_names present]
      exact fun first => (mem_names.mp (List.mem_of_head? first)).2.2 rfl
  rw [components, descends.relative, if_neg Bool.false_ne_true, if_neg unmarked, steps,
    List.nil_append]

/-- Joined to a directory, a normal form adds its names to the parts of the directory. -/
theorem components_join (asked : p.relative? = some r) (served : Path) :
    (served.join r).components = served.components ++ p.names.map .name := by
  have descends := descends_of_relative? asked
  by_cases empty : served = []
  · subst empty
    rw [join, if_neg (Bool.eq_false_iff.mp descends.relative), if_pos (.inl rfl)]
    exact components_of_relative? asked
  obtain ⟨front, ends, joined⟩ := segments_join empty descends.relative
  have steps := filterMap_step? descends.parent_not_mem
  obtain ⟨-, rfl⟩ := relative?_eq_some_iff.mp asked
  rw [names_join_names] at steps
  refine components_eq_append (isAbsolute_join empty descends.relative) ?_ ?_
  · have begun : front ≠ [] := by
      rintro rfl
      rcases ends with none | none
      · exact Bytes.split_ne_nil slash served none
      · exact empty ((Bytes.join_split slash served).symm.trans (congrArg (Bytes.join slash) none))
    rcases ends with same | same <;> simp only [joined, same, List.head?_append_of_ne_nil _ begun]
  · rw [joined, List.filterMap_append, steps]
    rcases ends with same | same <;> rw [same]
    rw [List.filterMap_append]
    simp [step?]

/-- Continued by a name, a path that does not end in a slash has one more and then the name. -/
theorem join_name {base : Path} {name : Bytes} (closed : base.getLast? ≠ some slash)
    (clean : slash ∉ name) (present : name ≠ []) :
    base.join name = if base = [] then name else base ++ slash :: name := by
  have relative : isAbsolute (Bytes.join slash [name]) = false :=
    isAbsolute_join_names (by simp [clean, present])
  rw [Bytes.join, List.intercalate_singleton] at relative
  rw [join, if_neg (Bool.eq_false_iff.mp relative)]
  by_cases empty : base = []
  · rw [if_pos (.inl empty), if_pos empty, empty, List.nil_append]
  · rw [if_neg (not_or.mpr ⟨empty, closed⟩), if_neg empty]

/-- Names that are pushed onto a path one after the other follow it, each behind a slash. -/
theorem foldl_join {base : Path} {names : List Bytes} (nonempty : base ≠ [])
    (closed : base.getLast? ≠ some slash)
    (named : ∀ name ∈ names, slash ∉ name ∧ name ≠ []) :
    names.foldl join base = base ++ names.flatMap (slash :: ·) := by
  induction names generalizing base with
  | nil => exact (List.append_nil base).symm
  | cons name rest ih =>
    obtain ⟨clean, present⟩ := named name List.mem_cons_self
    have last : (base ++ slash :: name).getLast? ≠ some slash := by
      rw [List.getLast?_append_of_ne_nil _ (List.cons_ne_nil _ _),
        List.getLast?_cons_of_ne_nil present]
      exact fun same => clean (List.mem_of_getLast? same)
    rw [List.foldl_cons, join_name closed clean present, if_neg nonempty,
      ih (by simp) last fun other mem => named other (List.mem_cons_of_mem _ mem),
      List.flatMap_cons, List.append_assoc]

/-- Pushed one after the other, names are joined. -/
theorem foldl_join_nil {names : List Bytes} (named : ∀ name ∈ names, slash ∉ name ∧ name ≠ []) :
    names.foldl join [] = Bytes.join slash names := by
  cases names with
  | nil => rfl
  | cons name rest =>
    obtain ⟨clean, present⟩ := named name List.mem_cons_self
    have last : name.getLast? ≠ some slash := fun same => clean (List.mem_of_getLast? same)
    rw [List.foldl_cons, join_name (by simp) clean present, if_pos rfl, Bytes.join_cons]
    exact foldl_join present last fun other mem => named other (List.mem_cons_of_mem _ mem)

/-- The second path is the normal form of the first. -/
structure Normal (p r : Path) : Prop where
  /-- The segments that are neither empty nor `.`, in order, with a slash between neighbours. -/
  eq_join : r = Bytes.join slash (p.segments.filter fun s => s ≠ [] ∧ s ≠ here)
  /-- The same as they are pushed onto an empty path one after the other. -/
  eq_foldl : r = (p.segments.filter fun s => s ≠ [] ∧ s ≠ here).foldl join []
  relative : r.isAbsolute = false
  /-- Asked for again, it stands for itself. -/
  again : relative? (slash :: r) = some r
  components_join : ∀ served : Path, (served.join r).components =
    served.components ++ (p.segments.filter fun s => s ≠ [] ∧ s ≠ here).map .name

theorem normal_of_relative? (asked : p.relative? = some r) : p.Normal r where
  eq_join := (relative?_eq_some_iff.mp asked).2
  eq_foldl := by
    obtain ⟨-, rfl⟩ := relative?_eq_some_iff.mp asked
    exact (foldl_join_nil fun name mem =>
      ⟨slash_not_mem_of_mem_names mem, (mem_names.mp mem).2.1⟩).symm
  relative := (descends_of_relative? asked).relative
  again := by
    obtain ⟨down, rfl⟩ := relative?_eq_some_iff.mp asked
    have names : names (slash :: Bytes.join slash p.names) = p.names :=
      (names_append_slash [] _).trans (names_join_names p)
    refine relative?_eq_some_iff.mpr ⟨?_, congrArg _ names.symm⟩
    rwa [← parent_mem_names, names, parent_mem_names]
  components_join := Path.components_join asked

/-- The names of a path decide its normal form. -/
theorem Respells.relative?_eq (respells : p.Respells q) : p.relative? = q.relative? := by
  simp only [Path.relative?_eq, ← parent_mem_names, respells.names_eq]

/-- Paths with the same normal form are spellings of each other. -/
theorem respells_of_relative? (asked : p.relative? = some r) (asked' : q.relative? = some r) :
    p.Respells q := by
  rw [respells_iff, ← names_join_names p, ← names_join_names q,
    ← (relative?_eq_some_iff.mp asked).2, ← (relative?_eq_some_iff.mp asked').2]

end Path

theorem resolve_of_respells {a b : ResourcePath} (respells : a.path.Respells b.path)
    (fs : FileSystem) (served : Path) : resolve fs served a = resolve fs served b := by
  rw [resolve, resolve, respells.relative?_eq]

/-- A path has no normal form exactly if one of its segments leads up. Otherwise the normal form is
made of its names and of nothing else, below every directory; it is the same for all spellings of
the path and for no other path. So spellings of one path come to the same in every tree, whatever
directory is served. -/
theorem Path.relative?_normal (p : Path) :
    (p.relative? = none ↔ parent ∈ p.segments) ∧
    (∀ r, p.relative? = some r →
      p.Normal r ∧ ∀ q : Path, q.relative? = some r ↔ p.Respells q) ∧
    ∀ a b : ResourcePath, a.path.Respells b.path →
      ∀ fs served, resolve fs served a = resolve fs served b := by
  refine ⟨relative?_eq_none_iff, fun r asked => ⟨normal_of_relative? asked, fun q => ?_⟩,
    fun a b respells => resolve_of_respells respells⟩
  exact ⟨respells_of_relative? asked, fun respells => respells.relative?_eq ▸ asked⟩

/-- Slashes and a dot more or less, in front, inside and behind, are no other path; dots in a name
stay. -/
theorem Path.relative?_normal_dots :
    let plain : ResourcePath := ⟨Bytes.ofString "/a/..b", rfl, List.all_eq_true.mp rfl, rfl⟩
    let padded : ResourcePath := ⟨Bytes.ofString "//./a//..b/.", rfl, List.all_eq_true.mp rfl, rfl⟩
    padded.path.relative? = some (Bytes.ofString "a/..b") ∧
    padded.path.Normal (Bytes.ofString "a/..b") ∧ padded.path.Respells plain.path ∧
    ∀ fs served, resolve fs served padded = resolve fs served plain := by
  intro plain padded
  have asked : padded.path.relative? = some (Bytes.ofString "a/..b") := by decide
  obtain ⟨normal, spelling⟩ := (Path.relative?_normal padded.path).2.1 _ asked
  have respells : padded.path.Respells plain.path := (spelling plain.path).mp (by decide)
  exact ⟨asked, normal, respells,
    (Path.relative?_normal padded.path).2.2 padded plain respells⟩

end StaticHttp
