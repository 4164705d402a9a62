import StaticHttp.Files.Path
import Mathlib.Data.List.Basic
import Mathlib.Data.List.TakeWhile

/-!
# The path of a request, below the served directory

Cutting undoes joining (`Bytes.split_join`), and a path that `relative?` gives is the joined names of
the path asked for (`relative?_eq`): it is cut into these very names, and none of them leads up
(`descends_of_relative?`). Joined to a served directory, it adds its own segments to those of the
directory, but for the empty one behind a slash at the end (`segments_join`); so what it ends in is
known without the directory (`fileName?_join`).
-/

namespace StaticHttp

namespace Bytes

variable {sep : UInt8}

theorem split_append_cons (before after : Bytes) :
    split sep (before ++ sep :: after) = split sep before ++ split sep after :=
  List.splitOn_append_cons_self before after

/-- Cutting undoes joining. -/
theorem split_join {pieces : List Bytes} (nonempty : pieces ≠ [])
    (clean : ∀ piece ∈ pieces, sep ∉ piece) : split sep (join sep pieces) = pieces :=
  List.splitOn_intercalate sep clean nonempty

end Bytes

namespace Path

/-- The path begins where it is seen from and has no step that leads up. -/
structure Descends (path : Path) : Prop where
  relative : path.isAbsolute = false
  parent_not_mem : parent ∉ path.segments

/-- Joining adds the segments of the second path to those of the first, in the place of an empty
last one. -/
theorem segments_join {base rest : Path} (nonempty : base ≠ [])
    (relative : rest.isAbsolute = false) :
    ∃ front, (base.segments = front ∨ base.segments = front ++ [[]]) ∧
      (base.join rest).segments = front ++ rest.segments := by
  rw [join, if_neg (Bool.eq_false_iff.mp relative)]
  split
  · next ends =>
    have last := ends.resolve_left nonempty
    obtain ⟨front, rfl⟩ := List.getLast?_eq_some_iff.mp last
    refine ⟨segments front, .inr (Bytes.split_append_cons front []), ?_⟩
    rw [List.append_assoc, List.singleton_append]
    exact Bytes.split_append_cons front rest
  · exact ⟨base.segments, .inl rfl, Bytes.split_append_cons base rest⟩

/-- A continued path begins where the first one does. -/
theorem isAbsolute_join {base rest : Path} (nonempty : base ≠ [])
    (relative : rest.isAbsolute = false) : (base.join rest).isAbsolute = base.isAbsolute := by
  rw [join, if_neg (Bool.eq_false_iff.mp relative)]
  cases base with
  | nil => exact absurd rfl nonempty
  | cons b base => split <;> rfl

theorem join_ne_nil {base rest : Path} (nonempty : base ≠ []) (relative : rest.isAbsolute = false) :
    base.join rest ≠ [] := by
  rw [join, if_neg (Bool.eq_false_iff.mp relative)]
  split <;> exact List.append_ne_nil_of_left_ne_nil nonempty _

/-- A segment that is a name is not empty, and it leads neither nowhere nor up. -/
theorem eq_of_step?_eq_name {segment name : Bytes} (h : step? segment = some (.name name)) :
    segment = name ∧ name ≠ [] ∧ name ≠ here ∧ name ≠ parent := by
  unfold step? at h
  split at h
  · cases h
  · next blank =>
    split at h
    · cases h
    · next up =>
      cases h
      exact ⟨rfl, fun h => blank (.inl h), fun h => blank (.inr h), up⟩

/-- The segments of a path that are not void. -/
def names (p : Path) : List Bytes := p.segments.filter fun s => s ≠ [] ∧ s ≠ here

theorem mem_names {p : Path} {name : Bytes} :
    name ∈ p.names ↔ name ∈ p.segments ∧ name ≠ [] ∧ name ≠ here := by
  rw [names, List.mem_filter, decide_eq_true_iff]

theorem slash_not_mem_of_mem_names {p : Path} {name : Bytes} (h : name ∈ p.names) : slash ∉ name :=
  Bytes.not_mem_of_mem_split slash p name (mem_names.mp h).1

/-- The slashes that a path begins with stand between empty segments. -/
theorem segments_dropWhile (p : Path) :
    ∃ blanks : List Bytes, (∀ s ∈ blanks, s = []) ∧
      p.segments = blanks ++ segments (p.dropWhile (· == slash)) := by
  induction p with
  | nil => exact ⟨[], by simp, rfl⟩
  | cons b p ih =>
    by_cases same : b = slash
    · obtain ⟨blanks, empty, rest⟩ := ih
      refine ⟨[] :: blanks, List.forall_mem_cons.mpr ⟨rfl, empty⟩, ?_⟩
      rw [List.dropWhile_cons_of_pos (by simpa using same), List.cons_append, ← rest, same]
      exact Bytes.split_append_cons [] p
    · refine ⟨[], by simp, ?_⟩
      rw [List.dropWhile_cons_of_neg (by simpa using same), List.nil_append]

theorem names_dropWhile (p : Path) : names (p.dropWhile (· == slash)) = p.names := by
  obtain ⟨blanks, empty, segments⟩ := p.segments_dropWhile
  have void : blanks.filter (fun s => s ≠ [] ∧ s ≠ here) = [] := by
    rw [List.filter_eq_nil_iff]
    intro s mem
    simp [empty s mem]
  rw [names, names, segments, List.filter_append, void, List.nil_append]

theorem parent_mem_dropWhile {p : Path} :
    parent ∈ segments (p.dropWhile (· == slash)) ↔ parent ∈ p.segments := by
  obtain ⟨blanks, empty, segments⟩ := p.segments_dropWhile
  rw [segments, List.mem_append, or_iff_right]
  exact fun mem => absurd (empty parent mem) (List.cons_ne_nil _ _)

theorem isAbsolute_dropWhile (p : Path) : isAbsolute (p.dropWhile (· == slash)) = false := by
  have first := List.head?_dropWhile_not (· == slash) p
  unfold isAbsolute
  cases h : (p.dropWhile (· == slash)).head? with
  | none => rfl
  | some b =>
    rw [h] at first
    exact first

/-- A segment that does not lead up is void or a name. -/
theorem step?_of_ne_parent {segment : Bytes} (down : segment ≠ parent) :
    step? segment = if segment ≠ [] ∧ segment ≠ here then some (.name segment) else none := by
  simp only [step?, if_neg down, ← not_or]
  split <;> simp [*]

/-- Where no segment leads up, the names are all the steps there are. -/
theorem filterMap_step? {p : Path} (down : parent ∉ p.segments) :
    p.segments.filterMap step? = p.names.map .name := by
  rw [names, ← List.filterMap_eq_map, List.filterMap_filter]
  refine List.filterMap_congr fun segment mem => ?_
  rw [step?_of_ne_parent fun up => down (up ▸ mem)]
  simp

/-- The parts of a relative path are its steps, behind a mark of the current directory at most. -/
theorem components_of_relative {p : Path} (relative : p.isAbsolute = false) :
    ∃ front, (front = [] ∨ front = [.current]) ∧
      p.components = front ++ p.segments.filterMap step? := by
  unfold components
  rw [relative, if_neg Bool.false_ne_true]
  split
  · exact ⟨_, .inr rfl, rfl⟩
  · exact ⟨_, .inl rfl, rfl⟩

/-- The path below a served directory is made of the names in the path asked for, and there is none
exactly if one of the segments leads up. -/
theorem relative?_eq (p : Path) :
    p.relative? = if parent ∈ p.segments then none else some (Bytes.join slash p.names) := by
  obtain ⟨front, current, components⟩ := components_of_relative p.isAbsolute_dropWhile
  rw [relative?, components]
  by_cases up : parent ∈ p.segments
  · have climbs : Component.up ∈ front ++ (segments (p.dropWhile _)).filterMap step? :=
      List.mem_append_right _
        (List.mem_filterMap.mpr ⟨parent, parent_mem_dropWhile.mpr up, rfl⟩)
    rw [if_pos up]
    exact if_neg fun descends => Bool.false_ne_true (List.all_eq_true.mp descends _ climbs)
  · have down : parent ∉ segments (p.dropWhile _) := fun mem => up (parent_mem_dropWhile.mp mem)
    have descends : (front ++ p.names.map Component.name).all (·.descends) = true := by
      rcases current with rfl | rfl <;> simp [Component.descends]
    have names : (front ++ p.names.map Component.name).filterMap (·.name?) = p.names := by
      rcases current with rfl | rfl <;> simp [Component.name?]
    rw [filterMap_step? down, names_dropWhile, if_neg up]
    simp only [if_pos descends, names]

/-- A joined path begins with its first name. -/
theorem isAbsolute_join_names {names : List Bytes}
    (named : ∀ name ∈ names, slash ∉ name ∧ name ≠ []) :
    isAbsolute (Bytes.join slash names) = false := by
  cases names with
  | nil => rfl
  | cons name rest =>
    obtain ⟨clean, nonempty⟩ := named name List.mem_cons_self
    cases name with
    | nil => exact absurd rfl nonempty
    | cons b name =>
      have other : b ≠ slash := fun same => clean (same ▸ List.mem_cons_self)
      cases rest <;> exact beq_false_of_ne fun same => other (Option.some.inj same)

/-- Below a served directory a path has the same last segments as on its own. -/
theorem exists_segments_join (base : Path) {rest : Path} (relative : rest.isAbsolute = false) :
    ∃ front, (base.join rest).segments = front ++ rest.segments := by
  by_cases empty : base = []
  · refine ⟨[], ?_⟩
    rw [join, if_neg (Bool.eq_false_iff.mp relative), if_pos (.inl empty), empty]
    rfl
  · obtain ⟨front, -, joined⟩ := segments_join empty relative
    exact ⟨front, joined⟩

/-- The path of a request leads down or nowhere, whatever was asked for. -/
theorem descends_of_relative? {requested path : Path} (h : requested.relative? = some path) :
    path.Descends := by
  rw [relative?_eq] at h
  split at h <;> cases h
  next down =>
  refine ⟨isAbsolute_join_names fun name mem =>
    ⟨slash_not_mem_of_mem_names mem, (mem_names.mp mem).2.1⟩, ?_⟩
  rw [segments]
  by_cases none : requested.names = []
  · rw [none]
    decide
  · rw [Bytes.split_join none fun name mem => slash_not_mem_of_mem_names mem]
    exact fun mem => down (mem_names.mp mem).1

/-! ## The name that a path ends in -/

/-- What stands behind the last slash. -/
def lastSegment (p : Path) : Bytes := p.segments.getLast (Bytes.split_ne_nil slash p)

theorem exists_segments_eq (p : Path) : ∃ front, p.segments = front ++ [p.lastSegment] :=
  ⟨_, (List.dropLast_concat_getLast (Bytes.split_ne_nil slash p)).symm⟩

/-- The path of a request ends in a name, if it goes anywhere. -/
theorem step?_lastSegment {requested path : Path} (h : requested.relative? = some path)
    (present : path ≠ []) : step? path.lastSegment = some (.name path.lastSegment) := by
  rw [relative?_eq] at h
  split at h <;> cases h
  next down =>
  have some : requested.names ≠ [] := by
    intro none
    exact present (none ▸ rfl)
  have pieces : segments (Bytes.join slash requested.names) = requested.names :=
    Bytes.split_join some fun name mem => slash_not_mem_of_mem_names mem
  obtain ⟨front, last⟩ := exists_segments_eq (Bytes.join slash requested.names)
  obtain ⟨mem, name⟩ := mem_names.mp (pieces ▸ last ▸ List.mem_concat_self)
  rw [step?_of_ne_parent fun up => down (up ▸ mem), if_pos name]

/-- A path that ends in a name ends in it below any directory. -/
theorem fileName?_join {base rest : Path} (relative : rest.isAbsolute = false)
    (named : step? rest.lastSegment = some (.name rest.lastSegment)) :
    (base.join rest).fileName? = some rest.lastSegment := by
  obtain ⟨front, joined⟩ := exists_segments_join base relative
  obtain ⟨within, last⟩ := exists_segments_eq rest
  have ends : (base.join rest).components.getLast? = some (.name rest.lastSegment) := by
    rw [components, joined, last, ← List.append_assoc, List.filterMap_append,
      List.filterMap_cons_some named, List.filterMap_nil, ← List.append_assoc, List.getLast?_concat]
  rw [fileName?, ends]

/-- The extension of a name stands behind its last dot, which is not the first byte. -/
theorem extensionOf?_eq_some_iff {name extension : Bytes} :
    extensionOf? name = some extension ↔
      dot ∉ extension ∧ ∃ stem, stem ≠ [] ∧ name = stem ++ dot :: extension := by
  constructor
  · intro h
    unfold extensionOf? at h
    dsimp only at h
    split at h <;> cases h
    next b c rest behind =>
    have cut : name.reverse.takeWhile (· != dot) ++ name.reverse.dropWhile (· != dot) =
        name.reverse := List.takeWhile_append_dropWhile
    have first := List.head?_dropWhile_not (· != dot) name.reverse
    rw [behind] at cut first
    obtain rfl : b = dot := by simpa using first
    refine ⟨fun mem => ?_, rest.reverse ++ [c], by simp, ?_⟩
    · have other := List.mem_takeWhile_imp (List.mem_reverse.mp mem)
      exact absurd other (by decide)
    · calc
        name = (name.reverse.takeWhile (· != dot) ++ dot :: c :: rest).reverse := by
          rw [cut, List.reverse_reverse]
        _ = rest.reverse ++ [c] ++ dot :: (name.reverse.takeWhile (· != dot)).reverse := by
          simp
  · rintro ⟨clean, stem, present, rfl⟩
    have before : ∀ b ∈ extension.reverse, (b != dot) = true := by
      intro b mem
      exact bne_iff_ne.mpr fun same => clean (same ▸ List.mem_reverse.mp mem)
    have back : (stem ++ dot :: extension).reverse = extension.reverse ++ dot :: stem.reverse := by
      simp
    obtain ⟨b, rest, stem_eq⟩ := List.exists_cons_of_ne_nil (List.reverse_ne_nil_iff.mpr present)
    simp only [extensionOf?, back, List.takeWhile_append_of_pos before,
      List.dropWhile_append_of_pos before, stem_eq]
    simp

end Path

end StaticHttp
