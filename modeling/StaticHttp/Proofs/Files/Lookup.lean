import StaticHttp.Files.Tree
import StaticHttp.Proofs.Files.Path

/-!
# Looking up below a directory

A walk down two lists of segments is the walk down the first one, and from where that ends the walk
down the second one (`follow_append`). Where there are no symbolic links and no step leads up, the
walk depends on nothing but the node where it begins: it is `Node.descend`, which never leaves that
node (`within_of_descend`). So what a path names below a directory is known from the directory alone
(`lookup_join`).
-/

namespace StaticHttp

namespace Node

/-- There is no symbolic link at the node or below it. -/
inductive LinkFree : Node → Prop
  | file (content : Bytes) : LinkFree (file content)
  | special : LinkFree special
  | directory {entries : List (Bytes × Node)} (below : ∀ entry ∈ entries, LinkFree entry.2) :
      LinkFree (directory entries)

/-- The first node is the second one, or lies somewhere below it. -/
inductive Within (inner : Node) : Node → Prop
  | self : Within inner inner
  | entry {entries : List (Bytes × Node)} {name : Bytes} {child : Node}
      (mem : (name, child) ∈ entries) (within : Within inner child) :
      Within inner (directory entries)

/-- Goes down the segments from a node, without a step up and without links. -/
def descend : Node → List Bytes → Except SystemError Node
  | node, [] => .ok node
  | directory entries, segment :: rest =>
    if segment = [] ∨ segment = Path.here then descend (directory entries) rest
    else if maxNameLength < segment.length then .error .nameTooLong
    else
      match entries.lookup segment with
      | none => .error .notFound
      | some child => descend child rest
  | _, _ :: _ => .error .notADirectory

theorem mem_of_lookup {entries : List (Bytes × Node)} {name : Bytes} {child : Node}
    (h : entries.lookup name = some child) : (name, child) ∈ entries := by
  obtain ⟨before, after, rfl, -⟩ := List.lookup_eq_some_iff.mp h
  exact List.mem_append_right _ List.mem_cons_self

/-- Going down does not lead out of the node. -/
theorem within_of_descend {segments : List Bytes} {node found : Node}
    (h : node.descend segments = .ok found) : found.Within node := by
  fun_induction descend node segments with
  | case1 => cases h; exact .self
  | case2 _ _ _ _ ih => exact ih h
  | case3 | case4 | case6 => cases h
  | case5 _ _ _ _ _ _ entry ih => exact .entry (mem_of_lookup entry) (ih h)

end Node

namespace Place

/-- A walk goes on from where it has got to. -/
theorem advance_append (p : Place) (first rest : List Bytes) :
    p.advance (first ++ rest) =
      match p.advance first with
      | .arrived q => q.advance rest
      | .atLink directory target left => .atLink directory target (left ++ rest)
      | .failed e => .failed e := by
  induction first generalizing p with
  | nil => rfl
  | cons segment first ih =>
    simp only [List.cons_append, advance]
    split
    · split
      · exact ih p
      · split
        · exact ih p.parent
        · split
          · rfl
          · split
            · rfl
            · rfl
            · exact ih _
    · rfl

/-- One step of a walk, out of a directory. -/
theorem advance_directory (entries : List (Bytes × Node)) (above : List (Bytes × Node))
    (segment : Bytes) (rest : List Bytes) :
    advance ⟨.directory entries, above⟩ (segment :: rest) =
      if segment = [] ∨ segment = Path.here then advance ⟨.directory entries, above⟩ rest
      else if segment = Path.parent then (parent ⟨.directory entries, above⟩).advance rest
      else if maxNameLength < segment.length then .failed .nameTooLong
      else
        match entries.lookup segment with
        | none => .failed .notFound
        | some (.link target) => .atLink ⟨.directory entries, above⟩ target rest
        | some node => (child ⟨.directory entries, above⟩ segment node).advance rest := rfl

/-- Without links and without a step up, a walk goes down from its node, and nothing above the node
matters. -/
theorem advance_of_linkFree {node : Node} {segments : List Bytes} (linkFree : node.LinkFree)
    (down : Path.parent ∉ segments) (above : List (Bytes × Node)) :
    match node.descend segments with
    | .ok found => ∃ way, advance ⟨node, above⟩ segments = .arrived ⟨found, way⟩
    | .error e => advance ⟨node, above⟩ segments = .failed e := by
  fun_induction Node.descend node segments generalizing above with
  | case1 => exact ⟨above, rfl⟩
  | case2 entries segment rest blank ih =>
    rw [advance_directory, if_pos blank]
    exact ih linkFree (fun h => down (List.mem_cons_of_mem _ h)) above
  | case3 entries segment rest blank long =>
    have step : segment ≠ Path.parent := fun same => down (same ▸ List.mem_cons_self)
    rw [advance_directory, if_neg blank, if_neg step, if_pos long]
  | case4 entries segment rest blank long missing =>
    have step : segment ≠ Path.parent := fun same => down (same ▸ List.mem_cons_self)
    rw [advance_directory, if_neg blank, if_neg step, if_neg long, missing]
  | case5 entries segment rest blank long child entry ih =>
    have step : segment ≠ Path.parent := fun same => down (same ▸ List.mem_cons_self)
    rw [advance_directory, if_neg blank, if_neg step, if_neg long, entry]
    cases linkFree with
    | directory below =>
      have linkFree := below _ (Node.mem_of_lookup entry)
      have rest := ih linkFree (fun h => down (List.mem_cons_of_mem _ h))
      cases linkFree with
      | file | special | directory => exact rest _
  | case6 node segment rest other =>
    cases linkFree with
    | file | special => rfl
    | directory => exact absurd rfl (other _)

end Place

namespace FileSystem

variable {fs : FileSystem}

/-- Following links depends on the walk up to the first link alone. -/
theorem follow_congr {links : Nat} {p q : Place} {segments segments' : List Bytes}
    (same : p.advance segments = q.advance segments') :
    fs.follow links p segments = fs.follow links q segments' := by
  unfold follow
  rw [same]

theorem follow_of_arrived {links : Nat} {p q : Place} {segments : List Bytes}
    (walk : p.advance segments = .arrived q) : fs.follow links p segments = .ok q := by
  unfold follow
  rw [walk]

theorem follow_of_failed {links : Nat} {p : Place} {segments : List Bytes} {e : SystemError}
    (walk : p.advance segments = .failed e) : fs.follow links p segments = .error e := by
  unfold follow
  rw [walk]

theorem follow_of_atLink {links : Nat} {p directory : Place} {segments left : List Bytes}
    {target : Path} (walk : p.advance segments = .atLink directory target left) :
    fs.follow links p segments =
      match links with
      | 0 => .error .linkLoop
      | links + 1 => fs.follow links (fs.startOf directory target) (target.segments ++ left) := by
  cases links with
  | zero | succ =>
    rw [follow]
    rw [walk]

/-- Below a node without links a look-up finds what going down from the node finds. -/
theorem follow_of_linkFree {links : Nat} {p : Place} {segments : List Bytes}
    (linkFree : p.node.LinkFree) (down : Path.parent ∉ segments) :
    (fs.follow links p segments).map (·.node) = p.node.descend segments := by
  have walk := Place.advance_of_linkFree linkFree down p.above
  cases h : p.node.descend segments with
  | ok found =>
    rw [h] at walk
    obtain ⟨way, walk⟩ := walk
    rw [follow_of_arrived walk]
    rfl
  | error e =>
    rw [h] at walk
    rw [follow_of_failed walk]
    rfl

/-- A look-up goes on from where the walk has got to, with the links that are left to follow. -/
theorem follow_append (links : Nat) (p : Place) (first rest : List Bytes) :
    (∃ e, fs.follow links p first = .error e ∧ fs.follow links p (first ++ rest) = .error e) ∨
    ∃ q left, fs.follow links p first = .ok q ∧
      fs.follow links p (first ++ rest) = fs.follow left q rest := by
  have further := Place.advance_append p first rest
  cases walk : p.advance first with
  | arrived q =>
    rw [walk] at further
    exact .inr ⟨q, links, follow_of_arrived walk, follow_congr further⟩
  | failed e =>
    rw [walk] at further
    exact .inl ⟨e, follow_of_failed walk, follow_of_failed further⟩
  | atLink directory target left =>
    rw [walk] at further
    rw [follow_of_atLink walk, follow_of_atLink further]
    cases links with
    | zero => exact .inl ⟨_, rfl, rfl⟩
    | succ links =>
      simp only [← List.append_assoc]
      exact follow_append links (fs.startOf directory target) (target.segments ++ left) rest

/-- An empty segment leads nowhere. -/
theorem eq_of_follow_empty {links : Nat} {p q : Place} (h : fs.follow links p [[]] = .ok q) :
    q = p := by
  unfold follow at h
  simp only [Place.advance] at h
  cases node : p.node with
  | directory =>
    rw [node] at h
    simp only [true_or, if_true] at h
    cases h
    rfl
  | _ =>
    rw [node] at h
    cases h

/-- Only a directory lets an empty segment pass. -/
theorem exists_entries_of_follow_empty {links : Nat} {p q : Place}
    (h : fs.follow links p [[]] = .ok q) : ∃ entries, q.node = .directory entries := by
  obtain rfl := eq_of_follow_empty h
  cases node : q.node with
  | directory entries => exact ⟨entries, rfl⟩
  | _ =>
    have stops : q.advance [[]] = .failed .notADirectory := by simp only [Place.advance, node]
    cases (follow_of_failed stops).symm.trans h

/-- What a path has led to is where the look-up of a continued path goes on. -/
theorem follow_join {links : Nat} {start p : Place} {base rest : Path} (nonempty : base ≠ [])
    (relative : rest.isAbsolute = false) (found : fs.follow links start base.segments = .ok p) :
    ∃ left, fs.follow links start (base.join rest).segments = fs.follow left p rest.segments := by
  obtain ⟨front, same | ends, joined⟩ := Path.segments_join nonempty relative
  · rw [joined, ← same]
    rcases follow_append links start base.segments rest.segments with
      ⟨e, failed, _⟩ | ⟨q, left, first, both⟩
    · cases found.symm.trans failed
    · cases found.symm.trans first
      exact ⟨left, both⟩
  · rw [joined]
    rw [ends] at found
    rcases follow_append links start front [[]] with ⟨e, _, failed⟩ | ⟨q, left, first, both⟩
    · cases found.symm.trans failed
    · cases eq_of_follow_empty (both.symm.trans found)
      rcases follow_append links start front rest.segments with
        ⟨e, failed, _⟩ | ⟨q, left, first', both⟩
      · cases first.symm.trans failed
      · cases first.symm.trans first'
        exact ⟨left, both⟩

/-- The place that a path names is where the walk along its segments ends. -/
theorem follow_of_placeFrom {directory p : Place} {path : Path}
    (found : fs.placeFrom directory path = .ok p) :
    path ≠ [] ∧ fs.follow maxLinks (fs.startOf directory path) path.segments = .ok p := by
  unfold placeFrom at found
  split at found
  · cases found
  split at found
  · cases found
  split at found
  · cases found
  next present =>
  split at found <;> cases found
  next walk => exact ⟨present, walk⟩

/-- What a path names below a directory without links, by its length and its segments alone. -/
def findBelow (node : Node) (base rest : Path) : Except IoError Node :=
  if 0 ∈ base.join rest then .error .nulInPath
  else if maxPathLength < (base.join rest).length then .error (.system .nameTooLong)
  else
    match node.descend rest.segments with
    | .ok found => .ok found
    | .error e => .error (.system e)

theorem within_of_findBelow {node found : Node} {base rest : Path}
    (h : findBelow node base rest = .ok found) : found.Within node := by
  unfold findBelow at h
  split at h
  · cases h
  · split at h
    · cases h
    · split at h <;> cases h
      exact Node.within_of_descend ‹_›

/-- Below a directory without links, nothing matters but the directory itself. -/
theorem lookup_join {p : Place} {base rest : Path}
    (found : fs.placeFrom fs.workingPlace base = .ok p) (linkFree : p.node.LinkFree)
    (descends : rest.Descends) : fs.lookup (base.join rest) = findBelow p.node base rest := by
  obtain ⟨nonempty, walked⟩ := follow_of_placeFrom found
  obtain ⟨left, joined⟩ := follow_join nonempty descends.relative walked
  have walk : (fs.follow left p rest.segments).map (·.node) = p.node.descend rest.segments :=
    follow_of_linkFree linkFree descends.parent_not_mem
  have start : fs.startOf fs.workingPlace (base.join rest) = fs.startOf fs.workingPlace base := by
    rw [startOf, startOf, Path.isAbsolute_join nonempty descends.relative]
  have longer := Path.join_ne_nil nonempty descends.relative
  simp only [lookup, placeFrom, findBelow, start, joined, ← walk, if_neg longer]
  by_cases nul : 0 ∈ base.join rest
  · simp only [if_pos nul]
  by_cases long : maxPathLength < (base.join rest).length
  · simp only [if_neg nul, if_pos long]
  simp only [if_neg nul, if_neg long]
  cases fs.follow left p rest.segments <;> rfl

/-- Nothing but a directory is found at a path that is joined with nothing. -/
theorem exists_entries_of_lookup_join {base : Path} {node : Node}
    (h : fs.lookup (base.join []) = .ok node) : ∃ entries, node = .directory entries := by
  unfold lookup at h
  split at h <;> cases h
  next p found =>
  obtain ⟨present, walk⟩ := follow_of_placeFrom found
  have nonempty : base ≠ [] := by
    rintro rfl
    exact present rfl
  have relative : Path.isAbsolute [] = false := rfl
  obtain ⟨front, -, joined⟩ := Path.segments_join nonempty relative
  rw [joined] at walk
  rcases follow_append maxLinks _ front [[]] with ⟨e, -, failed⟩ | ⟨q, left, -, both⟩
  · cases failed.symm.trans walk
  · exact exists_entries_of_follow_empty (both.symm.trans walk)

end FileSystem

end StaticHttp
