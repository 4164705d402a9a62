import StaticHttp.Proofs.Http.Mime
import StaticHttp.Proofs.Http.Outcome

/-!
# What becomes of a requested path

What `resolve` makes of a request is decided by two things: by what a look-up below the served
directory gives, and by the name that the path asked for ends in (`Classifies`). A path with a
segment that leads up is not even looked up. So it does not matter for the type of a file where the
served directory lies and how it is called (`resolve_classifies`).
-/

namespace StaticHttp

/-- What a request comes to, by what lies at a path and by the name that was asked for. -/
structure Classifies (fs : FileSystem) (path : Path) (name : Bytes)
    (result : Except IoError Outcome) : Prop where
  error_iff : ∀ e, result = .error e ↔ fs.lookup path = .error e ∧ e.kind ≠ .notFound
  notFound_iff : result = .ok .notFound ↔
    (∃ e, fs.lookup path = .error e ∧ e.kind = .notFound) ∨
    ∃ node, fs.lookup path = .ok node ∧ ∀ content, node ≠ .file content
  found_iff : ∀ place size mime, result = .ok (.found place size mime) ↔
    place = path ∧ (∃ content, fs.lookup path = .ok (.file content) ∧ content.length = size) ∧
    Mime.HasType name mime
  unsupportedType_iff : result = .ok .unsupportedType ↔
    (∃ content, fs.lookup path = .ok (.file content)) ∧ ∀ mime, ¬ Mime.HasType name mime

variable {fs : FileSystem} {served relative : Path} {resource : ResourcePath}

/-- A file that is found below the served directory has the type of the name that was asked for. -/
theorem ofPath?_of_lookup {content : Bytes} (asked : resource.path.relative? = some relative)
    (file : fs.lookup (served.join relative) = .ok (.file content)) (mime : String) :
    Mime.ofPath? (served.join relative) = some mime ↔ Mime.HasType relative.lastSegment mime := by
  refine Mime.ofPath?_join_eq_some_iff served asked fun empty => ?_
  -- Without a name to go down by, only a directory is found, whatever the served path ends in.
  obtain ⟨entries, directory⟩ := FileSystem.exists_entries_of_lookup_join (empty ▸ file)
  cases directory

/-- What lies at the path below the served directory is all that matters of the tree. -/
theorem resolve_eq_of_relative? (asked : resource.path.relative? = some relative) :
    resolve fs served resource =
      match fs.lookup (served.join relative) with
      | .error e => if e.kind = .notFound then .ok .notFound else .error e
      | .ok (.file content) =>
        match Mime.ofPath? (served.join relative) with
        | some mime => .ok (.found (served.join relative) content.length mime)
        | none => .ok .unsupportedType
      | .ok _ => .ok .notFound := by
  simp only [resolve, asked, FileSystem.metadata]
  cases fs.lookup (served.join relative) with
  | error e => rfl
  | ok node => cases node <;> rfl

theorem classifies_of_relative? (asked : resource.path.relative? = some relative) :
    Classifies fs (served.join relative) relative.lastSegment (resolve fs served resource) := by
  rw [resolve_eq_of_relative? asked]
  cases found : fs.lookup (served.join relative) with
  | error e =>
    by_cases missing : e.kind = .notFound
    · constructor <;> simp [found, missing]
    · constructor <;> simp [found, missing]
  | ok node =>
    cases node with
    | file content =>
      have typed := ofPath?_of_lookup asked found
      simp only
      cases mime : Mime.ofPath? (served.join relative) with
      | none => constructor <;> simp [found, ← typed, mime]
      | some mime =>
        constructor <;> simp [found, ← typed, mime]
        exact fun place => eq_comm
    | special | directory | link => constructor <;> simp [found]

/-- What is found has the type of the name that was asked for. -/
theorem hasType_of_resolve {place : Path} {size : Nat} {mime : String}
    (h : resolve fs served resource = .ok (.found place size mime)) :
    ∃ relative, resource.path.relative? = some relative ∧
      Mime.HasType relative.lastSegment mime := by
  obtain ⟨relative, content, asked, rfl, file, -, typed⟩ := exists_file_of_resolve h
  exact ⟨relative, asked, (ofPath?_of_lookup asked file mime).mp typed⟩

/-- A path with a segment that leads up is not found in any tree. For any other one the names in it,
joined, are looked up below the served directory: an error that is not about a missing object is
passed on, a file is found if its name ends in a known extension and is unsupported otherwise, and
anything else is not found. Two servers never disagree about the type of what they both have. -/
theorem resolve_classifies (resource : ResourcePath) :
    (Path.parent ∈ resource.path.segments →
      resource.path.relative? = none ∧ ∀ fs served, resolve fs served resource = .ok .notFound) ∧
    (Path.parent ∉ resource.path.segments →
      let relative : Path := Bytes.join Path.slash resource.path.names
      resource.path.relative? = some relative ∧ ∀ fs served,
        Classifies fs (Path.join served relative) relative.lastSegment
          (resolve fs served resource)) ∧
    ∀ {fs₁ fs₂ served₁ served₂ place₁ size₁ mime₁},
      resolve fs₁ served₁ resource = .ok (.found place₁ size₁ mime₁) →
      resolve fs₂ served₂ resource ≠ .ok .unsupportedType ∧
      ∀ {place₂ size₂ mime₂}, resolve fs₂ served₂ resource = .ok (.found place₂ size₂ mime₂) →
        mime₂ = mime₁ := by
  have normalised := resource.path.relative?_eq
  refine ⟨fun up => ?_, fun down => ?_, fun {fs₁ fs₂ served₁ served₂ _ _ _} found => ?_⟩
  · rw [if_pos up] at normalised
    refine ⟨normalised, fun fs served => ?_⟩
    simp only [resolve, normalised]
  · rw [if_neg down] at normalised
    exact ⟨normalised, fun fs served => classifies_of_relative? normalised⟩
  · obtain ⟨relative, asked, typed⟩ := hasType_of_resolve found
    refine ⟨fun unsupported => ?_, fun found₂ => ?_⟩
    · exact ((classifies_of_relative? asked).unsupportedType_iff.mp unsupported).2 _ typed
    · obtain ⟨_, asked₂, typed₂⟩ := hasType_of_resolve found₂
      cases asked.symm.trans asked₂
      exact typed₂.unique typed

/-- The dots that a name begins with are no step up, and the dot in the name of the served directory
begins no extension. -/
theorem resolve_classifies_dots :
    let fs : FileSystem := ⟨.directory [(Bytes.ofString "www.html",
      .directory [(Bytes.ofString "..x.png", .file [1, 2])])], [], true⟩
    let served : Path := Bytes.ofString "www.html"
    let climbing : ResourcePath := ⟨Bytes.ofString "/a/../..x.png",
      rfl, List.all_eq_true.mp rfl, rfl⟩
    let plain : ResourcePath := ⟨Bytes.ofString "/.//..x.png", rfl, List.all_eq_true.mp rfl, rfl⟩
    Path.parent ∈ climbing.path.segments ∧ resolve fs served climbing = .ok .notFound ∧
    Path.parent ∉ plain.path.segments ∧ resolve fs served plain =
      .ok (.found (Bytes.ofString "www.html/..x.png") 2 "image/png") := by
  intro fs served climbing plain
  have up : Path.parent ∈ climbing.path.segments := by decide
  have down : Path.parent ∉ plain.path.segments := by decide
  have typed : Mime.HasType (Bytes.ofString "..x.png") "image/png" :=
    ⟨Bytes.ofString "..x", "png", by decide, by decide, rfl⟩
  have classified := ((resolve_classifies plain).2.1 down).2 fs served
  exact ⟨up, ((resolve_classifies climbing).1 up).2 fs served, down,
    (classified.found_iff _ _ _).mpr ⟨rfl, ⟨[1, 2], rfl, rfl⟩, typed⟩⟩

end StaticHttp
