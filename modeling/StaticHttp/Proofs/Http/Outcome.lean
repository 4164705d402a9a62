import StaticHttp.Http.Outcome
import StaticHttp.Proofs.Files.Absence

/-!
# What is known of a file that was found

A look-up fails with an error of the operating system, or because no path holds a NUL byte
(`IoError.IsOfLookup`). What `resolve` finds is a regular file with the announced size
(`exists_file_of_resolve`), and as long as the tree stays as it is, opening it gives just that
content (`openFile_eq`).
-/

namespace StaticHttp

/-- The error is one with which looking a path up or opening it can fail. -/
def IoError.IsOfLookup (e : IoError) : Prop := e = .nulInPath ∨ ∃ error, e = .system error

namespace FileSystem

variable {fs : FileSystem} {path : Path} {e : IoError}

theorem isOfLookup_of_placeFrom {directory : Place} (h : fs.placeFrom directory path = .error e) :
    e.IsOfLookup := by
  cases placeFrom_eq_error_iff.mp h with
  | nul => exact .inl rfl
  | tooLong | empty | stranded => exact .inr ⟨_, rfl⟩

theorem isOfLookup_of_lookup (h : fs.lookup path = .error e) : e.IsOfLookup := by
  unfold lookup at h
  split at h <;> cases h
  exact isOfLookup_of_placeFrom ‹_›

theorem isOfLookup_of_metadata (h : fs.metadata path = .error e) : e.IsOfLookup := by
  unfold metadata at h
  split at h <;> cases h
  exact isOfLookup_of_lookup ‹_›

theorem isOfLookup_of_openFile (h : fs.openFile path = .error e) : e.IsOfLookup := by
  unfold openFile at h
  split at h
  · cases h
    exact .inl rfl
  · split at h
    · cases h
      exact .inr ⟨_, rfl⟩
    · split at h <;> cases h
      exact isOfLookup_of_lookup ‹_›

/-- Only a file has a size. -/
theorem lookup_of_metadata {size : Nat} (h : fs.metadata path = .ok (.regular size)) :
    ∃ content, fs.lookup path = .ok (.file content) ∧ content.length = size := by
  unfold metadata at h
  split at h
  · next node found =>
    cases node with
    | file content =>
      cases h
      exact ⟨content, found, rfl⟩
    | _ => cases h
  · cases h

/-- Opening gives what lies at the path. -/
theorem openFile_eq {node : Node} {source : Source} (found : fs.lookup path = .ok node)
    (opened : fs.openFile path = .ok source) : source = node.source := by
  unfold openFile at opened
  rw [found] at opened
  split at opened
  · cases opened
  · split at opened <;> cases opened
    rfl

end FileSystem

variable {fs : FileSystem} {served : Path} {resource : ResourcePath}

theorem isOfLookup_of_resolve {e : IoError} (h : resolve fs served resource = .error e) :
    e.IsOfLookup := by
  unfold resolve at h
  split at h
  · cases h
  · dsimp only at h
    split at h
    · split at h <;> cases h
      exact FileSystem.isOfLookup_of_metadata ‹_›
    · split at h <;> cases h
    · cases h

/-- What is found is a regular file of the announced size, at the path that was asked for below the
served directory, and its media type is known. -/
theorem exists_file_of_resolve {path : Path} {size : Nat} {mime : String}
    (h : resolve fs served resource = .ok (.found path size mime)) :
    ∃ relative content, resource.path.relative? = some relative ∧ path = served.join relative ∧
      fs.lookup path = .ok (.file content) ∧ content.length = size ∧
      Mime.ofPath? path = some mime := by
  unfold resolve at h
  split at h
  · cases h
  next relative asked =>
  dsimp only at h
  split at h
  · split at h <;> cases h
  · next known =>
    split at h <;> cases h
    next typed =>
    obtain ⟨content, file, length⟩ := FileSystem.lookup_of_metadata known
    exact ⟨relative, content, asked, rfl, file, length, typed⟩
  · cases h

/-- What is found is a file of the announced size. -/
theorem exists_content_of_resolve {path : Path} {size : Nat} {mime : String}
    (h : resolve fs served resource = .ok (.found path size mime)) :
    ∃ content, fs.lookup path = .ok (.file content) ∧ content.length = size := by
  obtain ⟨_, content, _, _, file, length, _⟩ := exists_file_of_resolve h
  exact ⟨content, file, length⟩

end StaticHttp
