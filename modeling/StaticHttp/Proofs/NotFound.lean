import StaticHttp.Proofs.Files.Absence
import StaticHttp.Proofs.Handling

/-!
# A request for nothing

Of all the reasons for which nothing is to be found at a path, a missing entry alone makes a request
"not found". Whatever else stops the look-up is passed on as an error, and the connection is closed
without an answer (`resolve_of_absent`).
-/

namespace StaticHttp

/-- Nothing is to be found where the site keeps a path, for this reason. -/
def Site.Lacks (site : Site) (relative : Path) (e : IoError) : Prop :=
  site.files.Absent site.files.workingPlace (site.served.join relative) e

variable {site : Site} {resource : ResourcePath} {relative : Path}

/-- Looking for a path at which there is nothing fails for some reason, which is passed on unless an
entry was missing. -/
theorem exists_absent (asked : resource.path.relative? = some relative)
    (nothing : ∀ node, site.files.lookup (site.served.join relative) ≠ .ok node) :
    ∃ e, site.Lacks relative e ∧
      resolve site.files site.served resource =
        if e = .system .notFound then .ok .notFound else .error e := by
  cases found : site.files.lookup (site.served.join relative) with
  | ok node => exact absurd found (nothing node)
  | error e =>
    have absent := FileSystem.lookup_eq_error_iff.mp found
    refine ⟨e, absent, ?_⟩
    simp only [resolve, asked, FileSystem.metadata, found, absent.kind_eq_notFound_iff]

/-- A connection that asks for something that cannot be resolved is sent nothing. -/
theorem Site.serve_of_error {c : Connection} {e : IoError}
    (request : (readRequest c).1 = .ok resource)
    (failed : resolve site.files site.served resource = .error e) :
    site.serve c = (.error (.error (.io e)), (readRequest c).2) := by
  rcases h : readRequest c with ⟨_, c'⟩
  rw [h] at request
  cases request
  simp only [Site.serve, h, failed]

/-- A request for something that is not there is answered "not found" exactly if a directory on the
way lacks an entry, or the path is empty. If anything else stops the look-up, its error is passed
on, and the connection is closed with nothing sent. -/
theorem resolve_of_absent (asked : resource.path.relative? = some relative)
    (nothing : ∀ node, site.files.lookup (site.served.join relative) ≠ .ok node) :
    (resolve site.files site.served resource = .ok .notFound ↔
      site.Lacks relative (.system .notFound)) ∧
    (resolve site.files site.served resource ≠ .ok .notFound →
      ∃ e, e ≠ .system .notFound ∧ site.Lacks relative e ∧
        resolve site.files site.served resource = .error e ∧
        ∀ c elapsed metrics, (readRequest c).1 = .ok resource →
          (site.handle c elapsed metrics).result = .error (.error (.io e)) ∧
          (site.handle c elapsed metrics).log.transfers = c.log.transfers) := by
  obtain ⟨e, absent, resolved⟩ := exists_absent asked nothing
  rw [resolved]
  refine ⟨⟨fun h => ?_, fun missing => ?_⟩, fun other => ?_⟩
  · split at h
    · next same => exact same ▸ absent
    · cases h
  · have same := (FileSystem.lookup_eq_error_iff.mpr missing).symm.trans
      (FileSystem.lookup_eq_error_iff.mpr absent)
    rw [if_pos (Except.error.inj same).symm]
  · have passed : e ≠ .system .notFound := fun same => other (if_pos same)
    rw [if_neg passed] at resolved ⊢
    refine ⟨e, passed, absent, rfl, fun c elapsed metrics request => ?_⟩
    have served := Site.serve_of_error request resolved
    obtain ⟨_, _, reads⟩ := Connection.reads_readRequest c
    rw [Site.handle_result, Site.handle_log, served, reads]
    exact ⟨rfl, rfl⟩

/-- A directory on the way is missing. -/
theorem resolve_of_absent_directory :
    let site : Site := ⟨⟨.directory [(Bytes.ofString "www",
      .directory [(Bytes.ofString "a.txt", .file [1])])], [], true⟩, Bytes.ofString "www"⟩
    let resource : ResourcePath := ⟨Bytes.ofString "/docs/b.txt",
      rfl, List.all_eq_true.mp rfl, rfl⟩
    let path := Bytes.ofString "www/docs/b.txt"
    resource.path.relative? = some (Bytes.ofString "docs/b.txt") ∧
      (∀ node, site.files.lookup path ≠ .ok node) ∧
      resolve site.files site.served resource = .ok .notFound ∧
      site.Lacks (Bytes.ofString "docs/b.txt") (.system .notFound) := by
  intro site resource path
  have asked : resource.path.relative? = some (Bytes.ofString "docs/b.txt") := rfl
  have failed : site.files.lookup path = .error (.system .notFound) := rfl
  have nothing : ∀ node, site.files.lookup path ≠ .ok node := by
    intro node found
    cases failed.symm.trans found
  have resolved : resolve site.files site.served resource = .ok .notFound := rfl
  exact ⟨asked, nothing, resolved, (resolve_of_absent asked nothing).1.mp resolved⟩

/-- So a request for something that is not there is not always answered "not found": here a file
stands where the path has a directory. -/
theorem not_resolve_absent_eq_notFound :
    ¬ ∀ (fs : FileSystem) (served : Path) (resource : ResourcePath) (relative : Path),
      (∃ entries, fs.lookup served = .ok (.directory entries)) →
      resource.path.relative? = some relative →
      (∀ node, fs.lookup (served.join relative) ≠ .ok node) →
      resolve fs served resource = .ok .notFound := by
  intro answered
  let fs : FileSystem := ⟨.directory [(Bytes.ofString "www",
    .directory [(Bytes.ofString "a.txt", .file (Bytes.ofString "x"))])], [], true⟩
  let resource : ResourcePath := ⟨Bytes.ofString "/a.txt/b",
    rfl, List.all_eq_true.mp rfl, rfl⟩
  have failed : fs.lookup (Bytes.ofString "www/a.txt/b") = .error (.system .notADirectory) := rfl
  have passed : resolve fs (Bytes.ofString "www") resource = .error (.system .notADirectory) := rfl
  have notFound := answered fs (Bytes.ofString "www") resource (Bytes.ofString "a.txt/b") ⟨_, rfl⟩
    rfl fun _ found => by cases failed.symm.trans found
  cases passed.symm.trans notFound

end StaticHttp
