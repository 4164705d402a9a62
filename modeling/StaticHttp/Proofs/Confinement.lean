import StaticHttp.Handling
import StaticHttp.Proofs.Files.Lookup
import StaticHttp.Proofs.Http.Outcome

/-!
# Nothing outside the served directory

Two trees agree below a served directory (`FileSystem.Agree`) if no path that descends from it tells
them apart. Then no connection tells them apart either (`Agree.serve_eq`), since a request is only
ever looked up on such a path. Trees agree if the served directory is the same in both and has no
symbolic links in it, whatever lies around it and whichever way leads to it; so a client learns
nothing of what is outside (`handle_confined`).
-/

namespace StaticHttp

/-- A file that is found lies on a path that descends from the served directory. -/
theorem descends_of_resolve {fs : FileSystem} {served path : Path} {resource : ResourcePath}
    {size : Nat} {mime : String} (h : resolve fs served resource = .ok (.found path size mime)) :
    ∃ rest : Path, rest.Descends ∧ path = served.join rest := by
  obtain ⟨rest, _, asked, joined, -⟩ := exists_file_of_resolve h
  exact ⟨rest, Path.descends_of_relative? asked, joined⟩

/-- The answer depends on the tree by nothing but the opening of the file that was found. -/
theorem respond_congr {fs₁ fs₂ : FileSystem} {outcome : Outcome}
    (same : ∀ path size mime, outcome = .found path size mime →
      fs₁.openFile path = fs₂.openFile path) (c : Connection) :
    respond fs₁ outcome c = respond fs₂ outcome c := by
  cases outcome with
  | found path size mime => simp only [respond, same path size mime rfl]
  | notFound | unsupportedType => rfl

namespace FileSystem

/-- No path that descends from the served directory tells the trees apart. -/
structure Agree (fs₁ fs₂ : FileSystem) (served : Path) : Prop where
  lookup_eq : ∀ rest : Path, rest.Descends →
    fs₁.lookup (served.join rest) = fs₂.lookup (served.join rest)
  canOpen_eq : fs₁.canOpen = fs₂.canOpen

variable {fs₁ fs₂ : FileSystem} {served : Path}

/-- Trees with the same served directory agree, if it holds no symbolic links. -/
theorem agree_of_node_eq {p₁ p₂ : Place} (found₁ : fs₁.placeFrom fs₁.workingPlace served = .ok p₁)
    (found₂ : fs₂.placeFrom fs₂.workingPlace served = .ok p₂) (same : p₁.node = p₂.node)
    (linkFree : p₁.node.LinkFree) (canOpen : fs₁.canOpen = fs₂.canOpen) :
    fs₁.Agree fs₂ served where
  lookup_eq rest descends := by
    rw [lookup_join found₁ linkFree descends, lookup_join found₂ (same ▸ linkFree) descends, same]
  canOpen_eq := canOpen

namespace Agree

variable (agree : fs₁.Agree fs₂ served)
include agree

theorem resolve_eq (resource : ResourcePath) :
    resolve fs₁ served resource = resolve fs₂ served resource := by
  unfold resolve
  cases below : resource.path.relative? with
  | none => rfl
  | some rest => simp only [metadata, agree.lookup_eq rest (Path.descends_of_relative? below)]

theorem openFile_eq {rest : Path} (descends : rest.Descends) :
    fs₁.openFile (served.join rest) = fs₂.openFile (served.join rest) := by
  simp only [openFile, agree.canOpen_eq, agree.lookup_eq rest descends]

/-- No connection tells the trees apart. -/
theorem serve_eq (c : Connection) : Site.serve ⟨fs₁, served⟩ c = Site.serve ⟨fs₂, served⟩ c := by
  unfold Site.serve
  split
  · rfl
  · next resource c' request =>
    simp only [agree.resolve_eq resource]
    cases resolved : resolve fs₂ served resource with
    | error e => rfl
    | ok outcome =>
      have answer : respond fs₁ outcome c' = respond fs₂ outcome c' := by
        refine respond_congr (fun path size mime found => ?_) c'
        obtain ⟨rest, descends, rfl⟩ := descends_of_resolve (found ▸ resolved)
        exact agree.openFile_eq descends
      simp only [answer]

end Agree

end FileSystem

namespace Site

/-- Handling a connection depends on the served directory alone, if it holds no symbolic links: two
trees that have it in common cannot be told apart by any request, any behaviour of the connection
or anything that is counted, as long as files can be opened in both or in neither. And what is found
lies in the served directory, whatever the request asks for. -/
theorem handle_confined {fs₁ fs₂ : FileSystem} {served : Path} {p₁ p₂ : Place}
    (found₁ : fs₁.placeFrom fs₁.workingPlace served = .ok p₁)
    (found₂ : fs₂.placeFrom fs₂.workingPlace served = .ok p₂) (same : p₁.node = p₂.node)
    (linkFree : p₁.node.LinkFree) (canOpen : fs₁.canOpen = fs₂.canOpen) :
    (∀ c elapsed metrics,
      handle ⟨fs₁, served⟩ c elapsed metrics = handle ⟨fs₂, served⟩ c elapsed metrics) ∧
    ∀ resource path size mime, resolve fs₁ served resource = .ok (.found path size mime) →
      ∃ content, fs₁.lookup path = .ok (.file content) ∧ content.length = size ∧
        (Node.file content).Within p₁.node := by
  refine ⟨fun c elapsed metrics => ?_, fun resource path size mime resolved => ?_⟩
  · have agree := FileSystem.agree_of_node_eq found₁ found₂ same linkFree canOpen
    simp only [handle, agree.serve_eq c]
  · obtain ⟨content, file, length⟩ := exists_content_of_resolve resolved
    obtain ⟨rest, descends, rfl⟩ := descends_of_resolve resolved
    refine ⟨content, file, length, ?_⟩
    rw [FileSystem.lookup_join found₁ linkFree descends] at file
    exact FileSystem.within_of_findBelow file

/-- The served directory lies behind a link in one tree and not in the other, and there are
different secrets beside it. -/
theorem handle_confined_behind_link :
    let www : Node := .directory [(Bytes.ofString "a.txt", .file [1, 2, 3])]
    let fs₁ : FileSystem :=
      ⟨.directory [(Bytes.ofString "srv", .directory [(Bytes.ofString "www", www)]),
        (Bytes.ofString "secret.txt", .file [1])], [], true⟩
    let fs₂ : FileSystem :=
      ⟨.directory [(Bytes.ofString "srv", .link (Bytes.ofString "data")),
        (Bytes.ofString "data", .directory [(Bytes.ofString "www", www),
          (Bytes.ofString "secret.txt", .file [2])])], [], true⟩
    let c : Connection := ⟨[.data (Bytes.ofString "GET /../secret.txt HTTP/1.0\r\n")], [], none, {}⟩
    let served : Path := Bytes.ofString "/srv/www"
    (∃ p₁ p₂, fs₁.placeFrom fs₁.workingPlace served = .ok p₁ ∧
      fs₂.placeFrom fs₂.workingPlace served = .ok p₂ ∧ p₁.node = p₂.node ∧ p₁.node.LinkFree ∧
      fs₁.canOpen = fs₂.canOpen) ∧
    handle ⟨fs₁, served⟩ c {} {} = handle ⟨fs₂, served⟩ c {} {} := by
  have linkFree : (Node.directory [(Bytes.ofString "a.txt", .file [1, 2, 3])]).LinkFree :=
    .directory fun entry h => by
      cases List.mem_singleton.mp h
      exact .file _
  exact ⟨⟨_, _, rfl, rfl, rfl, linkFree, rfl⟩,
    (handle_confined rfl rfl rfl linkFree rfl).1 _ _ _⟩

end Site

end StaticHttp
