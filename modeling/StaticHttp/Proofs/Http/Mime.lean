import StaticHttp.Http.Mime
import StaticHttp.Proofs.Files.Path

/-!
# The media type of a name

A file is served by the end of its name alone: its media type is that of the extension behind the
last dot (`HasType`), so that below whatever directory the file lies, it has the type that the path
asked for tells (`ofPath?_join_eq_some_iff`).
-/

namespace StaticHttp.Mime

/-- The name ends in a dot and an extension with this media type, and has something before them. -/
def HasType (name : Bytes) (mime : String) : Prop :=
  ∃ stem extension, stem ≠ [] ∧ (extension, mime) ∈ table ∧
    name = stem ++ Path.dot :: Bytes.ofString extension

/-- Every entry of the table is the one that its extension finds, and has no dot in it. -/
theorem of_mem_table {extension mime : String} (mem : (extension, mime) ∈ table) :
    ofExtension? (Bytes.ofString extension) = some mime ∧ Path.dot ∉ Bytes.ofString extension := by
  have all : ∀ entry ∈ table,
      ofExtension? (Bytes.ofString entry.1) = some entry.2 ∧ Path.dot ∉ Bytes.ofString entry.1 := by
    decide
  exact all _ mem

theorem ofExtension?_eq_some_iff {extension : Bytes} {mime : String} :
    ofExtension? extension = some mime ↔
      ∃ listed, (listed, mime) ∈ table ∧ extension = Bytes.ofString listed := by
  constructor
  · intro h
    obtain ⟨⟨listed, _⟩, found, rfl⟩ := Option.map_eq_some_iff.mp h
    have same := List.find?_some found
    exact ⟨listed, List.mem_of_find?_eq_some found, (beq_iff_eq.mp same).symm⟩
  · rintro ⟨listed, mem, rfl⟩
    exact (of_mem_table mem).1

theorem ofName?_eq_some_iff {name : Bytes} {mime : String} :
    (Path.extensionOf? name).bind ofExtension? = some mime ↔ HasType name mime := by
  simp only [Option.bind_eq_some_iff, Path.extensionOf?_eq_some_iff, ofExtension?_eq_some_iff]
  constructor
  · rintro ⟨_, ⟨-, stem, present, rfl⟩, extension, mem, rfl⟩
    exact ⟨stem, extension, present, mem, rfl⟩
  · rintro ⟨stem, extension, present, mem, rfl⟩
    exact ⟨_, ⟨(of_mem_table mem).2, stem, present, rfl⟩, extension, mem, rfl⟩

/-- A name has one media type at most. -/
theorem HasType.unique {name : Bytes} {mime mime' : String} (h : HasType name mime)
    (h' : HasType name mime') : mime = mime' :=
  Option.some.inj ((ofName?_eq_some_iff.mpr h).symm.trans (ofName?_eq_some_iff.mpr h'))

/-- Below any directory, the media type is that of the name that the path of a request ends in. -/
theorem ofPath?_join_eq_some_iff {requested rest : Path} {mime : String} (base : Path)
    (asked : requested.relative? = some rest) (present : rest ≠ []) :
    ofPath? (base.join rest) = some mime ↔ HasType rest.lastSegment mime := by
  have relative := (Path.descends_of_relative? asked).relative
  rw [ofPath?, Path.extension?, Path.fileName?_join relative (Path.step?_lastSegment asked present)]
  exact ofName?_eq_some_iff

end StaticHttp.Mime
