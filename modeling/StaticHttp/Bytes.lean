/-!
# Byte strings

Everything that crosses a connection or lies in a file is a list of bytes. This module names the few
operations on them that the rest of the library needs: the bytes of a text, and cutting at a
separator and joining again, which are those of lists.

`join_split` says that cutting loses nothing, and `not_mem_of_mem_split` that no piece holds the
separator; together they determine `split`.
-/

namespace StaticHttp

/-- Data as it travels over a connection or lies in a file. -/
abbrev Bytes := List UInt8

namespace Bytes

def ofString (s : String) : Bytes := s.toByteArray.data.toList

/-- The pieces between the occurrences of `sep`: always one more than there are occurrences. -/
def split (sep : UInt8) (bs : Bytes) : List Bytes := bs.splitOn sep

/-- The pieces in order, with `sep` between neighbours. -/
def join (sep : UInt8) (pieces : List Bytes) : Bytes := [sep].intercalate pieces

theorem split_ne_nil (sep : UInt8) (bs : Bytes) : split sep bs ≠ [] :=
  List.splitOn_ne_nil sep bs

/-- Cutting loses nothing. -/
theorem join_split (sep : UInt8) (bs : Bytes) : join sep (split sep bs) = bs :=
  List.intercalate_splitOn sep

/-- No piece holds the separator. -/
theorem not_mem_of_mem_split (sep : UInt8) (bs : Bytes) :
    ∀ piece ∈ split sep bs, sep ∉ piece := by
  induction bs with
  | nil =>
    intro piece h
    obtain rfl := List.mem_singleton.mp h
    exact List.not_mem_nil
  | cons b rest ih =>
    intro piece h
    rw [split, List.splitOn_cons_eq_if_modifyHead] at h
    split at h
    · rcases List.mem_cons.mp h with rfl | h
      · exact List.not_mem_nil
      · exact ih piece h
    · next other =>
      obtain ⟨first, more, pieces⟩ := List.exists_cons_of_ne_nil (List.splitOn_ne_nil sep rest)
      rw [split, pieces] at ih
      rw [pieces, List.modifyHead_cons] at h
      rcases List.mem_cons.mp h with rfl | h
      · intro mem
        rcases List.mem_cons.mp mem with rfl | mem
        · exact other BEq.rfl
        · exact ih first List.mem_cons_self mem
      · exact ih piece (List.mem_cons_of_mem _ h)

end Bytes

end StaticHttp
