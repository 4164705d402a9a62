/-!
# Windows

A window shows the latest values of a series, oldest first, and at most `room` of them. It holds up
to twice as many, so that the older half goes at once and not one value at a time; `toList` is what
it shows, and `toList_push` says that a new value comes last and pushes out the oldest when there is
no room.
-/

namespace StaticHttp

/-- The last values of a list, at most `room` of them. -/
def latest {α : Type} (room : Nat) (values : List α) : List α := values.drop (values.length - room)

/-- The latest values of a series. -/
structure Window (α : Type) (room : Nat) where
  /-- The latest values and some before them, oldest first. -/
  held : Array α := #[]
  deriving DecidableEq, Repr

namespace Window

variable {α : Type} {room : Nat}

/-- The values shown, oldest first. -/
def toList (w : Window α room) : List α := latest room w.held.toList

/-- The window after one more value. -/
def push (w : Window α room) (value : α) : Window α room :=
  { held :=
      (if 2 * room ≤ w.held.size then w.held.extract room w.held.size else w.held).push value }

/-- A new value comes last; the oldest goes when there is no room. -/
theorem toList_push (w : Window α room) (value : α) :
    (w.push value).toList = latest room (w.toList ++ [value]) := by
  have key : ∀ {held : List α} {k : Nat}, k ≤ held.length - room →
      latest room (held.drop k ++ [value]) = latest room (latest room held ++ [value]) := by
    intro held k hk
    unfold latest
    rw [← List.drop_append_of_le_length (by omega),
      ← List.drop_append_of_le_length (by omega : held.length - room ≤ held.length),
      List.drop_drop, List.drop_drop]
    simp only [List.length_drop, List.length_append, List.length_singleton]
    congr 1
    omega
  unfold push toList
  split
  · next h =>
    rw [Array.toList_push, Array.toList_extract, List.extract_eq_take_drop, ← Array.length_toList,
      List.take_of_length_le (Nat.le_of_eq List.length_drop)]
    refine key ?_
    rw [Array.length_toList]
    omega
  · rw [Array.toList_push]
    exact key (k := 0) (Nat.zero_le _)

/-- No more is shown than there is room for. -/
theorem length_toList_le (w : Window α room) : w.toList.length ≤ room := by
  unfold toList latest
  rw [List.length_drop]
  omega

end Window

end StaticHttp
