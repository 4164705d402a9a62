import StaticHttp.Queue.Basic
import Mathlib.Data.List.Basic
import Mathlib.Data.List.Induction
import Mathlib.Data.Nat.ModEq

/-!
# The items of a queue

`Ring.Holds` ties the slots, the two positions and the counter of a ring to the list of its items.
Adding appends to that list and taking removes its head, however often the positions have gone
round. `Queue.Accepts` and `Queue.Yields` say all that an accepted and a taken item change about a
queue, so that no later module opens a ring.
-/

namespace StaticHttp

namespace Ring

variable {α : Type}

/-- The ring holds these items, oldest first, in the slots from its head on. -/
structure Holds (r : Ring α) (items : List α) : Prop where
  length_eq : r.length = items.length
  length_le : r.length ≤ r.capacity
  head_lt : 0 < r.capacity → r.head < r.capacity
  tail_eq : r.tail = (r.head + r.length) % r.capacity
  slot_eq : ∀ i < items.length, r.slots[(r.head + i) % r.capacity]? = some items[i]?

private theorem filterMap_range_getElem? (items : List α) :
    (List.range items.length).filterMap (fun i => items[i]?) = items := by
  induction items using List.reverseRecOn with
  | nil => rfl
  | append_singleton items item ih =>
    rw [List.length_append, List.length_singleton, List.range_succ, List.filterMap_append]
    congr 1
    · rw [List.filterMap_congr (g := fun i => items[i]?), ih]
      intro i hi
      rw [List.getElem?_append_left (List.mem_range.mp hi)]
    · simp

theorem Holds.toList_eq {r : Ring α} {items : List α} (h : r.Holds items) : r.toList = items := by
  unfold toList
  rw [h.length_eq, List.filterMap_congr (g := fun i => items[i]?), filterMap_range_getElem?]
  intro i hi
  rw [h.slot_eq i (List.mem_range.mp hi)]
  rfl

/-- Offsets from the head below the capacity lead to different slots. -/
private theorem slot_ne {head capacity i j : Nat} (hi : i < capacity) (hj : j < capacity)
    (hne : i ≠ j) : (head + i) % capacity ≠ (head + j) % capacity := by
  intro heq
  have hmod : i ≡ j [MOD capacity] := Nat.ModEq.add_left_cancel' head heq
  exact hne (Nat.ModEq.eq_of_lt_of_lt hmod hi hj)

theorem holds_ofCapacity (capacity : Nat) : (ofCapacity capacity : Ring α).Holds [] where
  length_eq := rfl
  length_le := Nat.zero_le _
  head_lt := fun h => h
  tail_eq := (Nat.zero_mod _).symm
  slot_eq := fun _ h => absurd h (Nat.not_lt_zero _)

theorem capacity_ofCapacity (capacity : Nat) : (ofCapacity capacity : Ring α).capacity = capacity :=
  Array.size_replicate

/-- A full ring refuses an item. -/
theorem Holds.push?_full {r : Ring α} {items : List α} (h : r.Holds items)
    (full : items.length = r.capacity) (item : α) : r.push? item = none := by
  have hfull : r.isFull = true := beq_iff_eq.mpr (h.length_eq.trans full)
  rw [push?, if_pos hfull]

/-- A ring with a free slot takes an item behind the others. -/
theorem Holds.push?_room {r : Ring α} {items : List α} (h : r.Holds items)
    (room : items.length < r.capacity) (item : α) :
    ∃ after, r.push? item = some after ∧ after.Holds (items ++ [item]) ∧
      after.capacity = r.capacity := by
  have hlen := h.length_eq
  have hfull : ¬ r.isFull = true := fun full => by
    have := beq_iff_eq.mp full
    omega
  have htail : r.tail < r.capacity := h.tail_eq ▸ Nat.mod_lt _ (by omega)
  have hsize : (r.slots.setIfInBounds r.tail (some item)).size = r.capacity :=
    Array.size_setIfInBounds
  refine ⟨_, if_neg hfull, ⟨?_, ?_, ?_, ?_, ?_⟩, hsize⟩
  · simp only [List.length_append, List.length_singleton, hlen]
  · show r.length + 1 ≤ (r.slots.setIfInBounds r.tail (some item)).size
    omega
  · intro _
    show r.head < (r.slots.setIfInBounds r.tail (some item)).size
    rw [hsize]
    exact h.head_lt (by omega)
  · show (r.tail + 1) % r.capacity = (r.head + (r.length + 1)) % (Array.size _)
    rw [hsize, h.tail_eq, Nat.mod_add_mod, Nat.add_assoc]
  · intro i hi
    show (r.slots.setIfInBounds r.tail (some item))[(r.head + i) % (Array.size _)]? = _
    rw [List.length_append, List.length_singleton] at hi
    rw [hsize]
    rcases Nat.lt_or_ge i items.length with hlt | hge
    · -- An older item lies in another slot.
      have hne : r.tail ≠ (r.head + i) % r.capacity := by
        rw [h.tail_eq]
        exact slot_ne (by omega) (by omega) (by omega)
      rw [Array.getElem?_setIfInBounds_ne hne, h.slot_eq i hlt, List.getElem?_append_left hlt]
    · have heq : i = items.length := by omega
      rw [heq, ← hlen, ← h.tail_eq, Array.getElem?_setIfInBounds_self_of_lt htail, hlen,
        List.getElem?_concat_length]

/-- An empty ring has nothing to take. -/
theorem Holds.pop?_nil {r : Ring α} (h : r.Holds []) : r.pop? = (none, r) := by
  have hempty : r.isEmpty = true := beq_iff_eq.mpr h.length_eq
  rw [pop?, if_pos hempty]

/-- A ring gives its oldest item and keeps the others. -/
theorem Holds.pop?_cons {r : Ring α} {item : α} {items : List α} (h : r.Holds (item :: items)) :
    ∃ after, r.pop? = (some item, after) ∧ after.Holds items ∧ after.capacity = r.capacity := by
  have hlen : r.length = items.length + 1 := h.length_eq
  have hle := h.length_le
  have hempty : ¬ r.isEmpty = true := fun empty => by
    have := beq_iff_eq.mp empty
    omega
  have hhead := h.head_lt (by omega)
  have hfirst : r.slots[r.head]? = some (some item) := by
    have := h.slot_eq 0 (Nat.succ_pos _)
    rwa [Nat.add_zero, Nat.mod_eq_of_lt hhead] at this
  have hsize : (r.slots.setIfInBounds r.head none).size = r.capacity := Array.size_setIfInBounds
  have hpop : r.pop? = (some item, { r with
      slots := r.slots.setIfInBounds r.head none
      head := (r.head + 1) % r.capacity
      length := r.length - 1 }) := by
    rw [pop?, if_neg hempty, hfirst]
    rfl
  refine ⟨_, hpop, ⟨?_, ?_, ?_, ?_, ?_⟩, hsize⟩
  · show r.length - 1 = items.length
    omega
  · show r.length - 1 ≤ (r.slots.setIfInBounds r.head none).size
    omega
  · intro _
    show (r.head + 1) % r.capacity < (r.slots.setIfInBounds r.head none).size
    rw [hsize]
    exact Nat.mod_lt _ (by omega)
  · show r.tail = ((r.head + 1) % r.capacity + (r.length - 1)) % (Array.size _)
    rw [hsize, h.tail_eq, Nat.mod_add_mod]
    congr 1
    omega
  · intro i hi
    show (r.slots.setIfInBounds r.head none)[((r.head + 1) % r.capacity + i) % (Array.size _)]? = _
    have hshift : r.head + 1 + i = r.head + (i + 1) := by omega
    rw [hsize, Nat.mod_add_mod, hshift]
    have hne : r.head ≠ (r.head + (i + 1)) % r.capacity := by
      have := @slot_ne r.head r.capacity 0 (i + 1) (by omega) (by omega) (by omega)
      rwa [Nat.add_zero, Nat.mod_eq_of_lt hhead] at this
    rw [Array.getElem?_setIfInBounds_ne hne]
    exact h.slot_eq (i + 1) (Nat.succ_lt_succ hi)

end Ring

namespace Queue

variable {α : Type}

/-- The ring of the queue is in order. -/
def Sound (q : Queue α) : Prop := q.ring.Holds q.toList

/-- Another queue with the same flags and the same number of slots. -/
structure Agrees (q after : Queue α) : Prop where
  closed_eq : after.closed = q.closed
  poisoned_eq : after.poisoned = q.poisoned
  capacity_eq : after.ring.capacity = q.ring.capacity

/-- The queue takes an item in, and becomes this one. -/
structure Accepts (q : Queue α) (item : α) (after : Queue α) : Prop extends Agrees q after where
  isOpen : q.closed = false
  isClean : q.poisoned = false
  room : q.toList.length < q.ring.capacity
  toList_eq : after.toList = q.toList ++ [item]
  sound : after.Sound

/-- The queue gives an item out, and becomes this one. -/
structure Yields (q : Queue α) (item : α) (after : Queue α) : Prop extends Agrees q after where
  isClean : q.poisoned = false
  toList_eq : q.toList = item :: after.toList
  sound : after.Sound

theorem toList_ofCapacity (capacity : Nat) : (ofCapacity capacity : Queue α).toList = [] :=
  (Ring.holds_ofCapacity capacity).toList_eq

theorem sound_ofCapacity (capacity : Nat) : (ofCapacity capacity : Queue α).Sound := by
  unfold Sound
  rw [toList_ofCapacity]
  exact Ring.holds_ofCapacity capacity

theorem Sound.length_eq {q : Queue α} (sound : q.Sound) : q.ring.length = q.toList.length :=
  Ring.Holds.length_eq sound

theorem Sound.length_le {q : Queue α} (sound : q.Sound) : q.toList.length ≤ q.ring.capacity :=
  sound.length_eq ▸ Ring.Holds.length_le sound

/-- What offering an item to a queue comes to, in each of the four cases. -/
theorem offer_cases {q : Queue α} (sound : q.Sound) (item : α) :
    (∃ after, q.offer item = (.accepted, after) ∧ q.Accepts item after) ∨
    (q.offer item = (.full, q) ∧ q.closed = false ∧ q.poisoned = false ∧
      q.toList.length = q.ring.capacity) ∨
    (q.offer item = (.closed, q) ∧ q.closed = true ∧ q.poisoned = false) ∨
    (q.offer item = (.poisoned, q) ∧ q.poisoned = true) := by
  unfold offer
  by_cases hp : q.poisoned = true
  · exact .inr (.inr (.inr ⟨if_pos hp, hp⟩))
  have clean := Bool.eq_false_of_not_eq_true hp
  rw [if_neg hp]
  by_cases hc : q.closed = true
  · exact .inr (.inr (.inl ⟨if_pos hc, hc, clean⟩))
  have opened := Bool.eq_false_of_not_eq_true hc
  rw [if_neg hc]
  rcases Nat.lt_or_eq_of_le sound.length_le with room | full
  · obtain ⟨ring, hpush, holds, hcap⟩ := Ring.Holds.push?_room sound room item
    have htoList : ring.toList = q.toList ++ [item] := holds.toList_eq
    refine .inl ⟨{ q with ring }, by rw [hpush], ⟨rfl, rfl, hcap⟩, opened, clean, room, htoList, ?_⟩
    show ring.Holds ring.toList
    rw [htoList]
    exact holds
  · refine .inr (.inl ⟨?_, opened, clean, full⟩)
    rw [Ring.Holds.push?_full sound full item]

/-- What taking an item from a queue comes to, in each of the four cases. -/
theorem take_cases {q : Queue α} (sound : q.Sound) :
    (∃ item after, q.take = (.item item, after) ∧ q.Yields item after) ∨
    (q.take = (.empty, q) ∧ q.closed = false ∧ q.poisoned = false ∧ q.toList = []) ∨
    (q.take = (.closed, q) ∧ q.closed = true ∧ q.poisoned = false ∧ q.toList = []) ∨
    (q.take = (.poisoned, q) ∧ q.poisoned = true) := by
  unfold take
  by_cases hp : q.poisoned = true
  · exact .inr (.inr (.inr ⟨if_pos hp, hp⟩))
  have clean := Bool.eq_false_of_not_eq_true hp
  rw [if_neg hp]
  cases hitems : q.toList with
  | nil =>
    have holds : q.ring.Holds [] := hitems ▸ sound
    rw [holds.pop?_nil]
    by_cases hc : q.closed = true
    · exact .inr (.inr (.inl ⟨by rw [if_pos hc], hc, clean, rfl⟩))
    · exact .inr (.inl ⟨by rw [if_neg hc], Bool.eq_false_of_not_eq_true hc, clean, rfl⟩)
  | cons item items =>
    have holds : q.ring.Holds (item :: items) := hitems ▸ sound
    obtain ⟨ring, hpop, hrest, hcap⟩ := holds.pop?_cons
    have htoList : ring.toList = items := hrest.toList_eq
    refine .inl ⟨item, { q with ring }, by rw [hpop], ⟨rfl, rfl, hcap⟩, clean, ?_, ?_⟩
    · show q.toList = item :: ring.toList
      rw [hitems, htoList]
    · show ring.Holds ring.toList
      rw [htoList]
      exact hrest

end Queue

end StaticHttp
