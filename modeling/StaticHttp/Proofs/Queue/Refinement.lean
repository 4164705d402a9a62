import StaticHttp.Proofs.Queue.Contents

/-!
# A ring is a bounded list

Asked to push and to pop, in any order and as often as one likes, a ring answers as a list does that
takes items behind and gives them in front and never holds more than the capacity (`answers_ofCapacity`).

What carries this is the layout of the slots. `Ring.Holds` says where the items lie; `Ring.Layout`
adds that nothing lies anywhere else, and that the slot to fill is a slot. Every request keeps it
(`Layout.serve`), whatever the capacity: a ring without slots is full and empty at once, so that its
positions are never used, and no remainder by its capacity is ever taken (`Layout.guards`).
-/

namespace StaticHttp

namespace Ring

variable {α : Type}

/-- What a ring can be asked for. -/
inductive Request (α : Type)
  | push (item : α)
  | pop
  deriving DecidableEq, Repr

/-- What a request comes to. -/
inductive Result (α : Type)
  | pushed
  /-- There is no room, and the item goes back to where it came from. -/
  | refused (item : α)
  | popped (item : α)
  | nothing
  deriving DecidableEq, Repr

/-- A request to a ring. -/
def serve (r : Ring α) : Request α → Result α × Ring α
  | .push item =>
    match r.push? item with
    | some after => (.pushed, after)
    | none => (.refused item, r)
  | .pop =>
    match r.pop? with
    | (some item, after) => (.popped item, after)
    | (none, after) => (.nothing, after)

/-- A request to a list that never holds more than so many items. -/
def serveList (capacity : Nat) (items : List α) : Request α → Result α × List α
  | .push item =>
    if items.length < capacity then (.pushed, items ++ [item]) else (.refused item, items)
  | .pop =>
    match items with
    | [] => (.nothing, [])
    | item :: rest => (.popped item, rest)

/-- The results of requests made one after the other, and what is there after them. -/
def answers {σ : Type} (serve : σ → Request α → Result α × σ) (s : σ) :
    List (Request α) → List (Result α) × σ
  | [] => ([], s)
  | request :: requests =>
    let (result, after) := serve s request
    let (results, last) := answers serve after requests
    (result :: results, last)

/-- Two that answer every request alike and stay related answer all requests alike. -/
theorem answers_simulation {σ τ : Type} {serve : σ → Request α → Result α × σ}
    {serve' : τ → Request α → Result α × τ} (related : σ → τ → Prop)
    (keep : ∀ {s t}, related s t → ∀ request,
      (serve s request).1 = (serve' t request).1 ∧
      related (serve s request).2 (serve' t request).2)
    {s : σ} {t : τ} (start : related s t) (requests : List (Request α)) :
    (answers serve s requests).1 = (answers serve' t requests).1 ∧
    related (answers serve s requests).2 (answers serve' t requests).2 := by
  induction requests generalizing s t with
  | nil => exact ⟨rfl, start⟩
  | cons request requests ih =>
    obtain ⟨same, after⟩ := keep start request
    obtain ⟨rest, last⟩ := ih after
    exact ⟨congrArg₂ List.cons same rest, last⟩

/-! ## The layout of the slots -/

/-- The ring holds these items in the slots from its head on, and nothing in the others. -/
structure Layout (r : Ring α) (items : List α) : Prop extends Holds r items where
  tail_lt : 0 < r.capacity → r.tail < r.capacity
  vacant : ∀ j < r.capacity, (∀ i < items.length, (r.head + i) % r.capacity ≠ j) →
    r.slots[j]? = some none

/-- What a ring says of itself is what can be said of the list. -/
structure Reports (r : Ring α) (capacity : Nat) (items : List α) : Prop where
  length_eq : r.length = items.length
  isEmpty_iff : r.isEmpty = true ↔ items = []
  isFull_iff : r.isFull = true ↔ items.length = capacity
  capacity_eq : r.capacity = capacity

/-- Where a ring uses a slot the slot is there, and filled if an item is taken from it; and where it
takes a remainder by its capacity this is not zero. -/
structure Guards (r : Ring α) : Prop where
  push : r.isFull = false → r.tail < r.slots.size ∧ r.capacity ≠ 0
  pop : r.isEmpty = false →
    r.head < r.slots.size ∧ r.capacity ≠ 0 ∧ ∃ item, r.slots[r.head]? = some (some item)

theorem Holds.tail_lt {r : Ring α} {items : List α} (h : r.Holds items)
    (positive : 0 < r.capacity) : r.tail < r.capacity :=
  h.tail_eq ▸ Nat.mod_lt _ positive

theorem layout_ofCapacity (capacity : Nat) : (ofCapacity capacity : Ring α).Layout [] where
  toHolds := holds_ofCapacity capacity
  tail_lt := fun h => h
  vacant := by
    intro j hj _
    rw [capacity_ofCapacity] at hj
    exact Array.getElem?_replicate.trans (if_pos hj)

namespace Layout

variable {r : Ring α} {items : List α}

theorem reports (h : r.Layout items) : r.Reports r.capacity items where
  length_eq := h.length_eq
  isEmpty_iff := by
    rw [isEmpty, beq_iff_eq, h.length_eq]
    exact List.length_eq_zero_iff
  isFull_iff := by rw [isFull, beq_iff_eq, h.length_eq]
  capacity_eq := rfl

theorem guards (h : r.Layout items) : r.Guards where
  push := by
    intro notFull
    have room : r.length ≠ r.capacity := beq_eq_false_iff_ne.mp notFull
    have positive : 0 < r.capacity := by
      have := h.length_le
      omega
    exact ⟨h.tail_lt positive, Nat.pos_iff_ne_zero.mp positive⟩
  pop := by
    intro notEmpty
    have some : r.length ≠ 0 := beq_eq_false_iff_ne.mp notEmpty
    have positive : 0 < r.capacity := by
      have := h.length_le
      omega
    have inside : 0 < items.length := h.length_eq ▸ Nat.pos_iff_ne_zero.mpr some
    have first := h.slot_eq 0 inside
    rw [Nat.add_zero, Nat.mod_eq_of_lt (h.head_lt positive),
      List.getElem?_eq_getElem inside] at first
    exact ⟨h.head_lt positive, Nat.pos_iff_ne_zero.mp positive, _, first⟩

/-- A pushed item fills the slot behind the others. -/
theorem push (h : r.Layout items) (room : items.length < r.capacity) (item : α) :
    ∃ after, r.push? item = some after ∧ after.Layout (items ++ [item]) ∧
      after.capacity = r.capacity := by
  obtain ⟨after, pushed, holds, hcap⟩ := h.push?_room room item
  refine ⟨after, pushed, ⟨holds, holds.tail_lt, fun j hj free => ?_⟩, hcap⟩
  have notFull : ¬ r.isFull = true := fun full => room.ne (h.reports.isFull_iff.mp full)
  rw [push?, if_neg notFull] at pushed
  cases pushed
  rw [hcap] at hj free
  simp only [List.length_append, List.length_singleton] at free
  have last : r.tail ≠ j := by
    rw [h.tail_eq, h.length_eq]
    exact free items.length (Nat.lt_succ_self _)
  exact (Array.getElem?_setIfInBounds_ne last).trans
    (h.vacant j hj fun i hi => free i (Nat.lt_succ_of_lt hi))

/-- A popped item leaves its slot empty. -/
theorem pop {item : α} (h : r.Layout (item :: items)) :
    ∃ after, r.pop? = (some item, after) ∧ after.Layout items ∧ after.capacity = r.capacity := by
  obtain ⟨after, popped, holds, hcap⟩ := h.pop?_cons
  have inside : 0 < r.capacity := by
    have := h.length_le
    have := h.length_eq
    rw [List.length_cons] at this
    omega
  refine ⟨after, popped, ⟨holds, holds.tail_lt, fun j hj free => ?_⟩, hcap⟩
  have notEmpty : ¬ r.isEmpty = true := fun none => by cases h.reports.isEmpty_iff.mp none
  rw [pop?, if_neg notEmpty] at popped
  obtain ⟨-, rfl⟩ := Prod.mk.inj popped
  rw [hcap] at hj free
  show (r.slots.setIfInBounds r.head none)[j]? = some none
  by_cases first : r.head = j
  · subst first
    exact Array.getElem?_setIfInBounds_self_of_lt hj
  · rw [Array.getElem?_setIfInBounds_ne first]
    refine h.vacant j hj fun i hi => ?_
    cases i with
    | zero =>
      rw [Nat.add_zero, Nat.mod_eq_of_lt (h.head_lt inside)]
      exact first
    | succ i =>
      have := free i (Nat.lt_of_succ_lt_succ hi)
      rwa [Nat.mod_add_mod, Nat.add_assoc, Nat.add_comm 1 i] at this

/-- A request is answered as by the list, and what is there after it is laid out as the list. -/
theorem serve (h : r.Layout items) (request : Request α) :
    (r.serve request).1 = (serveList r.capacity items request).1 ∧
    (r.serve request).2.Layout (serveList r.capacity items request).2 ∧
    (r.serve request).2.capacity = r.capacity := by
  cases request with
  | push item =>
    rcases Nat.lt_or_eq_of_le (h.length_eq ▸ h.length_le) with room | full
    · obtain ⟨after, pushed, layout, hcap⟩ := h.push room item
      simp only [Ring.serve, serveList, pushed, if_pos room]
      exact ⟨trivial, layout, hcap⟩
    · have refused := h.push?_full full item
      simp only [Ring.serve, serveList, refused, if_neg full.not_lt]
      exact ⟨trivial, h, trivial⟩
  | pop =>
    cases items with
    | nil =>
      simp only [Ring.serve, serveList, h.pop?_nil]
      exact ⟨trivial, h, trivial⟩
    | cons item items =>
      obtain ⟨after, popped, layout, hcap⟩ := h.pop
      simp only [Ring.serve, serveList, popped]
      exact ⟨trivial, layout, hcap⟩

end Layout

/-- A ring of any capacity, used in any way, answers every request as the bounded list does. After
every request its slots hold the items of the list and nothing else, it reports their number, and
its next request will use slots that are there and, to pop, one that is filled. -/
theorem answers_ofCapacity (capacity : Nat) (requests : List (Request α)) :
    let (results, items) := answers (serveList capacity) [] requests
    let (results', r) := answers serve (ofCapacity capacity) requests
    results' = results ∧ r.Layout items ∧ r.Reports capacity items ∧ r.Guards := by
  obtain ⟨same, layout, hcap⟩ := answers_simulation
    (fun (r : Ring α) items => r.Layout items ∧ r.capacity = capacity)
    (fun ⟨layout, hcap⟩ request => by
      subst hcap
      exact layout.serve request)
    ⟨layout_ofCapacity capacity, capacity_ofCapacity capacity⟩ requests
  have reports := layout.reports
  rw [hcap] at reports
  exact ⟨same, layout, reports, layout.guards⟩

/-- Three slots that have gone round once: the second of four items is in front. -/
example :
    (answers serve (ofCapacity 3) [.push 1, .push 2, .push 3, .push 4, .pop, .push 4, .pop]).1 =
      [.pushed, .pushed, .pushed, .refused 4, .popped 1, .pushed, .popped 2] := by decide

end Ring

end StaticHttp
