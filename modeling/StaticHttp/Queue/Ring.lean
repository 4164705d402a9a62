/-!
# Ring buffers

A fixed number of slots used in a circle. A counter beside the two positions tells a full ring from
an empty one, in which they are the same. `toList` is what a ring holds, oldest first.
-/

namespace StaticHttp

/-- Slots used in a circle. -/
structure Ring (α : Type) where
  /-- The slots; an empty one holds nothing. -/
  slots : Array (Option α)
  /-- The slot to take from next. -/
  head : Nat
  /-- The slot to fill next. -/
  tail : Nat
  /-- The number of filled slots. -/
  length : Nat

namespace Ring

variable {α : Type}

/-- An empty ring with a given number of slots. -/
def ofCapacity (capacity : Nat) : Ring α := ⟨Array.replicate capacity none, 0, 0, 0⟩

def capacity (r : Ring α) : Nat := r.slots.size

def isEmpty (r : Ring α) : Bool := r.length == 0

def isFull (r : Ring α) : Bool := r.length == r.capacity

/-- Adds an item behind the others; there is no answer if the ring is full. -/
def push? (r : Ring α) (item : α) : Option (Ring α) :=
  if r.isFull then none
  else some
    { slots := r.slots.setIfInBounds r.tail (some item)
      head := r.head
      tail := (r.tail + 1) % r.capacity
      length := r.length + 1 }

/-- Takes the oldest item away, if there is one. -/
def pop? (r : Ring α) : Option α × Ring α :=
  if r.isEmpty then (none, r)
  else
    ((r.slots[r.head]?).join,
      { slots := r.slots.setIfInBounds r.head none
        head := (r.head + 1) % r.capacity
        tail := r.tail
        length := r.length - 1 })

/-- What the ring holds, oldest first. -/
def toList (r : Ring α) : List α :=
  (List.range r.length).filterMap fun i => (r.slots[(r.head + i) % r.capacity]?).join

end Ring

end StaticHttp
