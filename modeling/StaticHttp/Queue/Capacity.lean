import StaticHttp.Memory

/-!
# The capacity of a queue

A queue has at least one slot, and all its slots are in memory before anything is put in.
-/

namespace StaticHttp

/-- Why no queue has a capacity. -/
inductive CapacityFault
  | noSlots
  | memory (cause : MemoryFault)
  deriving DecidableEq, Repr

def CapacityFault.message : CapacityFault → String
  | .noSlots => "queue capacity must be > 0"
  | .memory cause => cause.message

/-- Checks a capacity for items with slots of so many bytes. -/
def checkCapacity (capacity slotSize : Nat) : Except CapacityFault Unit :=
  if capacity = 0 then .error .noSlots
  else (Memory.reserve capacity slotSize).mapError .memory

end StaticHttp
