/-!
# Memory

Queues and crews lie in memory as rows of equal slots, which are asked for once. The size of a row
is checked when it is asked for: a row longer than any object can be is refused at once, and one
that no memory holds brings the program down.
-/

namespace StaticHttp

/-- Why a row of slots cannot be had. -/
inductive MemoryFault
  | capacityOverflow
  /-- The row of so many bytes is longer than memory. -/
  | exhausted (bytes : Nat)
  deriving DecidableEq, Repr

namespace MemoryFault

def message : MemoryFault → String
  | capacityOverflow => "capacity overflow"
  | exhausted bytes => "memory allocation of " ++ toString bytes ++ " bytes failed"

/-- The exit code of the program that meets the fault, unless it is brought down without one. -/
def exitCode? : MemoryFault → Option Nat
  | capacityOverflow => some 101
  | exhausted _ => none

end MemoryFault

namespace Memory

/-- The length of the longest object, in bytes: sizes and distances are signed words. -/
def longestObject : Nat := UInt64.size / 2 - 1

/-- The memory of a machine, in bytes. -/
def size : Nat := 64 * 1024 * 1024 * 1024

/-- Asks for a row of so many slots of so many bytes. -/
def reserve (slots slotSize : Nat) : Except MemoryFault Unit :=
  if longestObject < slots * slotSize then .error .capacityOverflow
  else if size < slots * slotSize then .error (.exhausted (slots * slotSize))
  else .ok ()

/-- The size of a slot for a connection, which is known by the number of its descriptor. -/
def connectionSlot : Nat := 4

/-- The size of a slot for an item of one word, with the mark that tells it from no item. -/
def wordSlot : Nat := 16

/-- The size of what an owner keeps of a worker: its number and three references to its thread. -/
def workerSlot : Nat := 32

end Memory

end StaticHttp
