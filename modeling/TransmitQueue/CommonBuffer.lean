import TransmitQueue.Address
import TransmitQueue.Bytes

/-!
# Common buffers

Physically contiguous memory that the processor and the device both see.
-/

namespace TransmitQueue

/-- Memory whose first byte the device sees at `address`. -/
structure CommonBuffer where
  memory : Bytes
  address : PhysAddr
  deriving DecidableEq

namespace CommonBuffer

/-- Zeroed memory of a given length. -/
def zeroed (length : Nat) (address : PhysAddr) : CommonBuffer :=
  ⟨List.replicate length 0, address⟩

variable (buffer : CommonBuffer)

def length : Nat := buffer.memory.length

def isEmpty : Bool := buffer.memory.isEmpty

/-- Writes one byte; an index outside the memory changes nothing. -/
def setByte (index : Nat) (byte : UInt8) : CommonBuffer :=
  { buffer with memory := buffer.memory.set index byte }

@[simp] theorem length_zeroed (length : Nat) (address : PhysAddr) :
    (zeroed length address).length = length := by
  simp [zeroed, CommonBuffer.length]

@[simp] theorem length_setByte (index : Nat) (byte : UInt8) :
    (buffer.setByte index byte).length = buffer.length := by
  simp [setByte, length]

end CommonBuffer

end TransmitQueue
