import TransmitQueue.CommonBuffer
import TransmitQueue.ScatterGather

/-!
# DMA adapters

The platform's side of a mapping: it hands out memory that the device reaches and,
where physical addresses cannot be used directly, builds the lists that the device
reads. Each call answers and yields the adapter as it is afterwards.
-/

namespace TransmitQueue

/-- What an adapter leaves behind when it was asked to map a packet: its answer, and
the context block and the list as it filled them, whatever the answer. -/
structure TransferReply (D : Type) (size : Nat) where
  answer : Except DmaError Unit
  adapter : D
  context : Vector UInt8 size
  list : SgList

/-- The adapters of type `D`. -/
class Adapter (D : Type) where
  /-- Whether the device may be given physical addresses directly. -/
  bypassCapable : D → Bool
  /-- Bytes of context that one mapping needs. -/
  contextSize : D → Nat
  /-- Allocates memory of a given length, alignment and highest address. -/
  allocate : D → (length alignment : Nat) → (limit : Option Nat) →
    Except DmaError CommonBuffer × D
  /-- Builds the list of a packet. The context block belongs to the ring slot and
  comes back unchanged when the mapping is returned. -/
  mapTransfer : {P : Type} → [Packet P] → {size : Nat} → D → (slot : Nat) → P →
    Vector UInt8 size → SgList → TransferReply D size
  /-- Takes back the mapping of a ring slot. -/
  unmapTransfer : {size : Nat} → D → (slot : Nat) → Vector UInt8 size → SgList →
    D × Vector UInt8 size

end TransmitQueue
