import TransmitQueue.Config
import TransmitQueue.Event

/-!
# The bounce pool

Equally sized buffers carved from one stretch of common memory and handed out in
circular order. The pool counts buffers taken and buffers given back; since they
are given back in the order in which they were taken, the difference says which
buffers are in use.
-/

namespace TransmitQueue

/-- A circular allocator of bounce buffers. -/
structure BouncePool where
  memory : CommonBuffer
  bufferSize : Nat
  count : Nat
  /-- Buffers taken so far. -/
  busyIndex : Nat
  /-- Buffers given back so far. -/
  freeIndex : Nat
  deriving DecidableEq

namespace BouncePool

variable (pool : BouncePool)

def capacity : Nat := pool.count

/-- Buffers taken and not yet given back. -/
def inUse : Nat := pool.busyIndex - pool.freeIndex

def isExhausted : Bool := decide (pool.count ≤ pool.inUse)

/-- The content of a buffer. -/
def buffer? (index : Nat) : Option Bytes :=
  if index < pool.count ∧ (index + 1) * pool.bufferSize ≤ pool.memory.length then
    some (Bytes.slice pool.memory.memory (index * pool.bufferSize) pool.bufferSize)
  else none

/-- The physical address of a buffer. -/
def bufferAddress (index : Nat) : PhysAddr :=
  pool.memory.address.offset (index * pool.bufferSize)

/-- The pool after a buffer's content was replaced. -/
def setBuffer (index : Nat) (content : Bytes) : BouncePool :=
  { pool with
    memory := { pool.memory with
      memory := Bytes.splice pool.memory.memory (index * pool.bufferSize) content } }

/-- Copies fragments into a buffer one after another, from `copied` on. Stops at
the first that does not fit, with those before it copied. -/
def copyInto (buffer : Bytes) (copied : Nat) : List Fragment → Except DmaError Nat × Bytes
  | [] => (.ok copied, buffer)
  | fragment :: rest =>
      if copied + fragment.length ≤ buffer.length then
        copyInto (Bytes.splice buffer copied fragment.payload) (copied + fragment.length) rest
      else (.error .scatterGatherOverflow, buffer)

/-- Copies a packet into the next buffer and describes the copy. The buffer counts
as taken only if the whole payload fits it. -/
def bounce {P : Type} [Packet P] (packet : P) : Except DmaError SgList × BouncePool :=
  if pool.isExhausted then (.error .insufficientResources, pool)
  else
    let index := pool.busyIndex % pool.count
    match pool.buffer? index with
    | none => (.error .insufficientResources, pool)
    | some buffer =>
        match copyInto buffer 0 (Packet.fragments packet) with
        -- A buffer that was not filled to the end stays free, whatever it now holds.
        | (.error error, content) => (.error error, pool.setBuffer index content)
        | (.ok copied, content) =>
            (.ok (SgList.singleton ⟨pool.bufferAddress index, copied⟩),
              { pool.setBuffer index content with busyIndex := pool.busyIndex + 1 })

/-- Gives back the buffer taken longest ago, if one is in use. -/
def release : Bool × BouncePool :=
  if pool.inUse = 0 then (false, pool)
  else (true, { pool with freeIndex := pool.freeIndex + 1 })

/-- Whether memory holds buffers that the device can use: long enough, within
reach to its last byte, and aligned at its first. -/
def checkMemory (config : Config) (total : Nat) (memory : CommonBuffer) :
    Except ConfigError Unit :=
  let last := memory.address.toNat + (total - 1)
  let unreachable := match config.maxAddress? with
    | none => false
    | some highest => decide (addressSpace ≤ last ∨ highest < last)
  if memory.length < total then .error .bounceAllocationFailed
  else if unreachable then .error .bounceBufferUnreachable
  else if config.alignment.isAligned memory.address = false then .error .bounceBufferMisaligned
  else .ok ()

/-- The pool of a configuration, in memory that the adapter allocates. -/
def build {P D : Type} [Adapter D] (config : Config) (adapter : D) :
    Traced P (Except ConfigError BouncePool × D) :=
  match config.bounceBufferSize? with
  | none => pure (.error .maximumPacketSizeTooLarge, adapter)
  | some size =>
      let total := size * config.bounceBuffers
      if addressSpace ≤ total then pure (.error .bounceAllocationFailed, adapter)
      else do
        Traced.record (.allocate total config.alignment.bytes config.maxAddress?)
        let (answer, adapter) :=
          Adapter.allocate adapter total config.alignment.bytes config.maxAddress?
        match answer with
        | .error _ => pure (.error .bounceAllocationFailed, adapter)
        | .ok memory =>
            match checkMemory config total memory with
            | .error error => pure (.error error, adapter)
            | .ok () => pure (.ok ⟨memory, size, config.bounceBuffers, 0, 0⟩, adapter)

theorem length_copyInto (buffer : Bytes) (copied : Nat) (fragments : List Fragment) :
    (copyInto buffer copied fragments).2.length = buffer.length := by
  induction fragments generalizing buffer copied with
  | nil => rfl
  | cons fragment rest ih =>
      unfold copyInto
      split
      next h => rw [ih, Bytes.length_splice (by simpa using h)]
      next => rfl

end BouncePool

end TransmitQueue
