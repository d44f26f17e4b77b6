import TransmitQueue.Bounce.Pool
import TransmitQueue.Mapping.Mapper
import TransmitQueue.Ring
import TransmitQueue.Statistics

/-!
# The transmit queue

A queue joins a packet ring, a bounce pool and a mapper to the device that sends
the packets and the adapter that maps them. This module holds its state, how it is
built, and what a caller can do and see between advances.
-/

namespace TransmitQueue

/-- What a ring slot keeps about the mapping of its packet. -/
structure SlotContext where
  /-- The list that the delegated backend builds for the slot. -/
  list : SgList
  /-- Whether the slot holds a bounce buffer. -/
  bounced : Bool := false
  /-- Whether the slot holds an adapter mapping. -/
  dmaMapped : Bool := false

/-- A transmit queue for packets `P`, a device `H` and an adapter `D`. -/
structure Queue (P H D : Type) where
  config : Config
  device : H
  adapter : D
  ring : PacketRing P
  /-- One context for each ring slot. -/
  contexts : List SlotContext
  mapper : Mapper
  pool : BouncePool
  statistics : Statistics

namespace Queue

variable {P H D : Type}

/-- Builds a queue. The mapper is chosen before the pool is allocated, and a
faulty configuration is refused before any collaborator is asked. -/
def build [Adapter D] (config : Config) (device : H) (adapter : D) :
    Traced P (Except QueueError (Queue P H D)) :=
  match config.validate with
  | .error error => pure (.error (.config error))
  | .ok () => do
      let mapper ← Mapper.build config.allowBypass config.elementLimit config.ringCapacity adapter
      let (pool, adapter) ← BouncePool.build config adapter
      match pool with
      | .error error => pure (.error (.config error))
      | .ok pool =>
          Traced.record (.notice (.ready config.ringCapacity pool.capacity pool.bufferSize))
          let list := SgList.ofLimit (mapper.slotListLimit config.elementLimit)
          pure (.ok
            { config, device, adapter, mapper, pool
              ring := .empty config.ringCapacity
              contexts := List.replicate config.ringCapacity { list }
              statistics := {} })

variable (queue : Queue P H D)

def limits : BounceLimits := .ofConfig queue.config

def capacity : Nat := queue.ring.capacity

/-- Packets posted and not yet released. -/
def outstanding : Nat := queue.ring.outstanding

/-- Packets admitted and not yet released. -/
def inFlight : Nat := queue.ring.inFlight

/-- Packets posted and not yet admitted. -/
def unposted : Nat := queue.ring.unposted

/-- Released packets that the caller has not taken back. -/
def completed : Nat := queue.ring.reclaimable

/-- Whether every posted packet is released. -/
def isIdle : Bool := queue.outstanding == 0

def backend : Backend := queue.mapper.backend

/-- Bounce buffers held by packets in flight. -/
def bounceBuffersInUse : Nat := queue.pool.inUse

/-- The state of the packet posted at a cursor, while the queue holds it. -/
def packetState? (cursor : Nat) : Option PacketState := queue.ring.state? cursor

/-- The context of a ring slot. Past the last slot nothing is held. -/
def context (position : Nat) : SlotContext :=
  (queue.contexts[position]?).getD { list := SgList.ofLimit 0 }

/-- The queue after a ring slot's context was replaced. -/
def setContext (position : Nat) (context : SlotContext) : Queue P H D :=
  { queue with contexts := queue.contexts.set position context }

/-- A slot reads back the context that it was given. -/
theorem context_setContext {position : Nat} (hposition : position < queue.contexts.length)
    (context : SlotContext) : (queue.setContext position context).context position = context := by
  simp only [Queue.context, setContext, List.getElem?_set_self hposition, Option.getD_some]

/-- A slot's context that is written as it was is the same. -/
theorem contexts_set_context (position : Nat) :
    queue.contexts.set position (queue.context position) = queue.contexts := by
  by_cases hposition : position < queue.contexts.length
  · unfold context
    rw [List.getElem?_eq_getElem hposition, Option.getD_some, List.set_getElem_self]
  · exact List.set_eq_of_length_le (Nat.le_of_not_lt hposition)

/-- The queue after its counters changed. -/
def count (update : Statistics → Statistics) : Queue P H D :=
  { queue with statistics := update queue.statistics }

/-- Posts a packet. A full ring hands it back; released packets fill the ring until
they are taken. -/
def post (packet : P) : Except P (Queue P H D) :=
  (queue.ring.post packet).map fun ring => { queue with ring }

/-- Takes back the oldest released packet, in the order of posting. -/
def pop? : Option (CompletedPacket P × Queue P H D) :=
  queue.ring.pop?.map fun (packet, ring) => (packet, { queue with ring })

/-- Takes back released packets until `limit` are taken or none is left. -/
def popUpTo (queue : Queue P H D) : Nat → List (CompletedPacket P) × Queue P H D
  | 0 => ([], queue)
  | limit + 1 =>
      match queue.pop? with
      | none => ([], queue)
      | some (packet, queue) =>
          let rest := queue.popUpTo limit
          (packet :: rest.1, rest.2)

/-- Takes back every released packet. -/
def popAll : List (CompletedPacket P) × Queue P H D := queue.popUpTo queue.completed

/-- Cancels every packet not yet admitted, and counts those newly cancelled. They
complete as skipped when they are admitted. -/
def cancel : Nat × Queue P H D :=
  let (count, ring) := queue.ring.cancelUnposted
  (count, { queue with ring })

/-- The queue after its device was changed from outside. -/
def mapDevice (change : H → H) : Queue P H D :=
  { queue with device := change queue.device }

/-- The queue after its adapter was changed from outside. -/
def mapAdapter (change : D → D) : Queue P H D :=
  { queue with adapter := change queue.adapter }

/-- Sets every counter to zero. -/
def resetStatistics : Queue P H D := { queue with statistics := {} }

end Queue

end TransmitQueue
