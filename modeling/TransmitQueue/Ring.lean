import TransmitQueue.Lifecycle

/-!
# The packet ring

A circular array of packet slots under four cursors, all counted in packets since
the ring was made:

    taken ≤ released ≤ admitted ≤ posted ≤ taken + capacity

Packets from `taken` to `released` wait for the caller to take them back, those up
to `admitted` are on the device or failed before reaching it, and those up to
`posted` wait for admission. A cursor finds its slot by its remainder modulo the
capacity.
-/

namespace TransmitQueue

/-- One slot of the ring. -/
structure RingSlot (P : Type) where
  packet : Option P
  state : PacketState
  /-- Whether the packet was cancelled while it waited. -/
  cancelled : Bool
  deriving DecidableEq

namespace RingSlot

variable {P : Type}

/-- The slot that holds no packet. -/
def vacant : RingSlot P := ⟨none, .unposted, false⟩

/-- The slot of a packet just posted. -/
def fresh (packet : P) : RingSlot P := ⟨some packet, .unposted, false⟩

end RingSlot

/-- A queue of packets in a fixed number of slots. -/
structure PacketRing (P : Type) where
  slots : List (RingSlot P)
  taken : Nat
  released : Nat
  admitted : Nat
  posted : Nat
  deriving DecidableEq

namespace PacketRing

variable {P : Type}

/-- The ring without packets. -/
def empty (capacity : Nat) : PacketRing P := ⟨List.replicate capacity .vacant, 0, 0, 0, 0⟩

variable (ring : PacketRing P)

def capacity : Nat := ring.slots.length

/-- The slot number of a cursor. -/
def position (cursor : Nat) : Nat := cursor % ring.capacity

def isFull : Bool := decide (ring.capacity ≤ ring.posted - ring.taken)

/-- Packets posted and not yet released. -/
def outstanding : Nat := ring.posted - ring.released

/-- Packets admitted and not yet released. -/
def inFlight : Nat := ring.admitted - ring.released

/-- Packets posted and not yet admitted. -/
def unposted : Nat := ring.posted - ring.admitted

/-- Packets released and not yet taken back. -/
def reclaimable : Nat := ring.released - ring.taken

/-- Whether a cursor belongs to a packet that the ring still holds. -/
def isLive (cursor : Nat) : Bool := decide (ring.taken ≤ cursor ∧ cursor < ring.posted)

/-- The cursors of the packets that the ring holds, oldest first. -/
def liveCursors : List Nat := List.range' ring.taken (ring.posted - ring.taken)

/-- The cursor of the oldest packet not yet admitted. -/
def nextUnposted? : Option Nat :=
  if ring.admitted < ring.posted then some ring.admitted else none

/-- The cursor of the oldest packet admitted and not yet released. -/
def oldestInFlight? : Option Nat :=
  if ring.released < ring.admitted then some ring.released else none

/-- The slot of a cursor. -/
def slot (cursor : Nat) : RingSlot P := (ring.slots[ring.position cursor]?).getD .vacant

/-- The ring after the slot of a cursor was replaced. -/
def setSlot (cursor : Nat) (slot : RingSlot P) : PacketRing P :=
  { ring with slots := ring.slots.set (ring.position cursor) slot }

/-- The ring after the packet of a cursor changed its state. -/
def setState (cursor : Nat) (state : PacketState) : PacketRing P :=
  ring.setSlot cursor { ring.slot cursor with state := state }

/-- The state of a packet that the ring holds. -/
def state? (cursor : Nat) : Option PacketState :=
  if ring.isLive cursor then some (ring.slot cursor).state else none

/-- Appends a packet, or hands it back where every slot is taken. -/
def post (packet : P) : Except P (PacketRing P) :=
  if ring.isFull then .error packet
  else .ok { ring.setSlot ring.posted (.fresh packet) with posted := ring.posted + 1 }

/-- Moves the oldest unposted packet in flight, in its new state. -/
def admitNext (state : PacketState) : PacketRing P :=
  { ring.setState ring.admitted state with admitted := ring.admitted + 1 }

/-- Releases the oldest packet in flight. -/
def release (completion : Completion) : PacketRing P :=
  { ring.setState ring.released (.released completion) with released := ring.released + 1 }

/-- Marks `count` packets from a cursor on as cancelled, and counts those that
were not marked before. -/
def cancelFrom (ring : PacketRing P) (cursor : Nat) : Nat → Nat × PacketRing P
  | 0 => (0, ring)
  | count + 1 =>
      let slot := ring.slot cursor
      let rest := (ring.setSlot cursor { slot with cancelled := true }).cancelFrom
        (cursor + 1) count
      (rest.1 + (if slot.cancelled then 0 else 1), rest.2)

/-- Marks every unposted packet as cancelled, and counts the newly marked ones. -/
def cancelUnposted : Nat × PacketRing P := ring.cancelFrom ring.admitted ring.unposted

/-- Takes the packet of a cursor out of its slot and leaves the rest of the slot. -/
def removePacket (cursor : Nat) : Option P × PacketRing P :=
  ((ring.slot cursor).packet, ring.setSlot cursor { ring.slot cursor with packet := none })

/-- Takes back the oldest released packet. A slot that is not released, or whose
packet is gone, stays where it is. -/
def pop? : Option (CompletedPacket P × PacketRing P) :=
  if ring.taken = ring.released then none
  else
    match (ring.slot ring.taken).state, (ring.slot ring.taken).packet with
    | .released completion, some packet =>
        some (⟨packet, completion⟩,
          { ring.setSlot ring.taken .vacant with taken := ring.taken + 1 })
    | _, _ => none

@[simp] theorem capacity_empty (capacity : Nat) :
    (empty capacity : PacketRing P).capacity = capacity := by
  simp [empty, PacketRing.capacity]

@[simp] theorem capacity_setSlot (cursor : Nat) (slot : RingSlot P) :
    (ring.setSlot cursor slot).capacity = ring.capacity := by
  simp [setSlot, capacity]

theorem slot_setSlot_self {cursor : Nat} (slot : RingSlot P) (h : 0 < ring.capacity) :
    (ring.setSlot cursor slot).slot cursor = slot := by
  have hposition : ring.position cursor < ring.slots.length := Nat.mod_lt cursor h
  have hsame : (ring.setSlot cursor slot).position cursor = ring.position cursor := by
    rw [position, capacity_setSlot, position]
  rw [PacketRing.slot, hsame, setSlot, List.getElem?_set_self hposition]
  rfl

/-- Cursors of different slots do not see each other's writes. -/
theorem slot_setSlot_of_ne {cursor other : Nat} (slot : RingSlot P)
    (h : ring.position other ≠ ring.position cursor) :
    (ring.setSlot cursor slot).slot other = ring.slot other := by
  have hsame : (ring.setSlot cursor slot).position other = ring.position other := by
    rw [position, capacity_setSlot, position]
  rw [PacketRing.slot, hsame, setSlot, List.getElem?_set_ne (Ne.symm h), PacketRing.slot]

@[simp] theorem capacity_setState (cursor : Nat) (state : PacketState) :
    (ring.setState cursor state).capacity = ring.capacity :=
  ring.capacity_setSlot cursor _

theorem nextUnposted?_eq_none_iff : ring.nextUnposted? = none ↔ ring.unposted = 0 := by
  unfold nextUnposted? unposted
  split <;> simp <;> omega

theorem oldestInFlight?_eq_none_iff : ring.oldestInFlight? = none ↔ ring.inFlight = 0 := by
  unfold oldestInFlight? inFlight
  split <;> simp <;> omega

end PacketRing

end TransmitQueue
