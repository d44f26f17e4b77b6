import TransmitQueue.Fragment

/-!
# Packets

A packet is whatever the caller can lay out as fragments. The layout may have
holes: positions that count as fragments but carry none. A packet may also be
marked ignored, and is then completed without being sent.
-/

namespace TransmitQueue

/-- A type of packets that a queue can transmit. -/
class Packet (P : Type) where
  /-- The fragment positions in payload order; `none` is a hole. -/
  layout : P → List (Option Fragment)
  /-- Whether the packet was cancelled before it was posted. -/
  ignored : P → Bool := fun _ => false

namespace Packet

/-- A bare layout is a packet that is never ignored. -/
instance : Packet (List (Option Fragment)) where
  layout := id

variable {P : Type} [Packet P] (packet : P)

/-- The number of fragment positions, holes included. -/
def fragmentCount : Nat := (layout packet).length

/-- The fragment at a position; `none` for a hole and past the end. -/
def fragment? (index : Nat) : Option Fragment := (layout packet)[index]?.join

/-- The fragments that are there, in payload order. -/
def fragments : List Fragment := (layout packet).filterMap id

/-- The number of payload bytes. -/
def totalLength : Nat :=
  (fragments packet).foldr (fun fragment rest => fragment.length + rest) 0

/-- The payload bytes, fragment after fragment. -/
def payload : Bytes := (fragments packet).flatMap Fragment.payload

@[simp] theorem length_payload : (payload packet).length = totalLength packet := by
  simp only [payload, totalLength, List.length_flatMap, Fragment.length_payload,
    List.sum_eq_foldr, List.foldr_map]

theorem length_fragments_le : (fragments packet).length ≤ fragmentCount packet :=
  List.length_filterMap_le _ _

theorem fragment?_fragmentCount : fragment? packet (fragmentCount packet) = none := by
  simp [fragment?, fragmentCount]

end Packet

end TransmitQueue
