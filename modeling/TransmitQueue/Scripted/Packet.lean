import TransmitQueue.Packet

/-!
# Scripted packets

Packets made of fragments at chosen addresses. The bytes of a region follow from
its address, so that a copy can be told from any other.
-/

namespace TransmitQueue

/-- A packet with a number, a layout and a mark. -/
structure ScriptedPacket where
  id : Nat
  ignored : Bool := false
  layout : List (Option Fragment)

namespace ScriptedPacket

instance : Packet ScriptedPacket where
  layout := layout
  ignored := ignored

/-- The byte at an index of a region. -/
def patternByte (base : PhysAddr) (index : Nat) : UInt8 :=
  ((base.toNat / 16 + index) * 31).toUInt8

/-- A region of patterned bytes. -/
def region (base : PhysAddr) (length : Nat) : Bytes :=
  (List.range length).map (patternByte base)

/-- A window into a region of patterned bytes, if it fits the region. A region that
the window does not fit is never laid out. -/
def fragment? (base : PhysAddr) (regionLength start length : Nat) : Option Fragment :=
  if start + length ≤ regionLength then
    (Fragment.ofRegion (region base regionLength) base).window? start length
  else none

theorem length_region (base : PhysAddr) (length : Nat) : (region base length).length = length := by
  simp [region]

/-- A window has a fragment exactly if it fits the region. -/
theorem isSome_fragment?_iff (base : PhysAddr) (regionLength start length : Nat) :
    (fragment? base regionLength start length).isSome = true ↔ start + length ≤ regionLength := by
  unfold fragment?
  split
  next h =>
    rw [Fragment.isSome_window?_iff, Fragment.ofRegion, length_region]
  next h => simp [h]

end ScriptedPacket

end TransmitQueue
