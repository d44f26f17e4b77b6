import TransmitQueue.Address
import TransmitQueue.Bytes

/-!
# Fragments

A fragment is one contiguous piece of a packet's payload: a window into a region
of memory whose bytes and base address are both known.
-/

namespace TransmitQueue

/-- A window of `length` bytes at `start` inside a region that begins at `base`. -/
structure Fragment where
  region : Bytes
  base : PhysAddr
  start : Nat
  length : Nat
  inside : start + length ≤ region.length

namespace Fragment

/-- The fragment that covers a whole region. -/
def ofRegion (region : Bytes) (base : PhysAddr) : Fragment where
  region := region
  base := base
  start := 0
  length := region.length
  inside := by omega

/-- Another window into the same region, counted from the region's first byte.
Windows that leave the region are refused. -/
def window? (fragment : Fragment) (start length : Nat) : Option Fragment :=
  if h : start + length ≤ fragment.region.length then
    some { fragment with start := start, length := length, inside := h }
  else none

variable (fragment : Fragment)

def isEmpty : Bool := fragment.length == 0

def regionLength : Nat := fragment.region.length

/-- Whether the window runs to the end of its region. -/
def consumesRegion : Bool := fragment.start + fragment.length == fragment.region.length

/-- The physical address of the first byte of the window. -/
def physStart : PhysAddr := fragment.base.offset fragment.start

/-- The bytes in the window. -/
def payload : Bytes := Bytes.slice fragment.region fragment.start fragment.length

@[simp] theorem length_payload : fragment.payload.length = fragment.length :=
  Bytes.length_slice fragment.inside

/-- A window exists exactly if it fits the region. -/
theorem isSome_window?_iff (start length : Nat) :
    (fragment.window? start length).isSome = true ↔
      start + length ≤ fragment.region.length := by
  unfold window?
  split <;> simp_all

end Fragment

end TransmitQueue
