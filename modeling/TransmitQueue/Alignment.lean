import TransmitQueue.Address

/-!
# Alignment

What a device asks of the first address of a buffer, given as a mask: an address
is aligned when it has none of the mask's bits. A usable mask is one less than a
power of two.
-/

namespace TransmitQueue

/-- A restriction on buffer starts. -/
inductive Alignment where
  | unconstrained
  | mask (bits : UInt64)
  deriving DecidableEq

namespace Alignment

instance : Inhabited Alignment := ⟨unconstrained⟩

/-- The alignment in bytes. A mask of all ones has no 64-bit answer and gives zero. -/
def bytes : Alignment → Nat
  | unconstrained => 1
  | mask bits => (bits + 1).toNat

/-- Whether an address has none of the mask's bits. -/
def isAligned (alignment : Alignment) (address : PhysAddr) : Bool :=
  match alignment with
  | unconstrained => true
  | mask bits => address.val &&& bits == 0

/-- The next aligned size, unless padding leaves the 64-bit range. -/
def roundUp (alignment : Alignment) (length : Nat) : Option Nat :=
  match alignment with
  | unconstrained => some length
  | mask bits =>
      let padded := length + bits.toNat
      if padded < addressSpace then some (padded.toUInt64 &&& ~~~bits).toNat else none

/-- Whether the mask is a run of ones from the lowest bit on, short of all 64. -/
def isValid : Alignment → Bool
  | unconstrained => true
  | mask bits => bits != 0xFFFFFFFFFFFFFFFF && bits &&& (bits + 1) == 0

def text : Alignment → String
  | unconstrained => "Unconstrained"
  | mask bits => "Mask(" ++ toString bits.toNat ++ ")"

@[simp] theorem isAligned_unconstrained (address : PhysAddr) :
    unconstrained.isAligned address = true := rfl

@[simp] theorem roundUp_unconstrained (length : Nat) :
    unconstrained.roundUp length = some length := rfl

end Alignment

end TransmitQueue
