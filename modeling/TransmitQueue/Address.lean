/-!
# Physical addresses

An address as the device sees it: 64 bits, with steps that wrap at the end of
the address space. Bounds are always taken on `PhysAddr.toNat`, where sums are exact.
-/

namespace TransmitQueue

/-- The number of byte addresses, one above the highest 64-bit value. -/
def addressSpace : Nat := 0x10000000000000000

/-- A physical (bus) address. -/
structure PhysAddr where
  val : UInt64
  deriving DecidableEq

namespace PhysAddr

instance : Inhabited PhysAddr := ⟨⟨0⟩⟩

def toNat (address : PhysAddr) : Nat := address.val.toNat

def ofNat (value : Nat) : PhysAddr := ⟨value.toUInt64⟩

/-- The address `bytes` further on, wrapping at the end of the address space. -/
def offset (address : PhysAddr) (bytes : Nat) : PhysAddr :=
  ⟨address.val + bytes.toUInt64⟩

/-- The order of two addresses is that of their values. -/
def compare (left right : PhysAddr) : Ordering :=
  Ord.compare left.toNat right.toNat

/-- Lowercase hexadecimal behind `0x`, without leading zeros. -/
def text (address : PhysAddr) : String :=
  "0x" ++ String.ofList (Nat.toDigits 16 address.toNat)

theorem toNat_lt (address : PhysAddr) : address.toNat < addressSpace :=
  address.val.toNat_lt

theorem toNat_inj {left right : PhysAddr} (h : left.toNat = right.toNat) : left = right := by
  cases left; cases right
  exact congrArg PhysAddr.mk (UInt64.toNat_inj.mp h)

theorem toNat_ofNat (value : Nat) : (ofNat value).toNat = value % addressSpace := by
  simp [ofNat, toNat, addressSpace]

theorem toNat_offset (address : PhysAddr) (bytes : Nat) :
    (address.offset bytes).toNat = (address.toNat + bytes) % addressSpace := by
  simp [offset, toNat, addressSpace]

@[simp] theorem offset_zero (address : PhysAddr) : address.offset 0 = address := by
  simp [offset]

theorem offset_offset (address : PhysAddr) (first second : Nat) :
    (address.offset first).offset second = address.offset (first + second) := by
  apply toNat_inj
  simp only [toNat_offset, Nat.mod_add_mod, Nat.add_assoc]

end PhysAddr

end TransmitQueue
