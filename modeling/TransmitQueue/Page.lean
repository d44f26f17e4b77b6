import TransmitQueue.Address

/-!
# Pages

A descriptor never crosses a page boundary, so a span of memory costs one
descriptor for every page it touches. `Page.spanned` counts them in closed form.
-/

namespace TransmitQueue.Page

/-- Bytes in a page. -/
def size : Nat := 4096

/-- The address bits that say where in its page an address lies. -/
def offsetMask : UInt64 := 4095

/-- Where in its page an address lies. -/
def within (address : PhysAddr) : Nat := (address.val &&& offsetMask).toNat

/-- Bytes from an address to the end of its page. -/
def remaining (address : PhysAddr) : Nat := size - within address

/-- The number of pages that a span touches. An empty span touches none. -/
def spanned (start : PhysAddr) (length : Nat) : Nat :=
  if length = 0 then 0 else (within start + length + (size - 1)) / size

theorem within_eq_mod (address : PhysAddr) : within address = address.toNat % size := by
  have hmask : offsetMask.toNat = 2 ^ 12 - 1 := by decide
  rw [within, UInt64.toNat_and, hmask, Nat.and_two_pow_sub_one_eq_mod]
  rfl

theorem within_lt (address : PhysAddr) : within address < size := by
  rw [within_eq_mod]
  exact Nat.mod_lt _ (by decide)

theorem remaining_pos (address : PhysAddr) : 0 < remaining address :=
  Nat.sub_pos_of_lt (within_lt address)

@[simp] theorem spanned_zero (start : PhysAddr) : spanned start 0 = 0 := rfl

end TransmitQueue.Page
