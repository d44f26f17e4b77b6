import TransmitQueue.Alignment
import TransmitQueue.Page

/-!
# Alignments

What the mask of a usable alignment means: it is one less than a power of two, so that an
address is aligned exactly if it is a multiple of that power, and rounding up gives such a
multiple.
-/

namespace TransmitQueue

/-- The bits that a mask keeps and those that it clears add up to the whole. -/
theorem toNat_and_not_add_toNat_and (word mask : UInt64) :
    (word &&& ~~~mask).toNat + (word &&& mask).toNat = word.toNat := by
  have hdisjoint : word.toBitVec &&& ~~~mask.toBitVec &&&
      (word.toBitVec &&& mask.toBitVec) = 0#64 := by
    ext index
    simp only [BitVec.getElem_and, BitVec.getElem_not, BitVec.getElem_zero]
    cases word.toBitVec[index] <;> cases mask.toBitVec[index] <;> rfl
  have hjoin : word.toBitVec &&& ~~~mask.toBitVec |||
      word.toBitVec &&& mask.toBitVec = word.toBitVec := by
    ext index
    simp only [BitVec.getElem_and, BitVec.getElem_or, BitVec.getElem_not]
    cases word.toBitVec[index] <;> cases mask.toBitVec[index] <;> rfl
  have hsum := BitVec.toNat_add_of_and_eq_zero hdisjoint
  rw [BitVec.add_eq_or_of_and_eq_zero _ _ hdisjoint, hjoin] at hsum
  exact hsum.symm

namespace Alignment

/-- Rounding up clears the mask's bits of the padded length, which does not wrap. -/
theorem roundUp_mask_eq_some {bits : UInt64} {length size : Nat}
    (hround : (mask bits).roundUp length = some size) :
    length + bits.toNat < addressSpace ∧
      size + ((length + bits.toNat).toUInt64 &&& bits).toNat = length + bits.toNat := by
  unfold roundUp at hround
  dsimp only at hround
  split at hround
  next hfits =>
    obtain rfl := Option.some.inj hround
    refine ⟨hfits, ?_⟩
    rw [toNat_and_not_add_toNat_and]
    exact Nat.mod_eq_of_lt hfits
  next => cases hround

/-- Rounding up to an alignment never makes a size smaller. -/
theorem le_of_roundUp_eq_some {alignment : Alignment} {length size : Nat}
    (hround : alignment.roundUp length = some size) : length ≤ size := by
  cases alignment with
  | unconstrained => exact Nat.le_of_eq (Option.some.inj hround)
  | mask bits =>
      obtain ⟨_, hsize⟩ := roundUp_mask_eq_some hround
      -- The bits that are masked out are at most the padding.
      have hmasked : ((length + bits.toNat).toUInt64 &&& bits).toNat ≤ bits.toNat := by
        rw [UInt64.toNat_and]
        exact Nat.and_le_right
      omega

/-- Short of all ones, a mask is one less than its alignment. -/
theorem bytes_mask {bits : UInt64} (hvalid : (mask bits).isValid = true) :
    (mask bits).bytes = bits.toNat + 1 := by
  simp only [isValid, Bool.and_eq_true, bne_iff_ne, ne_eq] at hvalid
  have hrange : bits.toNat < 2 ^ 64 := bits.toNat_lt
  have hlast : bits.toNat ≠ 2 ^ 64 - 1 := fun heq => hvalid.1 (UInt64.toNat_inj.mp heq)
  change (bits + 1).toNat = _
  rw [UInt64.toNat_add]
  exact Nat.mod_eq_of_lt (by change bits.toNat + 1 < 2 ^ 64; omega)

/-- A usable alignment is a power of two. -/
theorem isPowerOfTwo_bytes {alignment : Alignment} (hvalid : alignment.isValid = true) :
    alignment.bytes.isPowerOfTwo := by
  cases alignment with
  | unconstrained => exact ⟨0, rfl⟩
  | mask bits =>
      have hbytes := bytes_mask hvalid
      simp only [isValid, Bool.and_eq_true, beq_iff_eq] at hvalid
      have hclear : (mask bits).bytes &&& (mask bits).bytes - 1 = 0 := by
        rw [Nat.and_comm, hbytes, Nat.add_sub_cancel, ← hbytes, bytes, ← UInt64.toNat_and,
          hvalid.2]
        rfl
      exact (Nat.and_sub_one_eq_zero_iff_isPowerOfTwo (by omega)).mp hclear

/-- An alignment in bytes is a 64-bit number. -/
theorem bytes_lt (alignment : Alignment) : alignment.bytes < addressSpace := by
  cases alignment with
  | unconstrained => decide
  | mask bits => exact UInt64.toNat_lt _

/-- The mask's bits of a word are its remainder by the alignment. -/
theorem toNat_and_mask {bits : UInt64} (hvalid : (mask bits).isValid = true) (word : UInt64) :
    (word &&& bits).toNat = word.toNat % (mask bits).bytes := by
  obtain ⟨exponent, hpower⟩ := isPowerOfTwo_bytes hvalid
  have hbits : bits.toNat = 2 ^ exponent - 1 := by
    rw [← hpower, bytes_mask hvalid, Nat.add_sub_cancel]
  rw [UInt64.toNat_and, hbits, hpower, Nat.and_two_pow_sub_one_eq_mod]

section Usable

variable {alignment : Alignment} (hvalid : alignment.isValid = true)
include hvalid

theorem bytes_dvd_addressSpace : alignment.bytes ∣ addressSpace := by
  obtain ⟨exponent, hpower⟩ := isPowerOfTwo_bytes hvalid
  have hrange : 2 ^ exponent < 2 ^ 64 := hpower ▸ alignment.bytes_lt
  rw [hpower]
  exact Nat.pow_dvd_pow 2 (Nat.le_of_lt ((Nat.pow_lt_pow_iff_right (by decide)).mp hrange))

/-- An address is aligned exactly if it is a multiple of the alignment. -/
theorem isAligned_iff_dvd {address : PhysAddr} :
    alignment.isAligned address = true ↔ alignment.bytes ∣ address.toNat := by
  cases alignment with
  | unconstrained => exact ⟨fun _ => Nat.one_dvd _, fun _ => rfl⟩
  | mask bits =>
      rw [Nat.dvd_iff_mod_eq_zero, PhysAddr.toNat, ← toNat_and_mask hvalid]
      simp only [isAligned, beq_iff_eq]
      exact UInt64.toNat_inj.symm

/-- A multiple of the alignment further on is aligned again, also past the last address. -/
theorem isAligned_offset {address : PhysAddr} (haligned : alignment.isAligned address = true)
    {distance : Nat} (hdistance : alignment.bytes ∣ distance) :
    alignment.isAligned (address.offset distance) = true := by
  rw [isAligned_iff_dvd hvalid] at haligned ⊢
  rw [PhysAddr.toNat_offset]
  exact (Nat.dvd_mod_iff (bytes_dvd_addressSpace hvalid)).mpr (Nat.dvd_add haligned hdistance)

/-- Rounding up gives a multiple of the alignment. -/
theorem dvd_of_roundUp_eq_some {length size : Nat} (hround : alignment.roundUp length = some size) :
    alignment.bytes ∣ size := by
  cases alignment with
  | unconstrained => exact Nat.one_dvd _
  | mask bits =>
      obtain ⟨hfits, hsize⟩ := roundUp_mask_eq_some hround
      rw [toNat_and_mask hvalid] at hsize
      have hpadded : (length + bits.toNat).toUInt64.toNat = length + bits.toNat :=
        Nat.mod_eq_of_lt hfits
      rw [hpadded] at hsize
      rw [Nat.eq_sub_of_add_eq hsize]
      exact Nat.dvd_sub_mod _

/-- Rounding up goes to the next multiple and not beyond it. -/
theorem lt_of_roundUp_eq_some {length size : Nat} (hround : alignment.roundUp length = some size) :
    size < length + alignment.bytes := by
  cases alignment with
  | unconstrained =>
      obtain rfl := Option.some.inj hround
      exact Nat.lt_add_one _
  | mask bits =>
      obtain ⟨_, hsize⟩ := roundUp_mask_eq_some hround
      rw [bytes_mask hvalid]
      omega

/-- No alignment up to the size of a page is finer than the start of a page. -/
theorem isAligned_of_within_eq_zero {address : PhysAddr} (hpage : alignment.bytes ≤ Page.size)
    (hstart : Page.within address = 0) : alignment.isAligned address = true := by
  obtain ⟨exponent, hpower⟩ := isPowerOfTwo_bytes hvalid
  have hbound : 2 ^ exponent ≤ 2 ^ 12 := hpower ▸ hpage
  have hexponent : exponent ≤ 12 := (Nat.pow_le_pow_iff_right (by decide)).mp hbound
  rw [isAligned_iff_dvd hvalid, hpower]
  rw [Page.within_eq_mod] at hstart
  exact Nat.dvd_trans (Nat.pow_dvd_pow 2 hexponent) (Nat.dvd_of_mod_eq_zero hstart)

end Usable

end Alignment

end TransmitQueue
