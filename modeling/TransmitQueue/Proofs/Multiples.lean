import Mathlib.Algebra.Group.Nat.Defs
import Mathlib.Order.Bounds.Basic
import TransmitQueue.Config
import TransmitQueue.Proofs.Alignment

/-!
# Multiples of an alignment

The bit patterns of an alignment are arithmetic. A mask passes validation exactly if it is one
less than a power of two; an address without the mask's bits is a multiple of that power; and
clearing the mask's bits of a padded length gives the next multiple. Padding leaves the 64-bit
range only where the next multiple does.
-/

namespace TransmitQueue

/-- Of the multiples of a unit that are no less than a length, the length padded and cut back is
the least. -/
theorem isLeast_multiple {unit : Nat} (hunit : 0 < unit) (length : Nat) :
    IsLeast {size | unit ∣ size ∧ length ≤ size} ((length + (unit - 1)) / unit * unit) := by
  have hsplit := Nat.div_add_mod' (length + (unit - 1)) unit
  have hrest := Nat.mod_lt (length + (unit - 1)) hunit
  refine ⟨⟨Nat.dvd_mul_left _ _, by omega⟩, fun size hsize => ?_⟩
  obtain ⟨hmultiple, hle⟩ := hsize
  exact Nat.le_of_lt_add_of_dvd (by omega) (Nat.dvd_mul_left _ _) hmultiple

namespace Alignment

/-- The masks that are used are one less than a power of two, short of all 64 bits. -/
theorem isValid_mask_iff {bits : UInt64} :
    (mask bits).isValid = true ↔ ∃ exponent ≤ 63, bits.toNat = 2 ^ exponent - 1 := by
  constructor
  · intro hvalid
    obtain ⟨exponent, hpower⟩ := isPowerOfTwo_bytes hvalid
    have hrange : 2 ^ exponent < 2 ^ 64 := hpower ▸ (mask bits).bytes_lt
    have hexponent : exponent < 64 := (Nat.pow_lt_pow_iff_right (by decide)).mp hrange
    refine ⟨exponent, Nat.le_of_lt_succ hexponent, ?_⟩
    rw [← hpower, bytes_mask hvalid, Nat.add_sub_cancel]
  · rintro ⟨exponent, hexponent, hbits⟩
    have hpos := Nat.two_pow_pos exponent
    have hrange : 2 ^ exponent ≤ 2 ^ 63 := Nat.pow_le_pow_right (by decide) hexponent
    have hnext : (bits + 1).toNat = 2 ^ exponent := by
      change (bits.toNat + 1) % 2 ^ 64 = _
      rw [hbits, Nat.sub_add_cancel hpos, Nat.mod_eq_of_lt (by omega)]
    have hclear : (bits &&& (bits + 1)).toNat = 0 := by
      rw [UInt64.toNat_and, hnext, hbits, Nat.and_comm]
      exact (Nat.and_sub_one_eq_zero_iff_isPowerOfTwo (Nat.ne_of_gt hpos)).mpr ⟨exponent, rfl⟩
    have hshort : bits ≠ 0xFFFFFFFFFFFFFFFF := by
      rintro rfl
      change 2 ^ 64 - 1 = _ at hbits
      omega
    simp only [isValid, Bool.and_eq_true, bne_iff_ne, beq_iff_eq]
    exact ⟨hshort, UInt64.toNat_inj.mp hclear⟩

section Usable

variable {bits : UInt64} (hvalid : (mask bits).isValid = true)
include hvalid

/-- A length whose padding does not fit has no multiple behind it in the 64-bit range. -/
theorem addressSpace_le_of_roundUp_eq_none {length size : Nat}
    (hround : (mask bits).roundUp length = none) (hmultiple : (mask bits).bytes ∣ size)
    (hle : length ≤ size) : addressSpace ≤ size := by
  have hpadded : addressSpace ≤ length + bits.toNat := by
    unfold roundUp at hround
    dsimp only at hround
    split at hround
    next => cases hround
    next hwide => exact Nat.le_of_not_lt hwide
  have hbytes := bytes_mask hvalid
  exact Nat.le_of_lt_add_of_dvd (by omega) (bytes_dvd_addressSpace hvalid) hmultiple

/-- Rounding up gives the least multiple of the alignment, if that is a 64-bit number. -/
theorem roundUp_eq_of_isLeast {length least : Nat}
    (hleast : IsLeast {size | (mask bits).bytes ∣ size ∧ length ≤ size} least) :
    (mask bits).roundUp length = if least < addressSpace then some least else none := by
  obtain ⟨⟨hmultiple, hle⟩, hlower⟩ := hleast
  cases hround : (mask bits).roundUp length with
  | none =>
      have hwide := addressSpace_le_of_roundUp_eq_none hvalid hround hmultiple hle
      exact (if_neg (Nat.not_lt.mpr hwide)).symm
  | some size =>
      obtain ⟨hfits, hsize⟩ := roundUp_mask_eq_some hround
      have hdvd := dvd_of_roundUp_eq_some hvalid hround
      have hsame : least = size := by
        refine Nat.le_antisymm (hlower ⟨hdvd, le_of_roundUp_eq_some hround⟩) ?_
        have hlt := lt_of_roundUp_eq_some hvalid hround
        exact Nat.le_of_lt_add_of_dvd (by omega) hdvd hmultiple
      rw [hsame, if_pos (by omega)]

end Usable

end Alignment

/-- Of a configuration with a packet limit, the alignment is the first thing to be looked at. -/
theorem Config.validate_eq_invalidAlignment_iff {config : Config}
    (hsize : config.maximumPacketSize ≠ 0) :
    config.validate = .error .invalidAlignment ↔ config.alignment.isValid = false := by
  unfold validate
  rw [if_neg hsize]
  split
  next hvalid => simp [hvalid]
  next hvalid =>
    refine ⟨fun herror => ?_, fun hinvalid => absurd hinvalid hvalid⟩
    repeat' split at herror
    all_goals cases herror

namespace Alignment

/-- What a mask does is arithmetic. With a packet limit, validation lets a mask pass as an
alignment exactly if it is one less than a power of two up to `2 ^ 63`. Rounding up by such a mask
gives the least multiple of the power that is no less than the length, if it is below `2 ^ 64`,
and nothing otherwise. An address is aligned exactly if the power divides it. -/
theorem mask_counts_multiples {config : Config} (hsize : config.maximumPacketSize ≠ 0)
    (bits : UInt64) :
    ({ config with alignment := mask bits }.validate ≠ .error .invalidAlignment ↔
        ∃ exponent ≤ 63, bits.toNat = 2 ^ exponent - 1) ∧
      ∀ exponent ≤ 63, bits.toNat = 2 ^ exponent - 1 →
        (∀ length, ∃ least, IsLeast {size | 2 ^ exponent ∣ size ∧ length ≤ size} least ∧
          (mask bits).roundUp length = if least < 2 ^ 64 then some least else none) ∧
        ∀ address : PhysAddr,
          (mask bits).isAligned address = true ↔ 2 ^ exponent ∣ address.toNat := by
  refine ⟨?_, fun exponent hexponent hbits => ?_⟩
  · have hfirst : { config with alignment := mask bits }.validate = .error .invalidAlignment ↔ _ :=
      Config.validate_eq_invalidAlignment_iff hsize
    rw [Ne, hfirst, Bool.not_eq_false, isValid_mask_iff]
  · have hvalid : (mask bits).isValid = true := isValid_mask_iff.mpr ⟨exponent, hexponent, hbits⟩
    have hpower : (mask bits).bytes = 2 ^ exponent := by
      rw [bytes_mask hvalid, hbits, Nat.sub_add_cancel (Nat.two_pow_pos exponent)]
    rw [← hpower]
    refine ⟨fun length => ?_, fun address => isAligned_iff_dvd hvalid⟩
    have hleast := isLeast_multiple (hpower ▸ Nat.two_pow_pos exponent) length
    exact ⟨_, hleast, roundUp_eq_of_isLeast hvalid hleast⟩

/-- By the mask of a page, sizes go up to whole pages, unless the last page is not whole in the
64-bit range. -/
theorem page_mask_counts_multiples :
    (Config.ofMaximumPacketSize 1514).maximumPacketSize ≠ 0 ∧
      { Config.ofMaximumPacketSize 1514 with alignment := mask 4095 }.validate ≠
        .error .invalidAlignment ∧
      (mask 4095).roundUp 4097 = some 8192 ∧
      (mask 4095).roundUp 0xFFFFFFFFFFFFF001 = none ∧
      (mask 4095).isAligned ⟨0x3000⟩ = true := by
  have hsize : (Config.ofMaximumPacketSize 1514).maximumPacketSize ≠ 0 := by decide
  obtain ⟨hvalid, hmeaning⟩ := mask_counts_multiples hsize 4095
  obtain ⟨hround, haligned⟩ := hmeaning 12 (by decide) rfl
  obtain ⟨size, hnext, hrounded⟩ := hround 4097
  obtain ⟨last, hlast, hrefused⟩ := hround 0xFFFFFFFFFFFFF001
  rw [hnext.unique (isLeast_multiple (by decide) _)] at hrounded
  rw [hlast.unique (isLeast_multiple (by decide) _)] at hrefused
  exact ⟨hsize, hvalid.mpr ⟨12, by decide, rfl⟩, hrounded, hrefused,
    (haligned _).mpr (by decide)⟩

end Alignment

end TransmitQueue
