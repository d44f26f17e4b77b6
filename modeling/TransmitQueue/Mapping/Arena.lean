import TransmitQueue.Bytes

/-!
# The context arena

One stretch of memory cut into equal blocks, a context block for each ring slot.
A write through one slot is seen through that slot and no other.
-/

namespace TransmitQueue

/-- Memory for `slots` blocks of `stride` bytes each. -/
structure ContextArena (slots stride : Nat) where
  memory : Bytes
  size_eq : memory.length = slots * stride

namespace ContextArena

variable {slots stride : Nat}

/-- The arena with all blocks zero. -/
def zeroed (slots stride : Nat) : ContextArena slots stride :=
  ⟨List.replicate (slots * stride) 0, List.length_replicate⟩

/-- Where a slot's block starts and ends. -/
def range? (slots stride slot : Nat) : Option (Nat × Nat) :=
  if slot < slots then some (slot * stride, slot * stride + stride) else none

theorem block_end_le {slot : Nat} (h : slot < slots) :
    slot * stride + stride ≤ slots * stride := by
  rw [← Nat.succ_mul]
  exact Nat.mul_le_mul_right stride h

variable (arena : ContextArena slots stride)

/-- A slot's block. -/
def block? (slot : Nat) : Option (Vector UInt8 stride) :=
  if h : slot < slots then
    some ⟨(Bytes.slice arena.memory (slot * stride) stride).toArray, by
      rw [List.size_toArray, Bytes.length_slice]
      rw [arena.size_eq]
      exact block_end_le h⟩
  else none

/-- The arena after a slot's block was replaced; a slot outside it changes nothing. -/
def setBlock (slot : Nat) (block : Vector UInt8 stride) : ContextArena slots stride :=
  if h : slot < slots then
    ⟨Bytes.splice arena.memory (slot * stride) block.toList, by
      rw [Bytes.length_splice, arena.size_eq]
      rw [Vector.length_toList, arena.size_eq]
      exact block_end_le h⟩
  else arena

/-- The arena after every byte of a slot's block was set; a slot outside it changes
nothing. The block is built only for a slot that has one. -/
def fillBlock (slot : Nat) (byte : UInt8) : ContextArena slots stride :=
  if slot < slots then arena.setBlock slot (.replicate stride byte) else arena

theorem isSome_block?_iff (slot : Nat) : (arena.block? slot).isSome = true ↔ slot < slots := by
  unfold block?
  split <;> simp_all

/-- Different slots have disjoint blocks. -/
theorem block_disjoint {slot other : Nat} (h : slot ≠ other) :
    slot * stride + stride ≤ other * stride ∨ other * stride + stride ≤ slot * stride := by
  rcases Nat.lt_or_gt_of_ne h with hbelow | habove
  · exact Or.inl (block_end_le hbelow)
  · exact Or.inr (block_end_le habove)

/-- A slot's block reads back what was written through the slot. -/
theorem block?_setBlock_self {slot : Nat} (block : Vector UInt8 stride) (h : slot < slots) :
    (arena.setBlock slot block).block? slot = some block := by
  have hlength : block.toList.length = stride := Vector.length_toList
  have hend : slot * stride + block.toList.length ≤ arena.memory.length := by
    rw [hlength, arena.size_eq]
    exact block_end_le h
  have hread := Bytes.slice_splice_self hend
  rw [hlength] at hread
  rw [block?, dif_pos h]
  apply congrArg some
  apply Vector.toList_inj.mp
  simp only [setBlock, dif_pos h, Vector.toList_mk]
  exact hread

/-- A slot's block is not changed through another slot. -/
theorem block?_setBlock_of_ne {slot other : Nat} (block : Vector UInt8 stride)
    (h : other ≠ slot) : (arena.setBlock slot block).block? other = arena.block? other := by
  by_cases hslot : slot < slots
  · by_cases hother : other < slots
    · have hlength : block.toList.length = stride := Vector.length_toList
      have hend : slot * stride + block.toList.length ≤ arena.memory.length := by
        rw [hlength, arena.size_eq]
        exact block_end_le hslot
      have hapart : other * stride + stride ≤ slot * stride ∨
          slot * stride + block.toList.length ≤ other * stride := by
        rw [hlength]
        exact block_disjoint h
      have hread := Bytes.slice_splice_disjoint hend hapart
      rw [block?, block?, dif_pos hother, dif_pos hother]
      apply congrArg some
      apply Vector.toList_inj.mp
      simp only [setBlock, dif_pos hslot, Vector.toList_mk]
      exact hread
    · rw [block?, block?, dif_neg hother, dif_neg hother]
  · rw [setBlock, dif_neg hslot]

end ContextArena

end TransmitQueue
