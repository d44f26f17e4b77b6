import Mathlib.Algebra.Group.Nat.Defs
import Mathlib.Data.List.Induction
import TransmitQueue.Mapping.Arena

/-!
# Independent blocks

All blocks of an arena lie in one memory, yet each slot reads as if it had a memory of its own.
A slot reads, byte by byte, what was last written through it, zeros where nothing was, and no
write through another slot is ever seen. The offsets come to the same in 64-bit words as long as
the whole memory is smaller than `2 ^ 64`.
-/

namespace TransmitQueue

namespace Bytes

/-- The bytes inside a written window are those written. -/
theorem getElem?_splice_inside {memory content : Bytes} {start index : Nat}
    (h : start + content.length ≤ memory.length) (hlow : start ≤ index)
    (hhigh : index < start + content.length) :
    (splice memory start content)[index]? = content[index - start]? := by
  have hstart : (memory.take start).length = start := by
    rw [List.length_take]
    omega
  rw [splice, List.append_assoc, List.getElem?_append_right (by omega), hstart,
    List.getElem?_append_left (by omega)]

end Bytes

namespace ContextArena

/-- What someone who holds a slot's block does to it: bytes stored from a place in the block on,
not beyond its end. The slot may be one that the arena does not have. -/
structure Write (stride : Nat) where
  slot : Nat
  offset : Nat
  bytes : Bytes
  within : offset + bytes.length ≤ stride

variable {slots stride : Nat}

namespace Write

/-- A block replaced as a whole. -/
def whole (slot : Nat) (block : Vector UInt8 stride) : Write stride where
  slot := slot
  offset := 0
  bytes := block.toList
  within := by simp

variable (write : Write stride)

/-- A block after the bytes were stored into it. -/
def onto (block : Vector UInt8 stride) : Vector UInt8 stride :=
  ⟨(Bytes.splice block.toList write.offset write.bytes).toArray, by
    rw [List.size_toArray, Bytes.length_splice, Vector.length_toList]
    rw [Vector.length_toList]
    exact write.within⟩

/-- What becomes of a slot's block by the write. -/
def through (slot : Nat) (block : Vector UInt8 stride) : Vector UInt8 stride :=
  if write.slot = slot then write.onto block else block

/-- What the write stores at a place of a slot's block, if anything. -/
def byte? (slot index : Nat) : Option UInt8 :=
  if write.slot = slot ∧ write.offset ≤ index then write.bytes[index - write.offset]? else none

theorem through_self (block : Vector UInt8 stride) :
    write.through write.slot block = write.onto block := if_pos rfl

theorem through_of_ne {slot : Nat} (h : write.slot ≠ slot) : write.through slot = id := by
  funext block
  exact if_neg h

theorem onto_whole (slot : Nat) (block before : Vector UInt8 stride) :
    (whole slot block).onto before = block := by
  apply Vector.toList_inj.mp
  simp [onto, whole, Bytes.splice]

theorem getElem_onto (block : Vector UInt8 stride) (index : Nat) (h : index < stride) :
    (write.onto block)[index] = (write.byte? write.slot index).getD block[index] := by
  have hend : write.offset + write.bytes.length ≤ block.toList.length := by
    rw [Vector.length_toList]
    exact write.within
  have hread : some (write.onto block)[index] =
      (Bytes.splice block.toList write.offset write.bytes)[index]? := by
    simp [onto]
  have hbefore : block.toList[index]? = some block[index] := by
    simp [h]
  apply Option.some.inj
  rw [hread]
  by_cases hinside : write.offset ≤ index ∧ index < write.offset + write.bytes.length
  · obtain ⟨hlow, hhigh⟩ := hinside
    rw [Bytes.getElem?_splice_inside hend hlow hhigh, byte?, if_pos ⟨rfl, hlow⟩,
      List.getElem?_eq_getElem (by omega)]
    rfl
  · have hnone : write.byte? write.slot index = none := by
      unfold byte?
      split
      next hlow => exact List.getElem?_eq_none (by omega)
      next => rfl
    rw [Bytes.getElem?_splice_outside hend (by omega), hnone, hbefore]
    rfl

theorem getElem_through (slot : Nat) (block : Vector UInt8 stride) (index : Nat)
    (h : index < stride) :
    (write.through slot block)[index] = (write.byte? slot index).getD block[index] := by
  by_cases hslot : write.slot = slot
  · subst hslot
    rw [through_self]
    exact write.getElem_onto block index h
  · simp [write.through_of_ne hslot, byte?, hslot]

end Write

section LastWritten

variable (writes : List (Write stride)) (slot : Nat)

/-- The byte that a place of a slot's block was last given, zero if it was given none. -/
def lastByte (index : Nat) : UInt8 :=
  (writes.reverse.findSome? fun write => write.byte? slot index).getD 0

/-- A slot's block, each byte as it was last written. -/
def lastWritten : Vector UInt8 stride := Vector.ofFn fun index => lastByte writes slot index

theorem lastWritten_nil : lastWritten ([] : List (Write stride)) slot = .replicate stride 0 := by
  apply Vector.ext
  intro index hindex
  simp [lastWritten, lastByte]

/-- A further write takes the place of earlier ones where it stores, and only in its slot. -/
theorem lastWritten_concat (write : Write stride) :
    lastWritten (writes ++ [write]) slot = write.through slot (lastWritten writes slot) := by
  apply Vector.ext
  intro index hindex
  rw [write.getElem_through slot _ index hindex]
  simp only [lastWritten, lastByte, Vector.getElem_ofFn, List.reverse_append,
    List.reverse_singleton, List.singleton_append, List.findSome?_cons]
  cases write.byte? slot index <;> rfl

end LastWritten

section Writing

variable (arena : ContextArena slots stride)

/-- The arena after a write. A slot that it does not have gives nobody a block to write into. -/
def perform (write : Write stride) : ContextArena slots stride :=
  match arena.block? write.slot with
  | none => arena
  | some block => arena.setBlock write.slot (write.onto block)

/-- The arena after writes made one after another. -/
def performAll (writes : List (Write stride)) : ContextArena slots stride :=
  writes.foldl perform arena

theorem block?_of_le {slot : Nat} (h : slots ≤ slot) : arena.block? slot = none := by
  rw [block?, dif_neg (Nat.not_lt.mpr h)]

theorem perform_of_le {write : Write stride} (h : slots ≤ write.slot) :
    arena.perform write = arena := by
  rw [perform, arena.block?_of_le h]

theorem perform_of_lt {write : Write stride} (h : write.slot < slots) :
    ∃ block, arena.block? write.slot = some block ∧
      arena.perform write = arena.setBlock write.slot (write.onto block) := by
  obtain ⟨block, hblock⟩ :=
    Option.isSome_iff_exists.mp ((arena.isSome_block?_iff write.slot).mpr h)
  refine ⟨block, hblock, ?_⟩
  rw [perform, hblock]

/-- One write changes the block of its own slot, by what it stores, and no other. -/
theorem block?_perform (write : Write stride) (slot : Nat) :
    (arena.perform write).block? slot = (arena.block? slot).map (write.through slot) := by
  rcases Nat.lt_or_ge write.slot slots with hsome | hnone
  · obtain ⟨block, hblock, hperform⟩ := arena.perform_of_lt hsome
    rw [hperform]
    by_cases hslot : write.slot = slot
    · rw [← hslot, block?_setBlock_self _ _ hsome, hblock, Option.map_some, write.through_self]
    · rw [block?_setBlock_of_ne _ _ (Ne.symm hslot), write.through_of_ne hslot, Option.map_id_apply]
  · rw [arena.perform_of_le hnone]
    by_cases hslot : write.slot = slot
    · rw [← hslot, arena.block?_of_le hnone, Option.map_none]
    · rw [write.through_of_ne hslot, Option.map_id_apply]

/-- Handing a whole block back is one of the writes. -/
theorem perform_whole (slot : Nat) (block : Vector UInt8 stride) :
    arena.perform (.whole slot block) = arena.setBlock slot block := by
  rcases Nat.lt_or_ge (Write.whole slot block).slot slots with hsome | hnone
  · obtain ⟨before, _, hperform⟩ := arena.perform_of_lt hsome
    rw [hperform, Write.onto_whole]
    rfl
  · have hout : ¬ slot < slots := Nat.not_lt.mpr hnone
    rw [arena.perform_of_le hnone, setBlock, dif_neg hout]

theorem performAll_concat (writes : List (Write stride)) (write : Write stride) :
    arena.performAll (writes ++ [write]) = (arena.performAll writes).perform write := by
  simp only [performAll, List.foldl_append, List.foldl_cons, List.foldl_nil]

/-- A slot's block is as if nobody had written through the other slots. -/
theorem block?_performAll_filter (writes : List (Write stride)) (slot : Nat) :
    (arena.performAll (writes.filter fun write => write.slot = slot)).block? slot =
      (arena.performAll writes).block? slot := by
  induction writes using List.reverseRecOn with
  | nil => rfl
  | append_singleton earlier write ih =>
      rw [List.filter_append, performAll_concat, block?_perform, ← ih]
      by_cases hslot : write.slot = slot
      · rw [List.filter_cons_of_pos (by simpa using hslot), List.filter_nil, performAll_concat,
          block?_perform]
      · rw [List.filter_cons_of_neg (by simpa using hslot), List.filter_nil, List.append_nil,
          write.through_of_ne hslot, Option.map_id_apply]

/-- A block stays as it is while others write through other slots. -/
theorem block?_performAll_of_ne {writes : List (Write stride)} {slot : Nat}
    (hother : ∀ write ∈ writes, write.slot ≠ slot) :
    (arena.performAll writes).block? slot = arena.block? slot := by
  have hnone : (writes.filter fun write => write.slot = slot) = [] := by
    rw [List.filter_eq_nil_iff]
    simpa using hother
  rw [← block?_performAll_filter, hnone]
  rfl

theorem block?_zeroed (slot : Nat) :
    (zeroed slots stride).block? slot =
      if slot < slots then some (.replicate stride 0) else none := by
  unfold block?
  split
  next hslot =>
    have hend : slot * stride + stride ≤ slots * stride := block_end_le hslot
    apply congrArg some
    apply Vector.toList_inj.mp
    simp only [zeroed, Bytes.slice, Vector.toList_mk, List.drop_replicate, List.take_replicate,
      Vector.toList_replicate]
    congr 1
    omega
  next => rfl

/-- After any writes, each block of the arena holds what was last written through its slot. -/
theorem block?_performAll_zeroed (writes : List (Write stride)) (slot : Nat) :
    ((zeroed slots stride).performAll writes).block? slot =
      if slot < slots then some (lastWritten writes slot) else none := by
  -- The last write decides, so writes are taken off the end.
  induction writes using List.reverseRecOn with
  | nil =>
      rw [lastWritten_nil]
      exact block?_zeroed slot
  | append_singleton earlier write ih =>
      rw [performAll_concat, block?_perform, ih, lastWritten_concat]
      split <;> rfl

end Writing

section Ranges

/-- The blocks of an arena are parts of its memory that have no byte in common, and a slot's block
is read where its range says. -/
structure Parted (arena : ContextArena slots stride) : Prop where
  isSome_iff : ∀ slot, (range? slots stride slot).isSome = true ↔ slot < slots
  inside : ∀ slot start stop, range? slots stride slot = some (start, stop) →
    stop - start = stride ∧ start ≤ stop ∧ stop ≤ arena.memory.length
  apart : ∀ slot other first second, slot ≠ other → range? slots stride slot = some first →
    range? slots stride other = some second → first.2 ≤ second.1 ∨ second.2 ≤ first.1
  read : ∀ slot, (arena.block? slot).map Vector.toList =
    (range? slots stride slot).map fun (start, stop) =>
      Bytes.slice arena.memory start (stop - start)

theorem range?_eq_some_iff {slot start stop : Nat} :
    range? slots stride slot = some (start, stop) ↔
      slot < slots ∧ start = slot * stride ∧ stop = slot * stride + stride := by
  unfold range?
  split
  next hslot =>
    simp only [Option.some.injEq, Prod.mk.injEq, hslot, true_and]
    exact and_congr eq_comm eq_comm
  next hslot => simp [hslot]

theorem parted (arena : ContextArena slots stride) : arena.Parted where
  isSome_iff slot := by
    unfold range?
    split <;> simp [*]
  inside slot start stop hrange := by
    obtain ⟨hslot, rfl, rfl⟩ := range?_eq_some_iff.mp hrange
    rw [arena.size_eq]
    exact ⟨Nat.add_sub_cancel_left _ _, Nat.le_add_right _ _, block_end_le hslot⟩
  apart slot other first second hne hfirst hsecond := by
    obtain ⟨_, hstart, hstop⟩ := range?_eq_some_iff.mp hfirst
    obtain ⟨_, hstart', hstop'⟩ := range?_eq_some_iff.mp hsecond
    rw [hstart, hstop, hstart', hstop']
    exact block_disjoint hne
  read slot := by
    unfold block? range?
    split
    next hslot =>
      simp
    next => rfl

end Ranges

section Words

/-- The size of an arena as a 64-bit word, the largest one where the product is larger. -/
def saturatingSize (slots stride : UInt64) : UInt64 :=
  if slots.toNat * stride.toNat < UInt64.size then slots * stride else 0xFFFFFFFFFFFFFFFF

/-- Where a slot's block starts and ends, computed in 64-bit words, which wrap. -/
def wrappingRange? (slots stride slot : UInt64) : Option (UInt64 × UInt64) :=
  if slots ≤ slot then none else some (slot * stride, slot * stride + stride)

variable {slots stride : UInt64} (hfits : slots.toNat * stride.toNat < 2 ^ 64)
include hfits

theorem toNat_saturatingSize :
    (saturatingSize slots stride).toNat = slots.toNat * stride.toNat := by
  have hsize : slots.toNat * stride.toNat < UInt64.size := hfits
  rw [saturatingSize, if_pos hsize, UInt64.toNat_mul, Nat.mod_eq_of_lt hfits]

/-- In memory that 64 bits can count, no offset wraps. -/
theorem toNat_wrappingRange? (slot : UInt64) :
    (wrappingRange? slots stride slot).map (Prod.map UInt64.toNat UInt64.toNat) =
      range? slots.toNat stride.toNat slot.toNat := by
  unfold wrappingRange? range?
  by_cases hslot : slots ≤ slot
  · rw [if_pos hslot, if_neg (Nat.not_lt.mpr (UInt64.le_iff_toNat_le.mp hslot))]
    rfl
  · have hlt : slot.toNat < slots.toNat :=
      Nat.lt_of_not_le fun hle => hslot (UInt64.le_iff_toNat_le.mpr hle)
    have hend : slot.toNat * stride.toNat + stride.toNat ≤ slots.toNat * stride.toNat :=
      block_end_le hlt
    have hstart : (slot * stride).toNat = slot.toNat * stride.toNat := by
      rw [UInt64.toNat_mul, Nat.mod_eq_of_lt (by omega)]
    rw [if_neg hslot, if_pos hlt]
    simp only [Option.map_some, Prod.map, UInt64.toNat_add, hstart]
    rw [Nat.mod_eq_of_lt (by omega)]

end Words

/-- The blocks of an arena are independent, whatever is written through which slots, also through
slots that it does not have. Exactly the slots of the arena have a range, of the length of a
block, inside the memory and apart from every other, and 64-bit words are wide enough for the
size and for every offset. A slot reads what was last written through it, byte by byte, and zeros
where nothing was: the same as if nobody had written through any other slot. In particular a block
handed back as a whole reads unchanged until the next write through its slot. -/
theorem blocks_independent {slots stride : UInt64}
    (hfits : slots.toNat * stride.toNat < 2 ^ 64) (writes : List (Write stride.toNat)) :
    let fresh := zeroed slots.toNat stride.toNat
    let arena := fresh.performAll writes
    (saturatingSize slots stride).toNat = arena.memory.length ∧
      (∀ slot, (wrappingRange? slots stride slot).map (Prod.map UInt64.toNat UInt64.toNat) =
        range? slots.toNat stride.toNat slot.toNat) ∧
      arena.Parted ∧
      (∀ write : Write stride.toNat, slots.toNat ≤ write.slot → arena.perform write = arena) ∧
      ∀ slot,
        arena.block? slot =
            (if slot < slots.toNat then some (lastWritten writes slot) else none) ∧
          arena.block? slot =
            (fresh.performAll (writes.filter fun write => write.slot = slot)).block? slot ∧
          (slot < slots.toNat → ∀ block later, (∀ write ∈ later, write.slot ≠ slot) →
            (arena.performAll (.whole slot block :: later)).block? slot = some block) := by
  dsimp only
  refine ⟨?_, toNat_wrappingRange? hfits, parted _, fun write => perform_of_le _, fun slot => ?_⟩
  · rw [toNat_saturatingSize hfits, ContextArena.size_eq]
  · refine ⟨block?_performAll_zeroed writes slot, (block?_performAll_filter _ writes slot).symm, ?_⟩
    intro hslot block later hother
    change ((perform _ (.whole slot block)).performAll later).block? slot = some block
    rw [block?_performAll_of_ne _ hother, perform_whole, block?_setBlock_self _ block hslot]

section Sample

/-- A block written as a whole and then in part, a write through another slot, and one through a
slot that there is not. -/
def sampleWrites : List (Write (4 : UInt64).toNat) :=
  [.whole 1 #v[0xAA, 0xAA, 0xAA, 0xAA], ⟨1, 2, [1, 2], by decide⟩, ⟨0, 3, [7], by decide⟩,
    ⟨5, 0, [9], by decide⟩]

theorem sample_blocks_independent :
    (3 : UInt64).toNat * (4 : UInt64).toNat < 2 ^ 64 ∧
      let arena := (zeroed (3 : UInt64).toNat (4 : UInt64).toNat).performAll sampleWrites
      arena.block? 0 = some #v[0, 0, 0, 7] ∧ arena.block? 1 = some #v[0xAA, 0xAA, 1, 2] ∧
        arena.block? 2 = some #v[0, 0, 0, 0] ∧ arena.block? 5 = none := by
  have hfits : (3 : UInt64).toNat * (4 : UInt64).toNat < 2 ^ 64 := by decide
  obtain ⟨_, _, _, _, hslots⟩ := blocks_independent hfits sampleWrites
  exact ⟨hfits, (hslots 0).1, (hslots 1).1, (hslots 2).1, (hslots 5).1⟩

end Sample

end ContextArena

end TransmitQueue
