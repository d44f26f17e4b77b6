import TransmitQueue.Bounce.Pool
import TransmitQueue.Proofs.Alignment

/-!
# Bounce buffers

What a pool does to its buffers. A copy goes into the next buffer in turn, fills it from
the start with the payload, and leaves every other buffer as it was. Where the buffers
lie and how large they are never changes.
-/

namespace TransmitQueue

namespace Bytes

/-- Two writes, one right behind the other, are one write of both contents. -/
theorem splice_splice {memory first second : Bytes} {start : Nat}
    (hfits : start + first.length + second.length ≤ memory.length) :
    splice (splice memory start first) (start + first.length) second =
      splice memory start (first ++ second) := by
  have hstart : (memory.take start ++ first).length = start + first.length := by
    rw [List.length_append, List.length_take]
    omega
  unfold splice
  rw [List.take_left' hstart, ← List.drop_drop, List.drop_left' hstart, List.drop_drop,
    List.length_append, Nat.add_assoc, List.append_assoc (memory.take start)]

/-- The start of a memory that begins with a written content. -/
theorem take_splice_zero {memory content : Bytes} (hfits : content.length ≤ memory.length) :
    (splice memory 0 content).take content.length = content := by
  have hread : slice (splice memory 0 content) 0 content.length = content :=
    slice_splice_self (by omega)
  exact hread

end Bytes

namespace BouncePool

/-- Copying fragments that fit leaves their payload in the buffer. -/
theorem copyInto_of_fits {buffer : Bytes} {copied : Nat} {fragments : List Fragment}
    (hfits : copied + (fragments.flatMap Fragment.payload).length ≤ buffer.length) :
    copyInto buffer copied fragments =
      (.ok (copied + (fragments.flatMap Fragment.payload).length),
        Bytes.splice buffer copied (fragments.flatMap Fragment.payload)) := by
  induction fragments generalizing buffer copied with
  | nil =>
      simp only [copyInto, Nat.add_zero, List.flatMap_nil,
        Bytes.splice, List.append_nil, List.length_nil, List.take_append_drop]
  | cons fragment rest ih =>
      rw [List.flatMap_cons, List.length_append] at hfits
      have hwrite : copied + fragment.payload.length ≤ buffer.length := by omega
      have hlength := Bytes.length_splice hwrite
      -- What the rest writes goes right behind this fragment.
      have hjoin := Bytes.splice_splice (by omega :
        copied + fragment.payload.length + (rest.flatMap Fragment.payload).length ≤
          buffer.length)
      rw [Fragment.length_payload] at hfits hjoin
      unfold copyInto
      rw [if_pos (by omega), ih (by omega), hjoin, List.flatMap_cons, List.length_append,
        Fragment.length_payload, Nat.add_assoc]

/-- Fragments that do not all fit are not all copied. -/
theorem copyInto_of_oversize {buffer : Bytes} {copied : Nat} {fragments : List Fragment}
    (hcopied : copied ≤ buffer.length)
    (hover : buffer.length < copied + (fragments.flatMap Fragment.payload).length) :
    (copyInto buffer copied fragments).1 = .error .scatterGatherOverflow := by
  induction fragments generalizing buffer copied with
  | nil =>
      rw [List.flatMap_nil, List.length_nil] at hover
      omega
  | cons fragment rest ih =>
      rw [List.flatMap_cons, List.length_append, Fragment.length_payload] at hover
      unfold copyInto
      split
      next hwrite =>
        have hlength : (Bytes.splice buffer copied fragment.payload).length = buffer.length :=
          Bytes.length_splice (by simpa using hwrite)
        exact ih (by omega) (by omega)
      next => rfl

/-- Pools whose buffers lie in the same places. -/
structure Alike (pool other : BouncePool) : Prop where
  address_eq : pool.memory.address = other.memory.address
  length_eq : pool.memory.length = other.memory.length
  bufferSize_eq : pool.bufferSize = other.bufferSize
  count_eq : pool.count = other.count

theorem Alike.refl (pool : BouncePool) : pool.Alike pool := ⟨rfl, rfl, rfl, rfl⟩

theorem Alike.trans {first second third : BouncePool} (hfirst : first.Alike second)
    (hsecond : second.Alike third) : first.Alike third where
  address_eq := hfirst.address_eq.trans hsecond.address_eq
  length_eq := hfirst.length_eq.trans hsecond.length_eq
  bufferSize_eq := hfirst.bufferSize_eq.trans hsecond.bufferSize_eq
  count_eq := hfirst.count_eq.trans hsecond.count_eq

theorem Alike.bufferAddress_eq {pool other : BouncePool} (halike : pool.Alike other)
    (index : Nat) : pool.bufferAddress index = other.bufferAddress index := by
  unfold bufferAddress
  rw [halike.address_eq, halike.bufferSize_eq]

/-- A pool whose memory holds all of its buffers. -/
structure Stocked (pool : BouncePool) : Prop where
  count_pos : 0 < pool.count
  buffers_le : pool.count * pool.bufferSize ≤ pool.memory.length

theorem Alike.stocked {pool other : BouncePool} (halike : pool.Alike other)
    (hstocked : other.Stocked) : pool.Stocked where
  count_pos := by
    rw [halike.count_eq]
    exact hstocked.count_pos
  buffers_le := by
    rw [halike.count_eq, halike.bufferSize_eq, halike.length_eq]
    exact hstocked.buffers_le

/-- The buffer that the next copy goes into. -/
def nextBuffer (pool : BouncePool) : Nat := pool.busyIndex % pool.count

variable {pool : BouncePool}

theorem Stocked.buffer_end_le (hstocked : pool.Stocked) {index : Nat}
    (hindex : index < pool.count) : (index + 1) * pool.bufferSize ≤ pool.memory.length :=
  Nat.le_trans (Nat.mul_le_mul_right _ hindex) hstocked.buffers_le

theorem Stocked.buffer?_eq (hstocked : pool.Stocked) {index : Nat} (hindex : index < pool.count) :
    pool.buffer? index =
      some (Bytes.slice pool.memory.memory (index * pool.bufferSize) pool.bufferSize) :=
  if_pos ⟨hindex, hstocked.buffer_end_le hindex⟩

theorem length_of_buffer?_eq_some {index : Nat} {buffer : Bytes}
    (hbuffer : pool.buffer? index = some buffer) : buffer.length = pool.bufferSize := by
  unfold buffer? at hbuffer
  split at hbuffer
  next hinside =>
    obtain rfl := Option.some.inj hbuffer
    apply Bytes.length_slice
    rw [← Nat.succ_mul]
    exact hinside.2
  next => cases hbuffer

theorem alike_setBuffer {index : Nat} {content buffer : Bytes}
    (hbuffer : pool.buffer? index = some buffer) (hcontent : content.length = pool.bufferSize) :
    (pool.setBuffer index content).Alike pool where
  address_eq := rfl
  length_eq := by
    unfold buffer? at hbuffer
    split at hbuffer
    next hinside =>
      apply Bytes.length_splice
      rw [hcontent, ← Nat.succ_mul]
      exact hinside.2
    next => cases hbuffer
  bufferSize_eq := rfl
  count_eq := rfl

theorem buffer?_setBuffer_self (hstocked : pool.Stocked) {index : Nat} {content : Bytes}
    (hindex : index < pool.count) (hcontent : content.length = pool.bufferSize) :
    (pool.setBuffer index content).buffer? index = some content := by
  have halike := alike_setBuffer (hstocked.buffer?_eq hindex) hcontent
  have hend := hstocked.buffer_end_le hindex
  rw [Nat.succ_mul] at hend
  rw [(halike.stocked hstocked).buffer?_eq hindex]
  rw [← hcontent] at hend
  have hread := Bytes.slice_splice_self hend
  rw [hcontent] at hread
  exact congrArg some hread

/-- Buffers of different numbers do not overlap. -/
theorem buffer?_setBuffer_of_ne (hstocked : pool.Stocked) {index other : Nat} {content : Bytes}
    (hindex : index < pool.count) (hcontent : content.length = pool.bufferSize)
    (hother : other ≠ index) :
    (pool.setBuffer index content).buffer? other = pool.buffer? other := by
  by_cases hcount : other < pool.count
  · have halike := alike_setBuffer (hstocked.buffer?_eq hindex) hcontent
    have hend := hstocked.buffer_end_le hindex
    have hapart : other * pool.bufferSize + pool.bufferSize ≤ index * pool.bufferSize ∨
        index * pool.bufferSize + content.length ≤ other * pool.bufferSize := by
      rw [hcontent, ← Nat.succ_mul, ← Nat.succ_mul]
      rcases Nat.lt_or_gt_of_ne hother with hbelow | habove
      · exact Or.inl (Nat.mul_le_mul_right _ hbelow)
      · exact Or.inr (Nat.mul_le_mul_right _ habove)
    rw [Nat.succ_mul] at hend
    rw [(halike.stocked hstocked).buffer?_eq hcount, hstocked.buffer?_eq hcount]
    exact congrArg some (Bytes.slice_splice_disjoint (by rw [hcontent]; exact hend) hapart)
  · unfold buffer?
    rw [if_neg (fun hinside => hcount hinside.1), if_neg (fun hinside => hcount hinside.1)]

section Bounce

variable {P : Type} [Packet P] {packet : P}

theorem bounce_of_exhausted (hexhausted : pool.isExhausted = true) :
    pool.bounce packet = (.error .insufficientResources, pool) := by
  unfold bounce
  rw [if_pos hexhausted]

/-- No copy moves or resizes a buffer, whether it succeeds or not. -/
theorem alike_bounce (pool : BouncePool) (packet : P) : (pool.bounce packet).2.Alike pool := by
  unfold bounce
  split
  next => exact .refl pool
  next =>
    dsimp only
    split
    next => exact .refl pool
    next buffer hbuffer =>
      have hcontent := length_copyInto buffer 0 (Packet.fragments packet)
      rw [length_of_buffer?_eq_some hbuffer] at hcontent
      have halike := alike_setBuffer hbuffer hcontent
      split
      next error content hcopy =>
        rw [hcopy] at halike
        exact halike
      next copied content hcopy =>
        rw [hcopy] at halike
        exact ⟨halike.address_eq, halike.length_eq, halike.bufferSize_eq, halike.count_eq⟩

/-- No copy gives a buffer back. -/
theorem freeIndex_bounce (pool : BouncePool) (packet : P) :
    (pool.bounce packet).2.freeIndex = pool.freeIndex := by
  unfold bounce
  split
  next => rfl
  next =>
    dsimp only
    split
    next => rfl
    next => split <;> rfl

/-- A packet that fits is copied into the next buffer, and its list describes the copy. -/
theorem bounce_of_fits (hstocked : pool.Stocked) (hroom : pool.isExhausted = false)
    (hfits : Packet.totalLength packet ≤ pool.bufferSize) :
    ∃ next, pool.bounce packet =
        (.ok (SgList.singleton ⟨pool.bufferAddress pool.nextBuffer, Packet.totalLength packet⟩),
          next) ∧
      next.busyIndex = pool.busyIndex + 1 ∧ next.freeIndex = pool.freeIndex ∧
      (next.buffer? pool.nextBuffer).map (List.take (Packet.totalLength packet)) =
        some (Packet.payload packet) ∧
      ∀ other, other ≠ pool.nextBuffer → next.buffer? other = pool.buffer? other := by
  have hindex : pool.nextBuffer < pool.count := Nat.mod_lt _ hstocked.count_pos
  have hbuffer := hstocked.buffer?_eq hindex
  generalize hslice :
    Bytes.slice pool.memory.memory (pool.nextBuffer * pool.bufferSize) pool.bufferSize = buffer
      at hbuffer
  have hlength := length_of_buffer?_eq_some hbuffer
  have hpayload : (Packet.payload packet).length ≤ buffer.length := by
    rw [Packet.length_payload, hlength]
    exact hfits
  have hcopy : copyInto buffer 0 (Packet.fragments packet) =
      (.ok (0 + (Packet.payload packet).length), Bytes.splice buffer 0 (Packet.payload packet)) :=
    copyInto_of_fits (by rwa [Nat.zero_add])
  rw [Nat.zero_add, Packet.length_payload] at hcopy
  have hcontent : (Bytes.splice buffer 0 (Packet.payload packet)).length = pool.bufferSize := by
    rw [Bytes.length_splice (by omega), hlength]
  refine ⟨{ pool.setBuffer pool.nextBuffer (Bytes.splice buffer 0 (Packet.payload packet)) with
    busyIndex := pool.busyIndex + 1 }, ?_, rfl, rfl, ?_, ?_⟩
  · have hnext : pool.buffer? (pool.busyIndex % pool.count) = some buffer := hbuffer
    unfold bounce
    rw [if_neg (by simp [hroom])]
    dsimp only
    rw [hnext]
    dsimp only
    rw [hcopy]
    rfl
  · have hself := buffer?_setBuffer_self hstocked hindex hcontent
    have htake := Bytes.take_splice_zero hpayload
    rw [Packet.length_payload] at htake
    exact (congrArg (Option.map _) hself).trans (congrArg some htake)
  · intro other hother
    exact buffer?_setBuffer_of_ne hstocked hindex hcontent hother

/-- A packet that does not fit leaves what it left in the next buffer, and nowhere else. -/
theorem bounce_of_oversize (hstocked : pool.Stocked) (hroom : pool.isExhausted = false)
    (hover : pool.bufferSize < Packet.totalLength packet) :
    ∃ next, pool.bounce packet = (.error .scatterGatherOverflow, next) ∧
      next.busyIndex = pool.busyIndex ∧ next.freeIndex = pool.freeIndex ∧
      ∀ other, other ≠ pool.nextBuffer → next.buffer? other = pool.buffer? other := by
  have hindex : pool.nextBuffer < pool.count := Nat.mod_lt _ hstocked.count_pos
  have hbuffer := hstocked.buffer?_eq hindex
  generalize Bytes.slice pool.memory.memory (pool.nextBuffer * pool.bufferSize) pool.bufferSize =
    buffer at hbuffer
  have hlength := length_of_buffer?_eq_some hbuffer
  have htotal : buffer.length < 0 + (Packet.payload packet).length := by
    rw [Nat.zero_add, hlength, Packet.length_payload]
    exact hover
  have hfailed := copyInto_of_oversize (Nat.zero_le _) htotal
  have hcontent := length_copyInto buffer 0 (Packet.fragments packet)
  rw [hlength] at hcontent
  generalize hcopy : copyInto buffer 0 (Packet.fragments packet) = copy at hfailed hcontent
  obtain ⟨answer, content⟩ := copy
  obtain rfl : answer = .error .scatterGatherOverflow := hfailed
  refine ⟨pool.setBuffer pool.nextBuffer content, ?_, rfl, rfl, fun other hother =>
    buffer?_setBuffer_of_ne hstocked hindex hcontent hother⟩
  have hnext : pool.buffer? (pool.busyIndex % pool.count) = some buffer := hbuffer
  unfold bounce
  rw [if_neg (by simp [hroom])]
  dsimp only
  rw [hnext]
  dsimp only
  rw [hcopy]
  rfl

end Bounce

theorem alike_release (pool : BouncePool) : pool.release.2.Alike pool := by
  unfold release
  split
  next => exact .refl pool
  next => exact ⟨rfl, rfl, rfl, rfl⟩

end BouncePool

end TransmitQueue
