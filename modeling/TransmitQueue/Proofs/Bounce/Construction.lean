import TransmitQueue.Proofs.Queue.Decision
import TransmitQueue.Proofs.Starts

/-!
# Construction of the bounce pool

The pool is built exactly in memory that the device can use. Only the first byte's alignment and
the last byte's address are looked at; that every buffer between them is aligned and in reach
follows, because the buffers' size is a multiple of the alignment and nothing wraps.
-/

namespace TransmitQueue

namespace BouncePool

/-- The device drives the address of the last of so many bytes of memory. The address is not
taken modulo the address space. -/
def InReach (config : Config) (total : Nat) (memory : CommonBuffer) : Prop :=
  ∀ highest ∈ config.maxAddress?, memory.address.toNat + (total - 1) ≤ highest

instance (config : Config) (total : Nat) (memory : CommonBuffer) :
    Decidable (InReach config total memory) :=
  inferInstanceAs (Decidable (∀ highest ∈ config.maxAddress?, _ ≤ highest))

/-- Memory in which the device can use so many bytes. -/
structure Usable (config : Config) (total : Nat) (memory : CommonBuffer) : Prop where
  length_le : total ≤ memory.length
  inReach : InReach config total memory
  aligned : config.alignment.isAligned memory.address = true

/-- Why no pool of so many bytes is built, given the adapter's answer: the first of the reasons
that apply. -/
inductive Refused (config : Config) (total : Nat) (answer : Except DmaError CommonBuffer) :
    ConfigError → Prop where
  | excess (htotal : addressSpace ≤ total) : Refused config total answer .bounceAllocationFailed
  | failed (error : DmaError) (htotal : total < addressSpace) (hanswer : answer = .error error) :
      Refused config total answer .bounceAllocationFailed
  | short (memory : CommonBuffer) (htotal : total < addressSpace) (hanswer : answer = .ok memory)
      (hlength : memory.length < total) : Refused config total answer .bounceAllocationFailed
  | unreachable (memory : CommonBuffer) (htotal : total < addressSpace)
      (hanswer : answer = .ok memory) (hlength : total ≤ memory.length)
      (hreach : ¬ InReach config total memory) :
      Refused config total answer .bounceBufferUnreachable
  | misaligned (memory : CommonBuffer) (htotal : total < addressSpace)
      (hanswer : answer = .ok memory) (hlength : total ≤ memory.length)
      (hreach : InReach config total memory)
      (haligned : config.alignment.isAligned memory.address = false) :
      Refused config total answer .bounceBufferMisaligned

/-- An unused pool of buffers cut from memory, one behind the other, as a configuration asks. -/
structure Carved (config : Config) (size : Nat) (memory : CommonBuffer) (pool : BouncePool) :
    Prop where
  memory_eq : pool.memory = memory
  inUse_eq : pool.inUse = 0
  capacity_eq : pool.capacity = config.bounceBuffers
  buffer_eq : ∀ index < pool.capacity,
    index * size + size ≤ memory.length ∧
      pool.buffer? index = some (Bytes.slice memory.memory (index * size) size) ∧
      (Bytes.slice memory.memory (index * size) size).length = size
  apart : ∀ first second, first < second → first * size + size ≤ second * size
  aligned : ∀ index, config.alignment.isAligned (pool.bufferAddress index) = true
  reached : ∀ highest, config.maxAddress? = some highest → ∀ index < pool.capacity,
    ∀ byte < size, ((pool.bufferAddress index).offset byte).toNat ≤ highest

variable {config : Config} {total : Nat} {memory : CommonBuffer}

/-- An address beyond the last one is beyond any that the device drives, so the check need not
tell the two apart. -/
theorem checkMemory_eq :
    checkMemory config total memory =
      if memory.length < total then .error .bounceAllocationFailed
      else if ¬ InReach config total memory then .error .bounceBufferUnreachable
      else if config.alignment.isAligned memory.address = false then .error .bounceBufferMisaligned
      else .ok () := by
  unfold checkMemory
  dsimp only
  cases hlimit : config.maxAddress? with
  | none => simp [InReach, hlimit]
  | some highest =>
      have hlast := Config.maxAddress?_lt hlimit
      have hreach : InReach config total memory ↔
          memory.address.toNat + (total - 1) ≤ highest := by simp [InReach, hlimit]
      have hbeyond : addressSpace ≤ memory.address.toNat + (total - 1) ∨
          highest < memory.address.toNat + (total - 1) ↔ ¬ InReach config total memory := by
        rw [hreach]
        omega
      simp only [hbeyond, decide_eq_true_eq]

/-- The check of memory passes what can be used, and otherwise names the first reason. -/
theorem checkMemory_spec (memory : CommonBuffer) (htotal : total < addressSpace) :
    (checkMemory config total memory = .ok () ∧ Usable config total memory) ∨
      ∃ error, checkMemory config total memory = .error error ∧
        Refused config total (.ok memory) error := by
  rw [checkMemory_eq]
  split
  next hlength => exact Or.inr ⟨_, rfl, .short memory htotal rfl hlength⟩
  next hlength =>
    have hlength := Nat.le_of_not_lt hlength
    split
    next hreach => exact Or.inr ⟨_, rfl, .unreachable memory htotal rfl hlength hreach⟩
    next hreach =>
      have hreach := Decidable.of_not_not hreach
      split
      next haligned =>
        exact Or.inr ⟨_, rfl, .misaligned memory htotal rfl hlength hreach haligned⟩
      next haligned => exact Or.inl ⟨rfl, hlength, hreach, (Bool.not_eq_false _).mp haligned⟩

/-- Memory that can be used is refused for no reason. -/
theorem Usable.not_refused (husable : Usable config total memory) (htotal : total < addressSpace)
    {error : ConfigError} : ¬ Refused config total (.ok memory) error := by
  obtain ⟨hlength, hreach, haligned⟩ := husable
  intro hrefused
  cases hrefused with
  | excess hexcess => omega
  | failed _ _ hanswer => cases hanswer
  | short other _ hanswer hshort =>
      cases hanswer
      omega
  | unreachable other _ hanswer _ hbeyond =>
      cases hanswer
      exact hbeyond hreach
  | misaligned other _ hanswer _ _ hmisaligned =>
      cases hanswer
      rw [haligned] at hmisaligned
      cases hmisaligned

/-- There is one first reason. -/
theorem Refused.unique {answer : Except DmaError CommonBuffer} {first second : ConfigError}
    (hfirst : Refused config total answer first) (hsecond : Refused config total answer second) :
    first = second := by
  cases hfirst <;> cases hsecond <;> grind

variable {P D : Type} [Adapter D] {size : Nat}

/-- A pool is built in memory that can be used, or refused for the first reason there is. -/
theorem build_spec (hsize : config.bounceBufferSize? = some size) (adapter : D) :
    let total := size * config.bounceBuffers
    let answer := (Adapter.allocate adapter total config.alignment.bytes config.maxAddress?).1
    (∃ memory, total < addressSpace ∧ answer = .ok memory ∧ Usable config total memory ∧
        (build config adapter : Traced P _).value.1 =
          .ok ⟨memory, size, config.bounceBuffers, 0, 0⟩) ∨
      ∃ error, Refused config total answer error ∧
        (build config adapter : Traced P _).value.1 = .error error := by
  dsimp only
  unfold build
  rw [hsize]
  dsimp only
  split
  next hexcess => exact Or.inr ⟨_, .excess hexcess, rfl⟩
  next htotal =>
    have htotal := Nat.lt_of_not_le htotal
    simp only [Traced.value_bind]
    cases (Adapter.allocate adapter (size * config.bounceBuffers) config.alignment.bytes
      config.maxAddress?).1 with
    | error error => exact Or.inr ⟨_, .failed error htotal rfl, rfl⟩
    | ok memory =>
        dsimp only
        rcases checkMemory_spec memory htotal with ⟨hcheck, husable⟩ | ⟨error, hcheck, hrefused⟩
        · rw [hcheck]
          exact Or.inl ⟨memory, htotal, rfl, husable, rfl⟩
        · rw [hcheck]
          exact Or.inr ⟨error, hrefused, rfl⟩

/-- What a pool in memory that can be used is like. -/
theorem Usable.carved (husable : Usable config (size * config.bounceBuffers) memory)
    (hvalid : config.alignment.isValid = true) (hdvd : config.alignment.bytes ∣ size) :
    Carved config size memory ⟨memory, size, config.bounceBuffers, 0, 0⟩ where
  memory_eq := rfl
  inUse_eq := rfl
  capacity_eq := rfl
  buffer_eq index hindex := by
    have hstocked : Stocked ⟨memory, size, config.bounceBuffers, 0, 0⟩ :=
      ⟨config.bounceBuffers_pos, Nat.mul_comm _ _ ▸ husable.length_le⟩
    have hend := hstocked.buffer_end_le hindex
    rw [Nat.succ_mul] at hend
    exact ⟨hend, hstocked.buffer?_eq hindex, Bytes.length_slice hend⟩
  apart first second hless := by
    rw [← Nat.succ_mul]
    exact Nat.mul_le_mul_right size hless
  aligned index := Alignment.isAligned_offset hvalid husable.aligned
    (Nat.dvd_mul_left_of_dvd hdvd index)
  reached highest hhighest index hindex byte hbyte := by
    have hlast := husable.inReach highest hhighest
    have hend : (index + 1) * size ≤ config.bounceBuffers * size :=
      Nat.mul_le_mul_right size hindex
    rw [Nat.succ_mul] at hend
    rw [Nat.mul_comm size] at hlast
    rw [bufferAddress, PhysAddr.offset_offset, PhysAddr.toNat_offset]
    refine Nat.le_trans (Nat.mod_le _ _) ?_
    dsimp only
    omega

/-- A validated configuration gets a pool exactly if the adapter hands out memory that the device
can use for all of the buffers, and is told the first reason otherwise. The buffers hold the
largest packet, padded to the alignment and no further. They are cut from that memory side by
side, and each of them is aligned and in the device's reach to its last byte. -/
theorem built_in_usable_memory (hvalid : config.Valid) (adapter : D) :
    ∃ size, config.bounceBufferSize? = some size ∧ config.maximumPacketSize ≤ size ∧
      size < config.maximumPacketSize + config.alignment.bytes ∧
      config.alignment.bytes ∣ size ∧
      let total := size * config.bounceBuffers
      let answer := (Adapter.allocate adapter total config.alignment.bytes config.maxAddress?).1
      let built := (build config adapter : Traced P _).value.1
      ((∃ pool, built = .ok pool) ↔
          total < addressSpace ∧ ∃ memory, answer = .ok memory ∧ Usable config total memory) ∧
        (∀ error, built = .error error ↔ Refused config total answer error) ∧
        ∀ pool, built = .ok pool → ∃ memory, answer = .ok memory ∧
          Carved config size memory pool := by
  have halignment := hvalid.alignment_isValid
  obtain ⟨size, hsize⟩ := Option.isSome_iff_exists.mp (config.valid_iff.mp hvalid).2.2.1
  have hdvd := Alignment.dvd_of_roundUp_eq_some halignment hsize
  refine ⟨size, hsize, Alignment.le_of_roundUp_eq_some hsize,
    Alignment.lt_of_roundUp_eq_some halignment hsize, hdvd, ?_⟩
  have hspec := build_spec (P := P) hsize adapter
  dsimp only at hspec ⊢
  rcases hspec with ⟨memory, htotal, hanswer, husable, hbuild⟩ | ⟨error, hrefused, hbuild⟩
  · rw [hanswer, hbuild]
    refine ⟨⟨fun _ => ⟨htotal, memory, rfl, husable⟩, fun _ => ⟨_, rfl⟩⟩, fun error =>
      ⟨nofun, fun hrefused => absurd hrefused (husable.not_refused htotal)⟩, fun pool hpool => ?_⟩
    obtain rfl := Except.ok.inj hpool
    exact ⟨memory, rfl, husable.carved halignment hdvd⟩
  · rw [hbuild]
    refine ⟨⟨nofun, ?_⟩, fun other => ⟨fun hother => Except.error.inj hother ▸ hrefused,
      fun hother => congrArg _ (hrefused.unique hother)⟩, nofun⟩
    rintro ⟨htotal, memory, hanswer, husable⟩
    rw [hanswer] at hrefused
    exact absurd hrefused (husable.not_refused htotal)

section Sample

/-- A device that drives 32 address bits and asks for an alignment of sixteen bytes. -/
def paddedConfig : Config :=
  { maximumPacketSize := 20, alignment := .mask 15, addressWidth := 32, bounceBufferCount := 3 }

/-- An adapter whose memory lies so that three buffers of 32 bytes end with the last address that
the device drives. -/
def topmostAdapter : ScriptedAdapter := { base := ⟨0xFFFFFFA0⟩ }

theorem sample_built_in_usable_memory :
    paddedConfig.Valid ∧ ∃ pool memory,
      (build paddedConfig topmostAdapter : Traced ScriptedPacket _).value.1 = .ok pool ∧
        Carved paddedConfig 32 memory pool := by
  have hvalid : paddedConfig.Valid := rfl
  obtain ⟨size, hsize, _, _, _, hbuilt, _, hcarved⟩ :=
    built_in_usable_memory (P := ScriptedPacket) hvalid topmostAdapter
  obtain rfl : 32 = size := Option.some.inj hsize
  obtain ⟨pool, hpool⟩ := hbuilt.mpr ⟨by decide, _, rfl, by decide, by decide, rfl⟩
  obtain ⟨memory, _, hmemory⟩ := hcarved pool hpool
  exact ⟨hvalid, pool, memory, hpool, hmemory⟩

end Sample

end BouncePool

end TransmitQueue
