import TransmitQueue.Proofs.Ownership

/-!
# The pool as an allocator

Whoever calls a pool, in whatever order and with whatever packets, the buffers handed out and
not yet given back are different ones, and each holds its payload. The argument needs no queue:
buffers are handed out in turn and given back in the same order, so the next one is in use only
if all of them are. A copy that fails half way has written into the next buffer alone.
-/

namespace TransmitQueue

namespace BouncePool

/-- What a pool is asked for. -/
inductive Request (P : Type) where
  | bounce (packet : P)
  | release

/-- A pool with an account of what it was asked for: the copies made, numbered in turn, and how
many buffers were given back. -/
structure Ledger (P : Type) where
  pool : BouncePool
  copies : List (Copy P) := []
  returns : Nat := 0

variable {P D : Type} [Packet P]

namespace Ledger

/-- The account after a request. A copy that failed does not enter it. -/
def serve (ledger : Ledger P) : Request P → Ledger P
  | .bounce packet =>
      match ledger.pool.bounce packet with
      | (.ok list, pool) =>
          { ledger with
            pool := pool
            copies := ledger.copies ++ [⟨ledger.copies.length, packet, list⟩] }
      | (.error _, pool) => { ledger with pool := pool }
  | .release =>
      match ledger.pool.release with
      | (true, pool) => { ledger with pool := pool, returns := ledger.returns + 1 }
      | (false, pool) => { ledger with pool := pool }

/-- The account after requests made one after another. -/
def serveAll (ledger : Ledger P) (requests : List (Request P)) : Ledger P :=
  requests.foldl serve ledger

/-- An account that agrees with its pool, whose buffers in use hold what was copied into them. -/
structure Sound (start : BouncePool) (ledger : Ledger P) : Prop where
  alike : ledger.pool.Alike start
  busyIndex_eq : ledger.pool.busyIndex = ledger.copies.length
  freeIndex_eq : ledger.pool.freeIndex = ledger.returns
  freeIndex_le : ledger.pool.freeIndex ≤ ledger.pool.busyIndex
  busyIndex_le : ledger.pool.busyIndex ≤ ledger.pool.freeIndex + ledger.pool.capacity
  filled : Queue.Filled ledger.copies ledger.pool

end Ledger

/-- The copy of a number was made, and its buffer was not given back. -/
def Outstanding (pool : BouncePool) (number : Nat) : Prop :=
  pool.freeIndex ≤ number ∧ number < pool.busyIndex

variable {pool : BouncePool}

/-- A pool is exhausted if all of its buffers are in use. -/
theorem isExhausted_iff (hfree : pool.freeIndex ≤ pool.busyIndex)
    (hbusy : pool.busyIndex ≤ pool.freeIndex + pool.capacity) :
    pool.isExhausted = true ↔ pool.busyIndex = pool.freeIndex + pool.capacity := by
  unfold isExhausted inUse capacity at *
  rw [decide_eq_true_eq]
  omega

/-- What a pool answers a packet, by the room it has and the packet's size. -/
theorem answer_bounce (hstocked : pool.Stocked) (packet : P) :
    (pool.bounce packet).1.map SgList.elements =
      if pool.isExhausted then .error .insufficientResources
      else if pool.bufferSize < Packet.totalLength packet then .error .scatterGatherOverflow
      else .ok [⟨pool.bufferAddress pool.nextBuffer, Packet.totalLength packet⟩] := by
  cases hroom : pool.isExhausted with
  | true =>
      rw [bounce_of_exhausted hroom]
      rfl
  | false =>
      rw [if_neg Bool.false_ne_true]
      split
      next hover =>
        obtain ⟨next, hbounce, _⟩ := bounce_of_oversize hstocked hroom hover
        rw [hbounce]
        rfl
      next hfits =>
        obtain ⟨next, hbounce, _⟩ := bounce_of_fits hstocked hroom (Nat.le_of_not_lt hfits)
        rw [hbounce]
        rfl

/-- Unless all buffers are in use, the next one is not. -/
theorem nextBuffer_ne (hroom : pool.isExhausted = false) {number : Nat}
    (houtstanding : pool.Outstanding number) : number % pool.count ≠ pool.nextBuffer := by
  obtain ⟨hlow, hhigh⟩ := houtstanding
  intro hsame
  unfold isExhausted inUse at hroom
  rw [decide_eq_false_iff_not] at hroom
  have heq := eq_of_mod_eq_of_near hsame (by omega) (by omega)
  omega

/-- A copy that fails takes no buffer and writes into none that is in use. -/
theorem frame_bounce (hstocked : pool.Stocked) {packet : P} {error : DmaError}
    (hfailed : (pool.bounce packet).1 = .error error) :
    (pool.bounce packet).2.busyIndex = pool.busyIndex ∧
      (pool.bounce packet).2.freeIndex = pool.freeIndex ∧
      ∀ number, pool.Outstanding number →
        (pool.bounce packet).2.buffer? (number % pool.count) =
          pool.buffer? (number % pool.count) := by
  cases hroom : pool.isExhausted with
  | true =>
      rw [bounce_of_exhausted hroom]
      exact ⟨rfl, rfl, fun _ _ => rfl⟩
  | false =>
      rcases Nat.lt_or_ge pool.bufferSize (Packet.totalLength packet) with hover | hfits
      · obtain ⟨next, hbounce, hbusy, hfree, hother⟩ := bounce_of_oversize hstocked hroom hover
        rw [hbounce]
        exact ⟨hbusy, hfree, fun _ houtstanding => hother _ (nextBuffer_ne hroom houtstanding)⟩
      · obtain ⟨next, hbounce, _⟩ := bounce_of_fits hstocked hroom hfits
        rw [hbounce] at hfailed
        cases hfailed

namespace Ledger.Sound

variable {start : BouncePool} {ledger : Ledger P} (hsound : Sound start ledger)
include hsound

theorem bounced (hstocked : start.Stocked) (packet : P) :
    Sound start (ledger.serve (.bounce packet)) := by
  have hpool := hsound.alike.stocked hstocked
  have halike := ledger.pool.alike_bounce packet
  have hcount := halike.count_eq
  unfold serve
  dsimp only
  cases hroom : ledger.pool.isExhausted with
  | true =>
      rw [bounce_of_exhausted hroom]
      exact { hsound with }
  | false =>
      have hnext : ledger.pool.busyIndex < ledger.pool.freeIndex + ledger.pool.count := by
        have hle := hsound.busyIndex_le
        unfold isExhausted inUse at hroom
        rw [decide_eq_false_iff_not] at hroom
        unfold capacity at hle
        omega
      rcases Nat.lt_or_ge ledger.pool.bufferSize (Packet.totalLength packet) with hover | hfits
      · obtain ⟨next, hbounce, hbusy, hfree, hother⟩ := bounce_of_oversize hpool hroom hover
        rw [hbounce] at halike hcount ⊢
        exact {
          alike := halike.trans hsound.alike
          busyIndex_eq := hbusy.trans hsound.busyIndex_eq
          freeIndex_eq := hfree.trans hsound.freeIndex_eq
          freeIndex_le := hbusy ▸ hfree ▸ hsound.freeIndex_le
          busyIndex_le := by
            have hle := hsound.busyIndex_le
            unfold capacity at *
            dsimp only at *
            omega
          filled := hsound.filled.touched hsound.busyIndex_eq hnext halike hfree hother }
      · obtain ⟨next, hbounce, hbusy, hfree, hcontent, hother⟩ := bounce_of_fits hpool hroom hfits
        rw [hbounce] at halike hcount ⊢
        exact {
          alike := halike.trans hsound.alike
          busyIndex_eq := by
            dsimp only
            rw [hbusy, hsound.busyIndex_eq, List.length_append, List.length_singleton]
          freeIndex_eq := hfree.trans hsound.freeIndex_eq
          freeIndex_le := by
            have hle := hsound.freeIndex_le
            dsimp only
            omega
          busyIndex_le := by
            unfold capacity
            dsimp only at *
            omega
          filled := hsound.filled.copied hsound.busyIndex_eq hnext halike hfree rfl hfits hcontent
            hother }

theorem released : Sound start (ledger.serve .release) := by
  unfold serve release
  dsimp only
  by_cases hinUse : ledger.pool.inUse = 0
  · rw [if_pos hinUse]
    exact { hsound with }
  · rw [if_neg hinUse]
    have hle := hsound.busyIndex_le
    have hlow : ledger.pool.freeIndex < ledger.pool.busyIndex := Nat.lt_of_sub_ne_zero hinUse
    exact {
      alike := ⟨hsound.alike.1, hsound.alike.2, hsound.alike.3, hsound.alike.4⟩
      busyIndex_eq := hsound.busyIndex_eq
      freeIndex_eq := congrArg (· + 1) hsound.freeIndex_eq
      freeIndex_le := hlow
      busyIndex_le := by
        unfold capacity at *
        dsimp only
        omega
      filled := hsound.filled.released (Nat.le_succ _) }

theorem serveAll (hstocked : start.Stocked) (requests : List (Request P)) :
    Sound start (ledger.serveAll requests) := by
  induction requests generalizing ledger with
  | nil => exact hsound
  | cons request rest ih =>
      cases request with
      | bounce packet => exact ih (hsound.bounced hstocked packet)
      | release => exact ih hsound.released

end Ledger.Sound

omit [Packet P] in
/-- A pool that was built holds all of its buffers in its memory. -/
theorem stocked_of_build [Adapter D] {config : Config} {adapter : D}
    (hbuild : (build config adapter : Traced P _).value.1 = .ok pool) : pool.Stocked := by
  obtain ⟨_, hcount, _, _, _, hcheck⟩ := build_eq_ok hbuild
  exact ⟨hcount ▸ config.bounceBuffers_pos, Nat.mul_comm _ _ ▸ (checkMemory_eq_ok hcheck).1⟩

/-- A pool that was built has an empty account. -/
theorem sound_of_build [Adapter D] {config : Config} {adapter : D}
    (hbuild : (build config adapter : Traced P _).value.1 = .ok pool) :
    Ledger.Sound pool (⟨pool, [], 0⟩ : Ledger P) := by
  obtain ⟨_, _, hbusy, hfree, _⟩ := build_eq_ok hbuild
  exact {
    alike := .refl pool
    busyIndex_eq := hbusy
    freeIndex_eq := hfree
    freeIndex_le := by
      dsimp only
      omega
    busyIndex_le := by
      dsimp only
      omega
    filled := ⟨nofun, nofun⟩ }

/-- A pool is a safe allocator for any caller. After any requests the buffers in use are at most
those that there are, all different and without a common byte. The copies were made into the
buffers in turn, and each that is outstanding starts with its packet's payload. A packet is
refused for want of buffers if all are in use, and otherwise exactly if it is larger than a
buffer; it then takes no buffer, and every byte of those in use stays as it was. A release gives
back the buffer taken longest ago, or does nothing if none is in use. -/
theorem allocates_in_turn [Adapter D] {config : Config} {adapter : D}
    (hbuild : (build config adapter : Traced P _).value.1 = .ok pool)
    (requests : List (Request P)) :
    let ledger := (⟨pool, [], 0⟩ : Ledger P).serveAll requests
    let last := ledger.pool
    last.freeIndex ≤ last.busyIndex ∧ last.busyIndex ≤ last.freeIndex + pool.capacity ∧
      last.busyIndex = ledger.copies.length ∧ last.freeIndex = ledger.returns ∧
      (∀ (number : Nat) (copy : Copy P), ledger.copies[number]? = some copy →
        copy.list.elements =
            [⟨pool.bufferAddress (number % pool.capacity), Packet.totalLength copy.packet⟩] ∧
          (last.Outstanding number →
            (last.buffer? (number % pool.capacity)).map
                (List.take (Packet.totalLength copy.packet)) =
              some (Packet.payload copy.packet))) ∧
      (last.takenBuffers.Pairwise fun first second => first ≠ second ∧
        ∀ address ∈ pool.bufferAddresses first, address ∉ pool.bufferAddresses second) ∧
      (∀ packet : P, (last.bounce packet).1.map SgList.elements =
        if last.busyIndex = last.freeIndex + pool.capacity then .error .insufficientResources
        else if pool.bufferSize < Packet.totalLength packet then .error .scatterGatherOverflow
        else .ok [⟨pool.bufferAddress (last.busyIndex % pool.capacity),
          Packet.totalLength packet⟩]) ∧
      (∀ (packet : P) (error : DmaError), (last.bounce packet).1 = .error error →
        let next := (last.bounce packet).2
        next.busyIndex = last.busyIndex ∧ next.freeIndex = last.freeIndex ∧
          ∀ number, last.Outstanding number →
            next.buffer? (number % pool.capacity) = last.buffer? (number % pool.capacity)) ∧
      last.release =
        if last.freeIndex = last.busyIndex then (false, last)
        else (true, { last with freeIndex := last.freeIndex + 1 }) := by
  have hsound := (sound_of_build hbuild).serveAll (stocked_of_build hbuild) requests
  obtain ⟨_, _, _, _, htotal, _⟩ := build_eq_ok hbuild
  dsimp only
  generalize (⟨pool, [], 0⟩ : Ledger P).serveAll requests = ledger at hsound ⊢
  have halike := hsound.alike
  have hstocked := halike.stocked (stocked_of_build hbuild)
  have hfree := hsound.freeIndex_le
  have hbusy := hsound.busyIndex_le
  have hcapacity : pool.capacity = ledger.pool.count := halike.count_eq.symm
  have hspan : ∀ index, pool.bufferAddresses index = ledger.pool.bufferAddresses index := by
    intro index
    unfold bufferAddresses
    rw [halike.bufferAddress_eq, halike.bufferSize_eq]
  simp only [hcapacity, hspan, ← halike.bufferAddress_eq, ← halike.bufferSize_eq]
  refine ⟨hfree, hbusy, hsound.busyIndex_eq, hsound.freeIndex_eq, ?_, ?_, ?_, ?_, ?_⟩
  · intro number copy hcopy
    exact ⟨(hsound.filled.listed number copy hcopy).1, fun houtstanding =>
      hsound.filled.stored number copy houtstanding.1 hcopy⟩
  · refine pairwise_takenBuffers ?_ (Nat.sub_le_iff_le_add'.mpr hbusy)
    rw [halike.bufferSize_eq, halike.count_eq]
    exact htotal
  · intro packet
    rw [answer_bounce hstocked]
    simp only [isExhausted_iff hfree hbusy]
    rfl
  · intro packet error hfailed
    exact frame_bounce hstocked hfailed
  · have hnone : ledger.pool.inUse = 0 ↔ ledger.pool.freeIndex = ledger.pool.busyIndex := by
      unfold inUse
      omega
    unfold release
    simp only [hnone]

section Sample

/-- Two buffers of four bytes. -/
def samplePool : BouncePool :=
  (build { maximumPacketSize := 4, bounceBufferCount := 2 } ({} : ScriptedAdapter) :
    Traced ScriptedPacket _).value.1.toOption.get rfl

/-- A packet whose second fragment does not fit a buffer behind the first. -/
def oversizePacket : ScriptedPacket where
  id := 1
  layout := [ScriptedPacket.fragment? ⟨0x1000⟩ 3 0 3, ScriptedPacket.fragment? ⟨0x2000⟩ 3 0 3]

/-- Two copies with a failed one between them, after which one buffer is given back. -/
def sampleRequests : List (Request ScriptedPacket) :=
  [.bounce Queue.samplePacket, .bounce oversizePacket, .bounce Queue.sampleMappedPacket, .release]

theorem sample_allocates_in_turn :
    (build { maximumPacketSize := 4, bounceBufferCount := 2 } ({} : ScriptedAdapter) :
        Traced ScriptedPacket _).value.1 = .ok samplePool ∧
      let last := ((⟨samplePool, [], 0⟩ : Ledger ScriptedPacket).serveAll sampleRequests).pool
      last.inUse = 1 ∧ (last.buffer? 1).map (List.take 4) =
        some (Packet.payload Queue.sampleMappedPacket) := by
  have hbuild : (build { maximumPacketSize := 4, bounceBufferCount := 2 } ({} : ScriptedAdapter) :
      Traced ScriptedPacket _).value.1 = .ok samplePool := rfl
  obtain ⟨_, _, _, _, hcopies, _⟩ := allocates_in_turn hbuild sampleRequests
  exact ⟨hbuild, rfl, (hcopies 1 _ rfl).2 ⟨by decide, by decide⟩⟩

end Sample

end BouncePool

end TransmitQueue
