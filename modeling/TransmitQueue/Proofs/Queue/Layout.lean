import TransmitQueue.Proofs.Bounce.Buffers
import TransmitQueue.Proofs.Queue.Move
import TransmitQueue.Proofs.Ring.Stages
import TransmitQueue.Proofs.Run
import TransmitQueue.Scripted.Adapter
import TransmitQueue.Scripted.Device

/-!
# The layout of a queue

What building a queue establishes, and what no later move changes: the configuration,
the number of ring slots and contexts, the backend and the room of its lists, and the
places of the bounce buffers.
-/

namespace TransmitQueue

namespace BouncePool

/-- Memory that passed the check is long enough, and the device reaches its last byte. -/
theorem checkMemory_eq_ok {config : Config} {total : Nat} {memory : CommonBuffer}
    (hcheck : checkMemory config total memory = .ok ()) :
    total ≤ memory.length ∧ ∀ highest, config.maxAddress? = some highest →
      memory.address.toNat + (total - 1) ≤ highest := by
  unfold checkMemory at hcheck
  dsimp only at hcheck
  split at hcheck
  next => cases hcheck
  next hlength =>
    refine ⟨by omega, ?_⟩
    intro highest hhighest
    rw [hhighest] at hcheck
    dsimp only at hcheck
    split at hcheck
    next => cases hcheck
    next hreach =>
      rw [decide_eq_true_eq] at hreach
      omega

/-- A pool that was built is unused, and its memory passed the check. -/
theorem build_eq_ok {P D : Type} [Adapter D] {config : Config} {adapter : D} {pool : BouncePool}
    (hbuild : (build config adapter : Traced P _).value.1 = .ok pool) :
    config.bounceBufferSize? = some pool.bufferSize ∧ pool.count = config.bounceBuffers ∧
      pool.busyIndex = 0 ∧ pool.freeIndex = 0 ∧
      pool.bufferSize * pool.count < addressSpace ∧
      checkMemory config (pool.bufferSize * pool.count) pool.memory = .ok () := by
  unfold build at hbuild
  cases hsize : config.bounceBufferSize? with
  | none =>
      rw [hsize] at hbuild
      cases hbuild
  | some size =>
      rw [hsize] at hbuild
      dsimp only at hbuild
      split at hbuild
      next => cases hbuild
      next htotal =>
        simp only [Traced.value_bind] at hbuild
        split at hbuild
        next => cases hbuild
        next memory _ =>
          cases hcheck : checkMemory config (size * config.bounceBuffers) memory with
          | error error =>
              rw [hcheck] at hbuild
              cases hbuild
          | ok =>
              rw [hcheck] at hbuild
              obtain rfl := Except.ok.inj hbuild
              exact ⟨rfl, rfl, rfl, rfl, Nat.lt_of_not_le htotal, hcheck⟩

end BouncePool

theorem PacketRing.capacity_concluded {P : Type} (ring : PacketRing P)
    (admission : Queue.Admission) : (ring.concluded admission).capacity = ring.capacity := by
  cases admission with
  | programmed => exact ring.capacity_admitNext _
  | failed failure => exact ring.capacity_admitNext _
  | stalled => exact ring.capacity_setState _ _

/-- The mapping resources that a slot holds, as its two flags tell them. -/
@[ext]
structure Holding where
  bounced : Bool
  dmaMapped : Bool
  deriving DecidableEq

namespace Holding

def nothing : Holding := ⟨false, false⟩

def bounceBuffer : Holding := ⟨true, false⟩

def mapping : Holding := ⟨false, true⟩

end Holding

namespace SlotContext

variable (context : SlotContext)

def holding : Holding := ⟨context.bounced, context.dmaMapped⟩

theorem holding_ne_nothing_iff :
    context.holding ≠ .nothing ↔ context.bounced = true ∨ context.dmaMapped = true := by
  unfold holding
  cases context.bounced <;> cases context.dmaMapped <;> decide

theorem holding_eq_nothing_iff :
    context.holding = .nothing ↔ context.bounced = false ∧ context.dmaMapped = false := by
  unfold holding
  cases context.bounced <;> cases context.dmaMapped <;> decide

end SlotContext

namespace Queue

variable {P H D : Type}

/-- A queue as it is built. -/
structure Built (config : Config) (queue : Queue P H D) : Prop where
  valid : config.Valid
  config_eq : queue.config = config
  ring_eq : queue.ring = .empty config.ringCapacity
  contexts_length : queue.contexts.length = config.ringCapacity
  nothing_held : ∀ position, (queue.context position).holding = .nothing
  mapper_fits : queue.mapper.Fits config.elementLimit config.ringCapacity
  bufferSize_eq : config.bounceBufferSize? = some queue.pool.bufferSize
  count_eq : queue.pool.count = config.bounceBuffers
  busyIndex_eq : queue.pool.busyIndex = 0
  freeIndex_eq : queue.pool.freeIndex = 0
  total_lt : queue.pool.bufferSize * queue.pool.count < addressSpace
  memory_checked : BouncePool.checkMemory config (queue.pool.bufferSize * queue.pool.count)
    queue.pool.memory = .ok ()

/-- The parts of a queue as it is built. -/
theorem build_eq_ok [Adapter D] {config : Config} {device : H} {adapter : D}
    {queue : Queue P H D} (hbuild : (build config device adapter).value = .ok queue) :
    ∃ pool, (BouncePool.build config adapter : Traced P _).value.1 = .ok pool ∧
      queue =
        let mapper := (Mapper.build config.allowBypass config.elementLimit config.ringCapacity
          adapter : Traced P Mapper).value
        { config := config
          device := device
          adapter := (BouncePool.build config adapter : Traced P _).value.2
          ring := .empty config.ringCapacity
          contexts := List.replicate config.ringCapacity
            { list := .ofLimit (mapper.slotListLimit config.elementLimit) }
          mapper := mapper
          pool := pool
          statistics := {} } := by
  unfold build at hbuild
  split at hbuild
  next => cases hbuild
  next =>
    simp only [Traced.value_bind] at hbuild
    cases hpool : (BouncePool.build config adapter : Traced P _).value.1 with
    | error error =>
        rw [hpool] at hbuild
        cases hbuild
    | ok pool =>
        rw [hpool] at hbuild
        exact ⟨pool, rfl, (Except.ok.inj hbuild).symm⟩

theorem built_of_build [Adapter D] {config : Config} {device : H} {adapter : D}
    {queue : Queue P H D} (hbuild : (build config device adapter).value = .ok queue) :
    Built config queue := by
  unfold build at hbuild
  split at hbuild
  next => cases hbuild
  next hvalid =>
    simp only [Traced.value_bind] at hbuild
    have hfits := Mapper.fits_build (P := P) config.allowBypass config.elementLimit
      config.ringCapacity adapter
    generalize (Mapper.build config.allowBypass config.elementLimit config.ringCapacity
      adapter : Traced P Mapper).value = mapper at hbuild hfits
    cases hpool : (BouncePool.build config adapter : Traced P _).value.1 with
    | error error =>
        rw [hpool] at hbuild
        cases hbuild
    | ok pool =>
        rw [hpool] at hbuild
        obtain rfl := Except.ok.inj hbuild
        obtain ⟨hsize, hcount, hbusy, hfree, htotal, hchecked⟩ := BouncePool.build_eq_ok hpool
        refine ⟨hvalid, rfl, rfl, List.length_replicate, ?_, hfits, hsize, hcount, hbusy, hfree,
          htotal, hchecked⟩
        intro position
        unfold context
        by_cases hposition : position < config.ringCapacity
        · simp only [List.getElem?_replicate_of_lt hposition, Option.getD_some]
          rfl
        · simp only [List.getElem?_replicate, if_neg hposition, Option.getD_none]
          rfl

section Sample

/-- A device that drives 32 address bits, with one bounce buffer. -/
def sampleConfig : Config :=
  { maximumPacketSize := 4, addressWidth := 32, bounceBufferCount := 1, ringCapacity := 2 }

/-- A packet out of that device's reach. -/
def samplePacket : ScriptedPacket where
  id := 1
  layout := [ScriptedPacket.fragment? ⟨0x100000000⟩ 4 0 4]

def sampleQueue (device : ScriptedDevice) : Queue ScriptedPacket ScriptedDevice ScriptedAdapter :=
  (build sampleConfig device {}).value.toOption.get rfl

/-- The packet posted, sent and taken back. -/
def sampleRun : List (Operation ScriptedPacket ScriptedDevice ScriptedAdapter) :=
  [.post samplePacket, .advance, .pop]

/-- A packet within the device's reach, which is mapped where it lies. -/
def sampleMappedPacket : ScriptedPacket where
  id := 2
  layout := [ScriptedPacket.fragment? ⟨0x1000⟩ 4 0 4]

/-- That packet posted and sent. -/
def sampleMappedRun : List (Operation ScriptedPacket ScriptedDevice ScriptedAdapter) :=
  [.post sampleMappedPacket, .advance]

end Sample

namespace Built

variable {config : Config} {queue : Queue P H D} (hbuilt : Built config queue)
include hbuilt

theorem ringCapacity_pos : 0 < config.ringCapacity :=
  Nat.pos_of_ne_zero (config.valid_iff.mp hbuilt.valid).2.2.2.2.1

theorem staged : queue.ring.Staged := by
  rw [hbuilt.ring_eq]
  exact PacketRing.staged_empty hbuilt.ringCapacity_pos

theorem stocked : queue.pool.Stocked where
  count_pos := by
    rw [hbuilt.count_eq]
    exact config.bounceBuffers_pos
  buffers_le := by
    rw [Nat.mul_comm]
    exact (BouncePool.checkMemory_eq_ok hbuilt.memory_checked).1

/-- Every packet that the device accepts fits a bounce buffer. -/
theorem maximumPacketSize_le : config.maximumPacketSize ≤ queue.pool.bufferSize :=
  Alignment.le_of_roundUp_eq_some hbuilt.bufferSize_eq

/-- The device reaches every byte of every bounce buffer. -/
theorem buffer_reached {highest index byte : Nat} (hhighest : config.maxAddress? = some highest)
    (hindex : index < queue.pool.count) (hbyte : byte < queue.pool.bufferSize) :
    (queue.pool.bufferAddress index).toNat + byte ≤ highest := by
  have hreach := (BouncePool.checkMemory_eq_ok hbuilt.memory_checked).2 highest hhighest
  have hend : (index + 1) * queue.pool.bufferSize ≤ queue.pool.count * queue.pool.bufferSize :=
    Nat.mul_le_mul_right _ hindex
  rw [Nat.succ_mul] at hend
  rw [Nat.mul_comm queue.pool.bufferSize] at hreach
  -- The buffer's address may have wrapped, and then lies lower still.
  have haddress : (queue.pool.bufferAddress index).toNat ≤
      queue.pool.memory.address.toNat + index * queue.pool.bufferSize := by
    unfold BouncePool.bufferAddress
    rw [PhysAddr.toNat_offset]
    exact Nat.mod_le _ _
  omega

end Built

/-- A queue that is laid out as another one is. -/
structure LaidOut (start queue : Queue P H D) : Prop where
  config_eq : queue.config = start.config
  capacity_eq : queue.ring.capacity = start.config.ringCapacity
  contexts_length : queue.contexts.length = start.config.ringCapacity
  backend_eq : queue.backend = start.backend
  mapper_fits : queue.mapper.Fits start.config.elementLimit start.config.ringCapacity
  pool_alike : queue.pool.Alike start.pool

theorem Built.laidOut {config : Config} {queue : Queue P H D} (hbuilt : Built config queue) :
    LaidOut queue queue where
  config_eq := rfl
  capacity_eq := by
    rw [hbuilt.ring_eq, hbuilt.config_eq]
    exact PacketRing.capacity_empty _
  contexts_length := by
    rw [hbuilt.config_eq]
    exact hbuilt.contexts_length
  backend_eq := rfl
  mapper_fits := by
    rw [hbuilt.config_eq]
    exact hbuilt.mapper_fits
  pool_alike := .refl _

theorem alike_poolReturned (queue : Queue P H D) (position : Nat) :
    (queue.poolReturned position).Alike queue.pool := by
  unfold poolReturned
  split
  next => exact queue.pool.alike_release
  next => exact .refl _

/-- A queue with as many ring slots and contexts as another one has. -/
structure SameSize (queue next : Queue P H D) : Prop where
  capacity_eq : next.ring.capacity = queue.ring.capacity
  contexts_length_eq : next.contexts.length = queue.contexts.length

/-- A queue whose ring holds its packets in stages, with a context for every slot. -/
structure Sound (queue : Queue P H D) : Prop where
  staged : queue.ring.Staged
  contexts_length : queue.contexts.length = queue.ring.capacity

theorem LaidOut.sound {start queue : Queue P H D} (hlaid : LaidOut start queue)
    (hstaged : queue.ring.Staged) : queue.Sound :=
  ⟨hstaged, hlaid.contexts_length.trans hlaid.capacity_eq.symm⟩

theorem Built.sound {config : Config} {queue : Queue P H D} (hbuilt : Built config queue) :
    queue.Sound := hbuilt.laidOut.sound hbuilt.staged

namespace Sound

variable {queue next : Queue P H D} (hsound : queue.Sound)
include hsound

theorem of_sameSize (hstaged : next.ring.Staged) (hsize : SameSize queue next) : next.Sound where
  staged := hstaged
  contexts_length := by rw [hsize.contexts_length_eq, hsize.capacity_eq, hsound.contexts_length]

/-- A packet at the admission cursor has a context to be admitted with. -/
theorem awaits {packet : P} (hpacket : (queue.ring.slot queue.ring.admitted).packet = some packet) :
    queue.Awaits packet := by
  refine ⟨hpacket, ?_⟩
  rw [hsound.contexts_length]
  exact PacketRing.position_lt hsound.staged.ordered.capacity_pos _

theorem exists_awaits (hready : queue.ring.admitted < queue.ring.posted) :
    ∃ packet, queue.Awaits packet := by
  have hordered := hsound.staged.ordered
  obtain ⟨packet, hpacket⟩ := hsound.staged.occupied queue.ring.admitted
    (Nat.le_trans hordered.taken_le hordered.released_le) hready
  exact ⟨packet, hsound.awaits hpacket⟩

end Sound

section Size

variable [Packet P] [Device P H] [Adapter D] {queue next : Queue P H D}

theorem Attempted.sameSize {packet : P} {admission : Admission} {calls : List (Event P)}
    (hattempted : Attempted queue packet admission calls next) : SameSize queue next := by
  have hcapacity := queue.ring.capacity_concluded admission
  cases hattempted with
  | skip | refuse | bounceStall | bounceFail => exact ⟨hcapacity, rfl⟩
  | bounce | map | mapStall | mapFail => exact ⟨hcapacity, List.length_set⟩

omit [Packet P] [Device P H] in
theorem Returned.sameSize {position : Nat} {calls : List (Event P)}
    (hreturned : Returned queue position calls next) : SameSize queue next := by
  cases hreturned with
  | unmapped | mapped => exact ⟨rfl, List.length_set⟩

omit [Packet P] in
theorem Scanned.sameSize {packet : P} {outcome : Option Completion} {calls : List (Event P)}
    (hscanned : Scanned queue packet outcome calls next) : SameSize queue next := by
  cases hscanned with
  | pending device => exact ⟨queue.ring.capacity_setState _ _, rfl⟩
  | released completion calls returns settled returned hsettled hreturned =>
      obtain ⟨device, statistics, rfl⟩ := hsettled.exists_device
      obtain ⟨hcapacity, hcontexts⟩ := hreturned.sameSize
      exact ⟨(returned.ring.capacity_release completion).trans hcapacity, hcontexts⟩

/-- No move changes how many slots and contexts there are. -/
theorem Moved.sameSize {move : Move P H D} (hmoved : Moved queue move next) :
    SameSize queue next := by
  cases hmoved with
  | posted packet ring hpost =>
      obtain ⟨_, rfl⟩ := PacketRing.post_eq_ok_iff.mp hpost
      exact ⟨queue.ring.capacity_setSlot _ _, rfl⟩
  | popped completed ring hpop =>
      obtain ⟨_, _, _, rfl⟩ := PacketRing.pop?_eq_some_iff.mp hpop
      exact ⟨queue.ring.capacity_setSlot _ _, rfl⟩
  | cancelled => exact ⟨(queue.ring.cancelFrom_snd _ _).1, rfl⟩
  | admitted packet admission calls _ _ _ _ hattempted => exact hattempted.sameSize
  | scanned packet outcome calls _ _ _ _ hscanned => exact hscanned.sameSize
  | rejected | nothingPopped | quiet => exact ⟨rfl, rfl⟩

end Size

section Moves

variable {start queue next : Queue P H D} (hlaid : LaidOut start queue)
include hlaid

/-- The delegated backend has a context block for every slot. -/
theorem LaidOut.exists_block {config : Config} (hbuilt : Built config start)
    (hdelegated : start.backend = .delegated) (cursor : Nat) :
    ∃ (slots stride : Nat) (contexts : ContextArena slots stride) (context : Vector UInt8 stride),
      queue.mapper = .delegated contexts ∧
        contexts.block? (queue.ring.position cursor) = some context := by
  have hfits := hlaid.mapper_fits
  have hbackend := hlaid.backend_eq.trans hdelegated
  have hcapacity := hbuilt.ringCapacity_pos
  rw [← hbuilt.config_eq, ← hlaid.capacity_eq] at hcapacity
  have hposition := PacketRing.position_lt hcapacity cursor
  rw [hlaid.capacity_eq] at hposition
  unfold backend at hbackend
  cases hmapper : queue.mapper with
  | direct scratch =>
      rw [hmapper] at hbackend
      cases hbackend
  | @delegated slots stride contexts =>
      rw [hmapper] at hfits
      have hslots : slots = start.config.ringCapacity := hfits
      have hsome : (contexts.block? (queue.ring.position cursor)).isSome = true := by
        rw [contexts.isSome_block?_iff, hslots]
        exact hposition
      obtain ⟨context, hblock⟩ := Option.isSome_iff_exists.mp hsome
      exact ⟨slots, stride, contexts, context, rfl, hblock⟩

theorem LaidOut.of_sameSize (hsize : SameSize queue next) (hconfig : next.config = queue.config)
    (hbackend : next.backend = queue.backend)
    (hfits : next.mapper.Fits start.config.elementLimit start.config.ringCapacity)
    (hpool : next.pool.Alike queue.pool) : LaidOut start next where
  config_eq := hconfig.trans hlaid.config_eq
  capacity_eq := hsize.capacity_eq.trans hlaid.capacity_eq
  contexts_length := hsize.contexts_length_eq.trans hlaid.contexts_length
  backend_eq := hbackend.trans hlaid.backend_eq
  mapper_fits := hfits
  pool_alike := hpool.trans hlaid.pool_alike

variable [Packet P] [Device P H] [Adapter D]

theorem LaidOut.attempted {packet : P} {admission : Admission} {calls : List (Event P)}
    (hattempted : Attempted queue packet admission calls next) : LaidOut start next := by
  have hsize := hattempted.sameSize
  have hbounced := queue.pool.alike_bounce packet
  have hfits := hlaid.mapper_fits
  cases hattempted with
  | skip | refuse => exact hlaid.of_sameSize hsize rfl rfl hfits (.refl _)
  | bounce list pool _ _ hbounce =>
      rw [hbounce] at hbounced
      exact hlaid.of_sameSize hsize rfl rfl hfits hbounced
  | bounceStall error pool _ _ hbounce | bounceFail error pool _ _ hbounce =>
      rw [hbounce] at hbounced
      exact hlaid.of_sameSize hsize rfl rfl hfits hbounced
  | map | mapStall | mapFail =>
      exact hlaid.of_sameSize hsize rfl (Mapper.backend_map _ _ _ _ _)
        (Mapper.fits_map _ _ _ _ _ hfits) (.refl _)

omit [Packet P] [Device P H] in
theorem LaidOut.returned {position : Nat} {calls : List (Event P)}
    (hreturned : Returned queue position calls next) : LaidOut start next := by
  have hsize := hreturned.sameSize
  have hpool := queue.alike_poolReturned position
  cases hreturned with
  | unmapped => exact hlaid.of_sameSize hsize rfl rfl hlaid.mapper_fits hpool
  | mapped mapper list adapter calls _ hunmap =>
      have hbackend := Mapper.backend_unmap (P := P) queue.mapper position
        (queue.context position).list queue.adapter
      have hfits := Mapper.fits_unmap (P := P) queue.mapper position
        (queue.context position).list queue.adapter hlaid.mapper_fits
      rw [hunmap] at hbackend hfits
      exact hlaid.of_sameSize hsize rfl hbackend hfits hpool

omit [Packet P] in
theorem LaidOut.scanned {packet : P} {outcome : Option Completion} {calls : List (Event P)}
    (hscanned : Scanned queue packet outcome calls next) : LaidOut start next := by
  have hsize := hscanned.sameSize
  cases hscanned with
  | pending device => exact hlaid.of_sameSize hsize rfl rfl hlaid.mapper_fits (.refl _)
  | released completion calls returns settled returned hsettled hreturned =>
      obtain ⟨device, statistics, rfl⟩ := hsettled.exists_device
      have hsettled : LaidOut start { queue with device := device, statistics := statistics } :=
        { hlaid with }
      have hreturned := hsettled.returned hreturned
      exact { hreturned with
        capacity_eq := (returned.ring.capacity_release completion).trans hreturned.capacity_eq }

/-- No move changes the layout. -/
theorem LaidOut.moved {move : Move P H D} (hmoved : Moved queue move next) :
    LaidOut start next := by
  have hsize := hmoved.sameSize
  cases hmoved with
  | posted | popped | cancelled | rejected | nothingPopped | quiet =>
      exact hlaid.of_sameSize hsize rfl rfl hlaid.mapper_fits (.refl _)
  | admitted packet admission calls _ _ _ _ hattempted => exact hlaid.attempted hattempted
  | scanned packet outcome calls _ _ _ _ hscanned => exact hlaid.scanned hscanned

end Moves

end Queue

end TransmitQueue
