import TransmitQueue.Proofs.Copies
import TransmitQueue.Proofs.Mapping.Span

/-!
# Ownership of bounce buffers

A packet that was copied owns its buffer until it is released. The buffers in use are, in
the order in which they were taken, those of the copies in flight, and no two of them
share a byte. A release gives back the buffer of the packet released, or none if that
packet was not copied.
-/

namespace TransmitQueue

namespace BouncePool

/-- The addresses of a buffer's bytes. -/
def bufferAddresses (pool : BouncePool) (index : Nat) : List PhysAddr :=
  (pool.bufferAddress index).span pool.bufferSize

/-- The buffers in use, the one taken longest ago first. -/
def takenBuffers (pool : BouncePool) : List Nat :=
  (List.range' pool.freeIndex pool.inUse).map (· % pool.count)

variable {pool : BouncePool}

theorem getElem?_takenBuffers {index : Nat} (hindex : index < pool.inUse) :
    pool.takenBuffers[index]? = some ((pool.freeIndex + index) % pool.count) := by
  unfold takenBuffers
  rw [List.getElem?_map, List.getElem?_range' hindex, Nat.one_mul]
  rfl

/-- Different buffers of a pool that fits the address space have no byte in common, also
where the addresses wrap. -/
theorem disjoint_bufferAddresses (htotal : pool.bufferSize * pool.count < addressSpace)
    {first second : Nat} (hfirst : first < pool.count) (hsecond : second < pool.count)
    (hne : first ≠ second) :
    ∀ address ∈ pool.bufferAddresses first, address ∉ pool.bufferAddresses second := by
  have hinside : ∀ {index byte : Nat}, index < pool.count → byte < pool.bufferSize →
      index * pool.bufferSize + byte < addressSpace := by
    intro index byte hindex hbyte
    have hend : (index + 1) * pool.bufferSize ≤ pool.count * pool.bufferSize :=
      Nat.mul_le_mul_right _ hindex
    rw [Nat.succ_mul] at hend
    rw [Nat.mul_comm] at htotal
    omega
  intro address hone hother
  obtain ⟨left, hleft, rfl⟩ := List.mem_map.mp hone
  obtain ⟨right, hright, hsame⟩ := List.mem_map.mp hother
  rw [List.mem_range] at hleft hright
  have hvalue := congrArg PhysAddr.toNat hsame
  simp only [bufferAddress, PhysAddr.offset_offset, PhysAddr.toNat_offset] at hvalue
  have hlow := hinside hfirst hleft
  have hhigh := hinside hsecond hright
  have heq := eq_of_mod_eq_of_near hvalue (by omega) (by omega)
  -- The same place in the pool's memory would lie in both buffers.
  rcases Nat.lt_or_gt_of_ne hne with hbelow | habove
  · have hapart : (first + 1) * pool.bufferSize ≤ second * pool.bufferSize :=
      Nat.mul_le_mul_right _ hbelow
    rw [Nat.succ_mul] at hapart
    omega
  · have hapart : (second + 1) * pool.bufferSize ≤ first * pool.bufferSize :=
      Nat.mul_le_mul_right _ habove
    rw [Nat.succ_mul] at hapart
    omega

/-- The buffers in use are different ones, with no byte in common. -/
theorem pairwise_takenBuffers (htotal : pool.bufferSize * pool.count < addressSpace)
    (hinUse : pool.inUse ≤ pool.count) :
    pool.takenBuffers.Pairwise fun first second => first ≠ second ∧
      ∀ address ∈ pool.bufferAddresses first, address ∉ pool.bufferAddresses second := by
  unfold takenBuffers
  rw [List.pairwise_map, List.pairwise_iff_getElem]
  intro low high hlow hhigh hless
  rw [List.length_range'] at hlow hhigh
  simp only [List.getElem_range', Nat.one_mul]
  have hpos : 0 < pool.count := by omega
  have hne : (pool.freeIndex + low) % pool.count ≠ (pool.freeIndex + high) % pool.count := by
    intro hsame
    have heq := eq_of_mod_eq_of_near hsame (by omega) (by omega)
    omega
  exact ⟨hne, disjoint_bufferAddresses htotal (Nat.mod_lt _ hpos) (Nat.mod_lt _ hpos) hne⟩

/-- Giving back the buffer taken longest ago. -/
theorem takenBuffers_cons {next : BouncePool} (hinUse : 0 < pool.inUse)
    (hcount : next.count = pool.count) (hbusy : next.busyIndex = pool.busyIndex)
    (hfree : next.freeIndex = pool.freeIndex + 1) :
    pool.takenBuffers = pool.freeIndex % pool.count :: next.takenBuffers := by
  have hrest : pool.inUse = next.inUse + 1 := by
    unfold inUse at *
    omega
  unfold takenBuffers
  rw [hrest, List.range'_succ, List.map_cons, hfree, hcount]

/-- A buffer that a copy was made into, and that holds it still. -/
structure BelongsTo {P : Type} [Packet P] (pool : BouncePool) (index : Nat) (copy : Copy P) :
    Prop where
  index_lt : index < pool.count
  elements_eq : copy.list.elements = [⟨pool.bufferAddress index, Packet.totalLength copy.packet⟩]
  length_le : Packet.totalLength copy.packet ≤ pool.bufferSize
  stored : (pool.buffer? index).map (List.take (Packet.totalLength copy.packet)) =
    some (Packet.payload copy.packet)

end BouncePool

variable {P H D : Type} [Packet P] [Device P H] [Adapter D]

namespace Queue

/-- The copies of packets in flight, in order. -/
def copiesInFlight (queue : Queue P H D) (steps : List (Step P H D)) : List (Copy P) :=
  (copies steps).filter fun copy =>
    decide (queue.ring.released ≤ copy.cursor ∧ copy.cursor < queue.ring.admitted)

/-- A queue whose bounce buffers in use are those of the copies in flight. -/
structure Allotted (steps : List (Step P H D)) (queue : Queue P H D) : Prop where
  inUse_eq : queue.bounceBuffersInUse = (queue.copiesInFlight steps).length
  inUse_le : queue.bounceBuffersInUse ≤ queue.pool.capacity
  owned : ∀ (index : Nat) (copy : Copy P), (queue.copiesInFlight steps)[index]? = some copy →
    ∃ buffer, queue.pool.takenBuffers[index]? = some buffer ∧ queue.pool.BelongsTo buffer copy
  apart : queue.pool.takenBuffers.Pairwise fun first second => first ≠ second ∧
    ∀ address ∈ queue.pool.bufferAddresses first, address ∉ queue.pool.bufferAddresses second
  held : ∀ copy ∈ queue.copiesInFlight steps,
    (queue.ring.slot copy.cursor).packet = some copy.packet

namespace Owns

variable {steps : List (Step P H D)} {queue next : Queue P H D}

/-- The copies in flight are those whose buffers were not given back. -/
theorem copiesInFlight_eq (howns : Owns steps queue) :
    queue.copiesInFlight steps = (copies steps).drop queue.pool.freeIndex := by
  -- Cursors rise from copy to copy, so the copies released are the first ones.
  have hsplit := List.take_append_drop queue.pool.freeIndex (copies steps)
  unfold copiesInFlight
  refine (congrArg (List.filter _) hsplit.symm).trans ?_
  have hgone : ((copies steps).take queue.pool.freeIndex).filter (fun copy =>
      decide (queue.ring.released ≤ copy.cursor ∧ copy.cursor < queue.ring.admitted)) = [] := by
    rw [List.filter_eq_nil_iff]
    intro copy hcopy
    obtain ⟨index, hindex, hget⟩ := List.mem_take_iff_getElem.mp hcopy
    have hreleased := howns.tallied.released_iff index copy
      (by rw [List.getElem?_eq_getElem (by omega), hget])
    rw [decide_eq_true_eq]
    omega
  have hkept : ((copies steps).drop queue.pool.freeIndex).filter (fun copy =>
      decide (queue.ring.released ≤ copy.cursor ∧ copy.cursor < queue.ring.admitted)) =
      (copies steps).drop queue.pool.freeIndex := by
    rw [List.filter_eq_self]
    intro copy hcopy
    have hadmitted := howns.tallied.admitted copy (List.mem_of_mem_drop hcopy)
    obtain ⟨index, hindex, hget⟩ := List.mem_drop_iff_getElem.mp hcopy
    have hreleased := howns.tallied.released_iff (queue.pool.freeIndex + index) copy
      (by rw [List.getElem?_eq_getElem (by omega), hget])
    rw [decide_eq_true_eq]
    omega
  rw [List.filter_append, hgone, hkept, List.nil_append]

/-- A copy whose buffer was not given back owns it. -/
theorem belongsTo (howns : Owns steps queue) (hpos : 0 < queue.pool.count) {index : Nat}
    {copy : Copy P} (hlow : queue.pool.freeIndex ≤ index)
    (hcopy : (copies steps)[index]? = some copy) :
    queue.pool.BelongsTo (index % queue.pool.count) copy where
  index_lt := Nat.mod_lt _ hpos
  elements_eq := (howns.filled.listed index copy hcopy).1
  length_le := (howns.filled.listed index copy hcopy).2
  stored := howns.filled.stored index copy hlow hcopy

/-- How many buffers are given back by a step that releases the oldest packet in flight. -/
theorem freeIndex_eq {step : Step P H D} {freed : Nat} (howns : Owns steps queue)
    (hnext : Owns (steps ++ [step]) next) (hstep : step.copied? = none)
    (hreleased : next.ring.released = queue.ring.released + 1)
    (hle : freed ≤ queue.pool.busyIndex)
    (hfreed : ∀ index (copy : Copy P), (copies steps)[index]? = some copy →
      (copy.cursor < queue.ring.released + 1 ↔ index < freed)) :
    next.pool.busyIndex = queue.pool.busyIndex ∧ next.pool.freeIndex = freed := by
  have hcopies : copies (steps ++ [step]) = copies steps := filterMap_concat_of_none hstep
  have hbusy : next.pool.busyIndex = queue.pool.busyIndex := by
    rw [hnext.tallied.busyIndex_eq, hcopies, howns.tallied.busyIndex_eq]
  refine ⟨hbusy, ?_⟩
  have hnextLe := hnext.tallied.freeIndex_le
  have hlength := howns.tallied.busyIndex_eq
  -- At the lesser of two different numbers there would be a copy both released and not.
  refine Decidable.by_contra fun hne => ?_
  have hbound : min next.pool.freeIndex freed < (copies steps).length := by omega
  have hcopy := List.getElem?_eq_getElem hbound
  have hone := hfreed _ _ hcopy
  have hother := hnext.tallied.released_iff (min next.pool.freeIndex freed) _
    ((congrArg (·[min next.pool.freeIndex freed]?) hcopies).trans hcopy)
  rw [hreleased, hone] at hother
  omega

/-- Releasing the oldest packet in flight gives back its buffer if it was copied, and no
buffer otherwise. -/
theorem takenBuffers_released {step : Step P H D} (howns : Owns steps queue)
    (hnext : Owns (steps ++ [step]) next) (hstep : step.copied? = none)
    (hreleased : next.ring.released = queue.ring.released + 1)
    (hcount : next.pool.count = queue.pool.count) (hpos : 0 < queue.pool.count) :
    (∀ copy ∈ copies steps, copy.cursor = queue.ring.released →
      ∃ index, queue.pool.BelongsTo index copy ∧
        queue.pool.takenBuffers = index :: next.pool.takenBuffers) ∧
    ((∀ copy ∈ copies steps, copy.cursor ≠ queue.ring.released) →
      next.pool.takenBuffers = queue.pool.takenBuffers) := by
  constructor
  · intro copy hcopy hcursor
    have holdest := howns.tallied.getElem?_freeIndex hcopy hcursor
    obtain ⟨hbound, _⟩ := List.getElem?_eq_some_iff.mp holdest
    rw [← howns.tallied.busyIndex_eq] at hbound
    obtain ⟨hbusy, hfree⟩ := howns.freeIndex_eq hnext hstep hreleased hbound
      (howns.tallied.freed_of_copied hcopy hcursor)
    have hinUse : 0 < queue.pool.inUse := Nat.sub_pos_of_lt hbound
    exact ⟨_, howns.belongsTo hpos (Nat.le_refl _) holdest,
      BouncePool.takenBuffers_cons hinUse hcount hbusy hfree⟩
  · intro hnone
    obtain ⟨hbusy, hfree⟩ := howns.freeIndex_eq hnext hstep hreleased howns.tallied.freeIndex_le
      (howns.tallied.freed_of_not_copied hnone)
    unfold BouncePool.takenBuffers BouncePool.inUse
    rw [hbusy, hfree, hcount]

end Owns

variable {start queue next last : Queue P H D} {config : Config} {steps : List (Step P H D)}

/-- A step that releases a packet makes no copy. -/
theorem Moved.copied?_of_released {move : Move P H D} (hmoved : Moved queue move next)
    (hreleased : next.ring.released = queue.ring.released + 1) :
    Step.copied? (⟨queue, move⟩ : Step P H D) = none := by
  cases hmoved with
  | admitted packet admission calls _ _ _ _ hattempted =>
      rw [hattempted.ring_eq, PacketRing.released_concluded] at hreleased
      exact absurd hreleased.symm (Nat.succ_ne_self _)
  | quiet move device adapter statistics hquiet => cases move <;> first | rfl | cases hquiet
  | _ => rfl

/-- The copies of a course are its calls that hand over a packet to be bounced. -/
theorem Course.mem_copies (hcourse : Course start steps last) (hbuilt : Built config start)
    {copy : Copy P} : copy ∈ copies steps ↔ ∃ step ∈ steps,
      .program copy.packet copy.list ∈ step.calls ∧
        step.before.decision copy.packet = .transmitAfterBouncing ∧
        step.before.ring.admitted = copy.cursor := by
  constructor
  · intro hcopy
    obtain ⟨step, hstep, _, hcursor, hdecision, hprogram⟩ := exists_of_mem_copies hcopy
    exact ⟨step, hstep, hprogram, hdecision, hcursor⟩
  · rintro ⟨step, hstep, hprogram, hdecision, hcursor⟩
    obtain ⟨_, _, _, hfirst, hready, _⟩ := hcourse.exists_of_mem hstep
    have hmoved := (hfirst.sound hbuilt.sound).moved hready
    obtain ⟨hmove, _, _, hattempted⟩ := hmoved.admit_of_program hprogram
    obtain ⟨list, hprograms, _⟩ := hattempted.of_programmed
    have hprograms : programs step.calls = [(copy.packet, list)] := hprograms
    have hlist : (copy.packet, copy.list) ∈ programs step.calls := mem_programs.mpr hprogram
    rw [hprograms, List.mem_singleton] at hlist
    cases hlist
    refine List.mem_filterMap.mpr ⟨step, hstep, ?_⟩
    unfold Step.copied?
    rw [hmove, hprograms]
    dsimp only
    rw [if_pos hdecision, hcursor]

theorem Course.allotted (hcourse : Course start steps last) (hbuilt : Built config start) :
    Allotted steps last := by
  have howns := hcourse.owns hbuilt
  have hlaid := hcourse.laidOut hbuilt
  have hordered := (hcourse.staged hbuilt.sound).ordered
  have hpos := (hlaid.pool_alike.stocked hbuilt.stocked).count_pos
  have hinUse : last.pool.inUse ≤ last.pool.count :=
    Nat.sub_le_iff_le_add'.mpr howns.tallied.inUse_le
  have htotal : last.pool.bufferSize * last.pool.count < addressSpace := by
    rw [hlaid.pool_alike.bufferSize_eq, hlaid.pool_alike.count_eq]
    exact hbuilt.total_lt
  refine ⟨?_, hinUse, ?_, BouncePool.pairwise_takenBuffers htotal hinUse, ?_⟩
  · rw [howns.copiesInFlight_eq, List.length_drop, ← howns.tallied.busyIndex_eq]
    rfl
  · intro index copy hcopy
    rw [howns.copiesInFlight_eq, List.getElem?_drop] at hcopy
    obtain ⟨hbound, _⟩ := List.getElem?_eq_some_iff.mp hcopy
    rw [← howns.tallied.busyIndex_eq] at hbound
    refine ⟨_, BouncePool.getElem?_takenBuffers ?_,
      howns.belongsTo hpos (Nat.le_add_right _ _) hcopy⟩
    unfold BouncePool.inUse
    omega
  · intro copy hcopy
    obtain ⟨hmember, hflight⟩ := List.mem_filter.mp hcopy
    rw [decide_eq_true_eq] at hflight
    obtain ⟨step, hstep, _, hcursor, _, hprogram⟩ := exists_of_mem_copies hmember
    have htaken := hordered.taken_le
    have hadmitted := hordered.admitted_le
    rw [(hcourse.holds hbuilt).held copy.cursor (by omega) (by omega), ← hcursor]
    exact hcourse.accepted_of_program hbuilt hstep hprogram

/-- In every run each packet in flight that was copied owns the bounce buffer that its
list names: no two such packets share a byte, the buffer holds the payload, and no other
buffer is in use. A release gives back the buffer of the packet released, if that packet
was copied, and no buffer otherwise. The steps in which the packets were copied are those
that make the calls of the run. -/
theorem copies_own_buffers {config : Config} {device : H} {adapter : D} {queue : Queue P H D}
    (hbuild : (build config device adapter).value = .ok queue)
    (operations : List (Operation P H D)) :
    Course queue (queue.course operations) (queue.after operations) ∧
      (queue.run operations).events = (queue.course operations).flatMap Step.calls ∧
      (∀ copy : Copy P, copy ∈ copies (queue.course operations) ↔
        ∃ step ∈ queue.course operations, .program copy.packet copy.list ∈ step.calls ∧
          step.before.decision copy.packet = .transmitAfterBouncing ∧
          step.before.ring.admitted = copy.cursor) ∧
      Allotted (queue.course operations) (queue.after operations) ∧
      ∀ earlier step later, queue.course operations = earlier ++ step :: later →
        step.after.ring.released = step.before.ring.released + 1 →
        (∀ copy ∈ copies earlier, copy.cursor = step.before.ring.released →
          ∃ index, step.before.pool.BelongsTo index copy ∧
            step.before.pool.takenBuffers = index :: step.after.pool.takenBuffers) ∧
        ((∀ copy ∈ copies earlier, copy.cursor ≠ step.before.ring.released) →
          step.after.pool.takenBuffers = step.before.pool.takenBuffers) := by
  have hbuilt := built_of_build hbuild
  have hcourse := queue.course_run operations
  refine ⟨hcourse, queue.events_run operations, fun copy => hcourse.mem_copies hbuilt,
    hcourse.allotted hbuilt, ?_⟩
  intro earlier step later hsplit hreleased
  obtain ⟨hfirst, hready, _⟩ := hcourse.split hsplit
  have hmoved : Moved step.before step.move step.after :=
    (hfirst.sound hbuilt.sound).moved hready
  have hlaid := hfirst.laidOut hbuilt
  have hnext : Owns (earlier ++ [step]) step.after := (hfirst.snoc hready).owns hbuilt
  have hcount : step.after.pool.count = step.before.pool.count :=
    (hlaid.moved hmoved).pool_alike.count_eq.trans hlaid.pool_alike.count_eq.symm
  have hpos := (hlaid.pool_alike.stocked hbuilt.stocked).count_pos
  exact (hfirst.owns hbuilt).takenBuffers_released hnext
    (hmoved.copied?_of_released hreleased) hreleased hcount hpos

theorem sample_copy_owns_buffer :
    (build sampleConfig (ScriptedDevice.hold {} 1) ({} : ScriptedAdapter)).value =
        .ok (sampleQueue (.hold {} 1)) ∧
      ((sampleQueue (.hold {} 1)).after sampleRun).bounceBuffersInUse = 1 ∧
      Allotted ((sampleQueue (.hold {} 1)).course sampleRun)
        ((sampleQueue (.hold {} 1)).after sampleRun) := by
  have hbuild : (build sampleConfig (ScriptedDevice.hold {} 1) ({} : ScriptedAdapter)).value =
      .ok (sampleQueue (.hold {} 1)) := rfl
  exact ⟨hbuild, rfl, (copies_own_buffers hbuild sampleRun).2.2.2.1⟩

end Queue

end TransmitQueue
