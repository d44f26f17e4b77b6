import TransmitQueue.Proofs.Fifo
import TransmitQueue.Proofs.Queue.Verdict

/-!
# Copies

The packets that a course hands to the device as copies, in order, and how they
correspond to the buffers of the pool. The pool knows nothing of packets: it counts
buffers taken and given back. What ties the two together is that copies are made and
released in the order of their cursors, and that a slot remembers whether its packet was
copied.
-/

namespace TransmitQueue

/-- A packet handed to the device as a copy, with its cursor and its list. -/
structure Copy (P : Type) where
  cursor : Nat
  packet : P
  list : SgList

variable {P H D : Type} [Packet P] [Device P H] [Adapter D]

/-- The copy that a step makes. -/
def Step.copied? (step : Step P H D) : Option (Copy P) :=
  match step.move, programs step.calls with
  | .attempt, [(packet, list)] =>
      if step.before.decision packet = .transmitAfterBouncing then
        some ⟨step.before.ring.admitted, packet, list⟩
      else none
  | _, _ => none

/-- The copies that steps make, in order. -/
def copies (steps : List (Step P H D)) : List (Copy P) := steps.filterMap Step.copied?

/-- A copy stands for a call of its course. -/
theorem exists_of_mem_copies {steps : List (Step P H D)} {copy : Copy P}
    (hcopy : copy ∈ copies steps) : ∃ step ∈ steps, step.move = .attempt ∧
      step.before.ring.admitted = copy.cursor ∧
      step.before.decision copy.packet = .transmitAfterBouncing ∧
      .program copy.packet copy.list ∈ step.calls := by
  obtain ⟨step, hstep, hcopied⟩ := List.mem_filterMap.mp hcopy
  unfold Step.copied? at hcopied
  split at hcopied
  next packet list hmove hprograms =>
    split at hcopied
    next hdecision =>
      cases hcopied
      have hprogram : (packet, list) ∈ programs step.calls := by
        rw [hprograms]
        exact List.mem_singleton_self _
      exact ⟨step, hstep, hmove, rfl, hdecision, mem_programs.mp hprogram⟩
    next => cases hcopied
  next => cases hcopied

namespace Queue

/-- What the slot of a cursor holds for its packet. -/
def holdingAt (queue : Queue P H D) (cursor : Nat) : Holding :=
  (queue.context (queue.ring.position cursor)).holding

/-- A queue that has taken a buffer for each copy made, in order, and has given back those
of the copies that were released. -/
structure Tallied (made : List (Copy P)) (queue : Queue P H D) : Prop where
  busyIndex_eq : queue.pool.busyIndex = made.length
  freeIndex_le : queue.pool.freeIndex ≤ queue.pool.busyIndex
  inUse_le : queue.pool.busyIndex ≤ queue.pool.freeIndex + queue.pool.count
  increasing : made.Pairwise fun first second => first.cursor < second.cursor
  admitted : ∀ copy ∈ made, copy.cursor < queue.ring.admitted
  released_iff : ∀ (index : Nat) (copy : Copy P), made[index]? = some copy →
    (copy.cursor < queue.ring.released ↔ index < queue.pool.freeIndex)

/-- A pool whose buffers were listed for the copies made, in turn, and hold those of the
copies whose buffers were not given back. -/
structure Filled (made : List (Copy P)) (pool : BouncePool) : Prop where
  listed : ∀ (index : Nat) (copy : Copy P), made[index]? = some copy →
    copy.list.elements =
        [⟨pool.bufferAddress (index % pool.count), Packet.totalLength copy.packet⟩] ∧
      Packet.totalLength copy.packet ≤ pool.bufferSize
  stored : ∀ (index : Nat) (copy : Copy P), pool.freeIndex ≤ index → made[index]? = some copy →
    (pool.buffer? (index % pool.count)).map (List.take (Packet.totalLength copy.packet)) =
      some (Packet.payload copy.packet)

/-- A queue whose slots say which of the packets in flight were copied. -/
structure Marked (made : List (Copy P)) (queue : Queue P H D) : Prop where
  holding_iff : ∀ cursor, queue.ring.released ≤ cursor → cursor < queue.ring.admitted →
    ((queue.holdingAt cursor).bounced = true ↔ ∃ copy ∈ made, copy.cursor = cursor)
  vacant : ∀ cursor, queue.ring.admitted ≤ cursor →
    cursor < queue.ring.released + queue.ring.capacity → queue.holdingAt cursor = .nothing

/-- A queue whose pool and slots stand as the copies of a course call for. -/
structure Owns (steps : List (Step P H D)) (queue : Queue P H D) : Prop where
  tallied : Tallied (copies steps) queue
  filled : Filled (copies steps) queue.pool
  marked : Marked (copies steps) queue

omit [Packet P] [Device P H] [Adapter D] in
/-- A slot's holding after one slot's context was replaced. -/
theorem holdingAt_of_set {queue next : Queue P H D} {written cursor : Nat} {context : SlotContext}
    (hcontexts : next.contexts = queue.contexts.set (queue.ring.position written) context)
    (hcapacity : next.ring.capacity = queue.ring.capacity)
    (hlength : queue.contexts.length = queue.ring.capacity) (hpos : 0 < queue.ring.capacity)
    (hlow : written < cursor + queue.ring.capacity)
    (hhigh : cursor < written + queue.ring.capacity) :
    next.holdingAt cursor =
      if cursor = written then context.holding else queue.holdingAt cursor := by
  have hposition : next.ring.position cursor = queue.ring.position cursor := by
    unfold PacketRing.position
    rw [hcapacity]
  have hinside : queue.ring.position written < queue.contexts.length := by
    rw [hlength]
    exact PacketRing.position_lt hpos written
  unfold holdingAt Queue.context
  rw [hposition, hcontexts]
  split
  next heq =>
    rw [heq, List.getElem?_set_self hinside]
    rfl
  next hne =>
    rw [List.getElem?_set_ne fun hsame => hne (PacketRing.position_inj hsame.symm hhigh hlow)]

section Copies

variable {made : List (Copy P)} {queue next : Queue P H D} {packet : P} {list : SgList}
  {freed : Nat}

omit [Packet P] in
/-- A copy made before, or the one just made, which stands at the end. -/
theorem getElem?_concat_cases {new copy : Copy P} {index : Nat}
    (hcopy : (made ++ [new])[index]? = some copy) :
    made[index]? = some copy ∧ index < made.length ∨ index = made.length ∧ copy = new := by
  rcases Nat.lt_or_ge index made.length with hbefore | hafter
  · rw [List.getElem?_append_left hbefore] at hcopy
    exact Or.inl ⟨hcopy, hbefore⟩
  · rw [List.getElem?_append_right hafter] at hcopy
    obtain ⟨hbound, heq⟩ := List.getElem?_eq_some_iff.mp hcopy
    rw [List.length_singleton] at hbound
    rw [List.getElem_singleton] at heq
    exact Or.inr ⟨by omega, heq.symm⟩

namespace Tallied

omit [Packet P] [Device P H] [Adapter D]

theorem kept (htallied : Tallied made queue) (hpool : next.pool = queue.pool)
    (hreleased : next.ring.released = queue.ring.released)
    (hadmitted : queue.ring.admitted ≤ next.ring.admitted) : Tallied made next := by
  refine ⟨?_, ?_, ?_, htallied.increasing, ?_, ?_⟩
  · rw [hpool]
    exact htallied.busyIndex_eq
  · rw [hpool]
    exact htallied.freeIndex_le
  · rw [hpool]
    exact htallied.inUse_le
  · intro copy hcopy
    exact Nat.lt_of_lt_of_le (htallied.admitted copy hcopy) hadmitted
  · rw [hreleased, hpool]
    exact htallied.released_iff

theorem copied (htallied : Tallied made queue)
    (hroom : queue.pool.busyIndex < queue.pool.freeIndex + queue.pool.count)
    (hcount : next.pool.count = queue.pool.count)
    (hbusy : next.pool.busyIndex = queue.pool.busyIndex + 1)
    (hfree : next.pool.freeIndex = queue.pool.freeIndex)
    (hreleased : next.ring.released = queue.ring.released)
    (hadmitted : next.ring.admitted = queue.ring.admitted + 1)
    (horder : queue.ring.released ≤ queue.ring.admitted) :
    Tallied (made ++ [⟨queue.ring.admitted, packet, list⟩]) next := by
  have hlength := htallied.busyIndex_eq
  have hfreed := htallied.freeIndex_le
  refine ⟨?_, ?_, ?_, ?_, ?_, ?_⟩
  · rw [hbusy, List.length_append, hlength]
    rfl
  · omega
  · rw [hbusy, hfree, hcount]
    omega
  · rw [List.pairwise_append]
    refine ⟨htallied.increasing, List.pairwise_singleton _ _, ?_⟩
    intro copy hcopy new hnew
    rw [List.mem_singleton.mp hnew]
    exact htallied.admitted copy hcopy
  · rw [hadmitted]
    intro copy hcopy
    rcases List.mem_append.mp hcopy with hbefore | hnew
    · exact Nat.lt_succ_of_lt (htallied.admitted copy hbefore)
    · rw [List.mem_singleton.mp hnew]
      exact Nat.lt_succ_self _
  · rw [hreleased, hfree]
    intro index copy hcopy
    rcases getElem?_concat_cases hcopy with ⟨hbefore, _⟩ | ⟨rfl, rfl⟩
    · exact htallied.released_iff index copy hbefore
    · dsimp only
      omega

/-- The oldest packet in flight is released, and buffers are given back up to one that was
taken for a later packet. -/
theorem released (htallied : Tallied made queue)
    (hpool : next.pool = { queue.pool with freeIndex := freed })
    (hlow : queue.pool.freeIndex ≤ freed) (hhigh : freed ≤ queue.pool.busyIndex)
    (hfreed : ∀ (index : Nat) (copy : Copy P), made[index]? = some copy →
      (copy.cursor < queue.ring.released + 1 ↔ index < freed))
    (hreleased : next.ring.released = queue.ring.released + 1)
    (hadmitted : next.ring.admitted = queue.ring.admitted) : Tallied made next := by
  refine ⟨?_, ?_, ?_, htallied.increasing, ?_, ?_⟩
  · rw [hpool]
    exact htallied.busyIndex_eq
  · rw [hpool]
    exact hhigh
  · rw [hpool]
    exact Nat.le_trans htallied.inUse_le (Nat.add_le_add_right hlow _)
  · rw [hadmitted]
    exact htallied.admitted
  · rw [hreleased, hpool]
    exact hfreed

/-- The copy of the oldest packet in flight is the oldest one whose buffer is in use. -/
theorem getElem?_freeIndex (htallied : Tallied made queue) {copy : Copy P} (hcopy : copy ∈ made)
    (hcursor : copy.cursor = queue.ring.released) :
    made[queue.pool.freeIndex]? = some copy := by
  obtain ⟨index, hindex, hget⟩ := List.mem_iff_getElem.mp hcopy
  have hsome : made[index]? = some copy := by
    rw [List.getElem?_eq_getElem hindex, hget]
  have hlow := htallied.released_iff index copy hsome
  rcases Nat.lt_trichotomy index queue.pool.freeIndex with hbelow | hhere | habove
  · omega
  · exact hhere ▸ hsome
  · -- An older copy would have been released before.
    have hfree : queue.pool.freeIndex < made.length := by omega
    have hless := List.pairwise_iff_getElem.mp htallied.increasing _ _ hfree hindex habove
    have hold := htallied.released_iff queue.pool.freeIndex _ (List.getElem?_eq_getElem hfree)
    rw [hget] at hless
    omega

/-- Where the oldest packet in flight was copied, its buffer is the one taken longest ago. -/
theorem freed_of_copied (htallied : Tallied made queue) {oldest : Copy P}
    (hoccurs : oldest ∈ made) (hcursor : oldest.cursor = queue.ring.released)
    (index : Nat) (copy : Copy P) (hcopy : made[index]? = some copy) :
    copy.cursor < queue.ring.released + 1 ↔ index < queue.pool.freeIndex + 1 := by
  have holdest := htallied.getElem?_freeIndex hoccurs hcursor
  have hbefore := htallied.released_iff index copy hcopy
  rcases Nat.lt_trichotomy index queue.pool.freeIndex with hbelow | rfl | habove
  · omega
  · rw [holdest] at hcopy
    cases hcopy
    omega
  · obtain ⟨hfirst, hget⟩ := List.getElem?_eq_some_iff.mp holdest
    obtain ⟨hsecond, hgot⟩ := List.getElem?_eq_some_iff.mp hcopy
    have hless := List.pairwise_iff_getElem.mp htallied.increasing _ _ hfirst hsecond habove
    rw [hget, hgot] at hless
    omega

/-- Where it was not, no buffer is due. -/
theorem freed_of_not_copied (htallied : Tallied made queue)
    (hnone : ∀ copy ∈ made, copy.cursor ≠ queue.ring.released) (index : Nat)
    (copy : Copy P) (hcopy : made[index]? = some copy) :
    copy.cursor < queue.ring.released + 1 ↔ index < queue.pool.freeIndex := by
  have hother := hnone copy (List.mem_of_getElem? hcopy)
  rw [← htallied.released_iff index copy hcopy]
  omega

end Tallied

namespace Filled

variable {pool after : BouncePool} {cursor : Nat}

omit [Device P H] [Adapter D]

/-- The next buffer is none of those in use, so whatever is written into it does no harm. -/
theorem touched (hfilled : Filled made pool) (hlength : pool.busyIndex = made.length)
    (hroom : pool.busyIndex < pool.freeIndex + pool.count) (halike : after.Alike pool)
    (hfree : after.freeIndex = pool.freeIndex)
    (hother : ∀ other, other ≠ pool.nextBuffer → after.buffer? other = pool.buffer? other) :
    Filled made after where
  listed index copy hcopy := by
    rw [halike.bufferAddress_eq, halike.count_eq, halike.bufferSize_eq]
    exact hfilled.listed index copy hcopy
  stored index copy hlow hcopy := by
    rw [hfree] at hlow
    rw [halike.count_eq]
    obtain ⟨hhigh, _⟩ := List.getElem?_eq_some_iff.mp hcopy
    -- Fewer copies than buffers lie between one in use and the next.
    have hne : index % pool.count ≠ pool.nextBuffer := by
      intro hsame
      have heq := eq_of_mod_eq_of_near hsame (by omega) (by omega)
      omega
    rw [hother _ hne]
    exact hfilled.stored index copy hlow hcopy

/-- A packet is copied into the next buffer. -/
theorem copied (hfilled : Filled made pool) (hlength : pool.busyIndex = made.length)
    (hroom : pool.busyIndex < pool.freeIndex + pool.count) (halike : after.Alike pool)
    (hfree : after.freeIndex = pool.freeIndex)
    (hlist : list.elements = [⟨pool.bufferAddress pool.nextBuffer, Packet.totalLength packet⟩])
    (hsize : Packet.totalLength packet ≤ pool.bufferSize)
    (hcontent : (after.buffer? pool.nextBuffer).map (List.take (Packet.totalLength packet)) =
      some (Packet.payload packet))
    (hother : ∀ other, other ≠ pool.nextBuffer → after.buffer? other = pool.buffer? other) :
    Filled (made ++ [⟨cursor, packet, list⟩]) after := by
  have htouched := hfilled.touched hlength hroom halike hfree hother
  have hnext : made.length % after.count = pool.nextBuffer := by
    rw [halike.count_eq, ← hlength]
    rfl
  refine ⟨fun index copy hcopy => ?_, fun index copy hlow hcopy => ?_⟩
  · rcases getElem?_concat_cases hcopy with ⟨hbefore, _⟩ | ⟨rfl, rfl⟩
    · exact htouched.listed index copy hbefore
    · rw [hnext, halike.bufferAddress_eq, halike.bufferSize_eq]
      exact ⟨hlist, hsize⟩
  · rcases getElem?_concat_cases hcopy with ⟨hbefore, _⟩ | ⟨rfl, rfl⟩
    · exact htouched.stored index copy hlow hbefore
    · rw [hnext]
      exact hcontent

theorem released (hfilled : Filled made pool) (hlow : pool.freeIndex ≤ freed) :
    Filled made { pool with freeIndex := freed } where
  listed := hfilled.listed
  stored index copy hindex hcopy := hfilled.stored index copy (Nat.le_trans hlow hindex) hcopy

end Filled

namespace Marked

omit [Packet P] [Device P H] [Adapter D]

/-- No slot in use starts or ceases to say that its packet was copied, and a packet that
was passed over was not copied. -/
theorem kept (hmarked : Marked made queue)
    (hmade : ∀ copy ∈ made, copy.cursor < queue.ring.admitted)
    (hcapacity : next.ring.capacity = queue.ring.capacity)
    (hreleased : next.ring.released = queue.ring.released)
    (hspan : next.ring.admitted ≤ queue.ring.released + queue.ring.capacity)
    (hholding : ∀ cursor, queue.ring.released ≤ cursor →
      cursor < queue.ring.released + queue.ring.capacity →
      (next.holdingAt cursor).bounced = (queue.holdingAt cursor).bounced)
    (hvacant : ∀ cursor, next.ring.admitted ≤ cursor →
      cursor < queue.ring.released + queue.ring.capacity → next.holdingAt cursor = .nothing) :
    Marked made next := by
  refine ⟨?_, ?_⟩
  · intro cursor hlow hhigh
    rw [hreleased] at hlow
    rw [hholding cursor hlow (by omega)]
    rcases Nat.lt_or_ge cursor queue.ring.admitted with hbefore | hpassed
    · exact hmarked.holding_iff cursor hlow hbefore
    · -- The slot was vacant before the packet came by.
      rw [hmarked.vacant cursor hpassed (by omega)]
      refine ⟨nofun, ?_⟩
      rintro ⟨copy, hcopy, rfl⟩
      exact absurd (hmade copy hcopy) (Nat.not_lt.mpr hpassed)
  · intro cursor hlow hhigh
    rw [hreleased, hcapacity] at hhigh
    exact hvacant cursor hlow hhigh

theorem copied (hmarked : Marked made queue)
    (hcapacity : next.ring.capacity = queue.ring.capacity)
    (hreleased : next.ring.released = queue.ring.released)
    (hadmitted : next.ring.admitted = queue.ring.admitted + 1)
    (horder : queue.ring.released ≤ queue.ring.admitted)
    (hspan : queue.ring.admitted < queue.ring.released + queue.ring.capacity)
    {held : Holding} (hbounced : held.bounced = true)
    (hholding : ∀ cursor, queue.ring.released ≤ cursor →
      cursor < queue.ring.released + queue.ring.capacity → next.holdingAt cursor =
        if cursor = queue.ring.admitted then held else queue.holdingAt cursor) :
    Marked (made ++ [⟨queue.ring.admitted, packet, list⟩]) next := by
  refine ⟨?_, ?_⟩
  · intro cursor hlow hhigh
    rw [hreleased] at hlow
    rw [hadmitted] at hhigh
    rw [hholding cursor hlow (by omega)]
    by_cases hnew : cursor = queue.ring.admitted
    · rw [if_pos hnew]
      refine ⟨fun _ => ⟨_, List.mem_append_right _ (List.mem_singleton_self _), hnew.symm⟩,
        fun _ => hbounced⟩
    · rw [if_neg hnew, hmarked.holding_iff cursor hlow (by omega)]
      constructor
      · rintro ⟨copy, hcopy, hcursor⟩
        exact ⟨copy, List.mem_append_left _ hcopy, hcursor⟩
      · rintro ⟨copy, hcopy, hcursor⟩
        rcases List.mem_append.mp hcopy with hbefore | hlast
        · exact ⟨copy, hbefore, hcursor⟩
        · rw [List.mem_singleton.mp hlast] at hcursor
          exact False.elim (hnew hcursor.symm)
  · intro cursor hlow hhigh
    rw [hadmitted] at hlow
    rw [hreleased, hcapacity] at hhigh
    rw [hholding cursor (by omega) hhigh, if_neg (by omega)]
    exact hmarked.vacant cursor (by omega) hhigh

/-- The slot of a packet just released comes round again, and holds nothing. -/
theorem released (hmarked : Marked made queue)
    (hcapacity : next.ring.capacity = queue.ring.capacity)
    (hreleased : next.ring.released = queue.ring.released + 1)
    (hadmitted : next.ring.admitted = queue.ring.admitted)
    (hbusy : queue.ring.released < queue.ring.admitted)
    (hspan : queue.ring.admitted ≤ queue.ring.released + queue.ring.capacity)
    (hholding : ∀ cursor, queue.ring.released ≤ cursor →
      cursor < queue.ring.released + queue.ring.capacity → next.holdingAt cursor =
        if cursor = queue.ring.released then .nothing else queue.holdingAt cursor) :
    Marked made next := by
  refine ⟨?_, ?_⟩
  · intro cursor hfirst hlast
    rw [hreleased] at hfirst
    rw [hadmitted] at hlast
    rw [hholding cursor (by omega) (by omega), if_neg (by omega)]
    exact hmarked.holding_iff cursor (by omega) hlast
  · intro cursor hfirst hlast
    rw [hadmitted] at hfirst
    rw [hreleased, hcapacity] at hlast
    by_cases hwrapped : cursor = queue.ring.released + queue.ring.capacity
    · have hsame : next.holdingAt cursor = next.holdingAt queue.ring.released := by
        unfold holdingAt PacketRing.position
        rw [hcapacity, hwrapped, Nat.add_mod_right]
      rw [hsame, hholding queue.ring.released (Nat.le_refl _) (by omega), if_pos rfl]
    · rw [hholding cursor (by omega) (by omega), if_neg (by omega)]
      exact hmarked.vacant cursor hfirst (by omega)

end Marked

end Copies

variable {start queue next last : Queue P H D} {config : Config} {packet : P}

/-- What an attempt does to the pool and the slots: it copies its packet into the next
buffer and marks the slot, or it leaves the pool alone and marks no slot as copied. -/
theorem Attempted.copied_or {admission : Admission} {calls : List (Event P)}
    (hattempted : Attempted queue packet admission calls next) (hbuilt : Built config start)
    (hlaid : LaidOut start queue) :
    (∃ list, admission = .programmed ∧ queue.decision packet = .transmitAfterBouncing ∧
      programs calls = [(packet, list)] ∧ queue.pool.bounce packet = (.ok list, next.pool) ∧
      next.contexts = queue.contexts.set queue.admitPosition
        { queue.context queue.admitPosition with bounced := true }) ∨
    (programs calls = [] ∨ queue.decision packet ≠ .transmitAfterBouncing) ∧
      next.pool = queue.pool ∧
      (next.contexts = queue.contexts ∨ ∃ context,
        next.contexts = queue.contexts.set queue.admitPosition context ∧
          context.bounced = (queue.context queue.admitPosition).bounced ∧
          (context.dmaMapped = (queue.context queue.admitPosition).dmaMapped ∨
            admission ≠ .stalled)) := by
  have hcalls := hattempted.calls
  cases hattempted with
  | skip => exact Or.inr ⟨Or.inl rfl, rfl, Or.inl rfl⟩
  | refuse => exact Or.inr ⟨Or.inl (hcalls.2.1 nofun), rfl, Or.inl rfl⟩
  | bounce list pool _ hdecision hbounce =>
      rw [consult_decision] at hdecision
      obtain ⟨hnone, _⟩ := queue.calls_consult packet
      refine Or.inl ⟨list, rfl, hdecision, ?_, hbounce, rfl⟩
      rw [programs_append, hnone]
      rfl
  | bounceStall error pool _ hdecision hbounce =>
      rw [consult_decision] at hdecision
      obtain ⟨_, hpool, _⟩ := bounce_eq_error hbuilt hlaid (by rw [hdecision]; nofun) hbounce
      exact Or.inr ⟨Or.inl (hcalls.2.1 nofun), hpool, Or.inl rfl⟩
  | bounceFail error pool _ hdecision hbounce hfailed =>
      rw [consult_decision] at hdecision
      obtain ⟨rfl, _⟩ := bounce_eq_error hbuilt hlaid (by rw [hdecision]; nofun) hbounce
      cases hfailed
  | map list _ hdecision =>
      rw [consult_decision] at hdecision
      exact Or.inr ⟨Or.inr (by rw [hdecision]; nofun), rfl, Or.inr ⟨_, rfl, rfl, Or.inr nofun⟩⟩
  | mapStall | mapFail =>
      exact Or.inr ⟨Or.inl (hcalls.2.1 nofun), rfl, Or.inr ⟨_, rfl, rfl, Or.inl rfl⟩⟩

omit [Packet P] [Device P H] in
/-- What a look does to the pool and the slots: a slot that says that its packet was
copied gives back a buffer, and no slot says so after its packet was released. -/
theorem Returned.pool_eq {position : Nat} {calls : List (Event P)}
    (hreturned : Returned queue position calls next) :
    next.pool = queue.poolReturned position ∧
      ∃ list, next.contexts = queue.contexts.set position { list := list } := by
  cases hreturned with
  | unmapped => exact ⟨rfl, _, rfl⟩
  | mapped mapper list => exact ⟨rfl, list, rfl⟩

variable {steps : List (Step P H D)}

omit [Packet P] [Device P H] [Adapter D] in
theorem holdingAt_of_contexts_eq (hcontexts : next.contexts = queue.contexts)
    (hcapacity : next.ring.capacity = queue.ring.capacity) (cursor : Nat) :
    next.holdingAt cursor = queue.holdingAt cursor := by
  unfold holdingAt Queue.context PacketRing.position
  rw [hcontexts, hcapacity]

theorem Owns.kept (howns : Owns steps queue) {step : Step P H D} (hstep : step.copied? = none)
    (hpool : next.pool = queue.pool) (hcapacity : next.ring.capacity = queue.ring.capacity)
    (hreleased : next.ring.released = queue.ring.released)
    (hadmitted : queue.ring.admitted ≤ next.ring.admitted)
    (hspan : next.ring.admitted ≤ queue.ring.released + queue.ring.capacity)
    (hholding : ∀ cursor, queue.ring.released ≤ cursor →
      cursor < queue.ring.released + queue.ring.capacity →
      (next.holdingAt cursor).bounced = (queue.holdingAt cursor).bounced)
    (hvacant : ∀ cursor, next.ring.admitted ≤ cursor →
      cursor < queue.ring.released + queue.ring.capacity → next.holdingAt cursor = .nothing) :
    Owns (steps ++ [step]) next := by
  have hcopies : copies (steps ++ [step]) = copies steps := filterMap_concat_of_none hstep
  refine ⟨?_, ?_, ?_⟩
  · rw [hcopies]
    exact howns.tallied.kept hpool hreleased hadmitted
  · rw [hcopies, hpool]
    exact howns.filled
  · rw [hcopies]
    exact howns.marked.kept howns.tallied.admitted hcapacity hreleased hspan hholding hvacant

section Attempt

variable {admission : Admission} {calls : List (Event P)} {list : SgList}

/-- The slots after an attempt that replaced the context of its packet's slot. -/
theorem Attempted.holdingAt_of_set (hattempted : Attempted queue packet admission calls next)
    (hlaid : LaidOut start queue) (hstaged : queue.ring.Staged)
    (hready : queue.ring.admitted < queue.ring.posted) {context : SlotContext}
    (hcontexts : next.contexts = queue.contexts.set queue.admitPosition context) (cursor : Nat)
    (hlow : queue.ring.released ≤ cursor)
    (hhigh : cursor < queue.ring.released + queue.ring.capacity) :
    next.holdingAt cursor =
      if cursor = queue.ring.admitted then context.holding else queue.holdingAt cursor := by
  have htaken := hstaged.ordered.taken_le
  have hreleased := hstaged.ordered.released_le
  have hposted := hstaged.ordered.posted_le
  have hlength : queue.contexts.length = queue.ring.capacity := by
    rw [hlaid.contexts_length, hlaid.capacity_eq]
  have hcapacity : next.ring.capacity = queue.ring.capacity := by
    rw [hattempted.ring_eq, PacketRing.capacity_concluded]
  exact Queue.holdingAt_of_set hcontexts hcapacity hlength hstaged.ordered.capacity_pos
    (by omega) (by omega)

/-- The copy that an attempt makes which hands over a packet to be bounced. -/
theorem copied?_attempt (hcalls : Step.calls ⟨queue, .attempt⟩ = calls)
    (hprograms : programs calls = [(packet, list)])
    (hdecision : queue.decision packet = .transmitAfterBouncing) :
    Step.copied? ⟨queue, .attempt⟩ = some ⟨queue.ring.admitted, packet, list⟩ := by
  unfold Step.copied?
  rw [hcalls, hprograms]
  exact if_pos hdecision

theorem Attempted.copied?_eq_none (hattempted : Attempted queue packet admission calls next)
    (hcalls : Step.calls ⟨queue, .attempt⟩ = calls)
    (hnone : programs calls = [] ∨ queue.decision packet ≠ .transmitAfterBouncing) :
    Step.copied? ⟨queue, .attempt⟩ = none := by
  unfold Step.copied?
  rw [hcalls]
  rcases hnone with hnone | hdecision
  · rw [hnone]
  · obtain ⟨_, hunsent, hsent⟩ := hattempted.calls
    by_cases hprogrammed : admission = .programmed
    · obtain ⟨list, hprograms⟩ := hsent hprogrammed
      rw [hprograms]
      exact if_neg hdecision
    · rw [hunsent hprogrammed]

/-- An attempt that copies its packet. -/
theorem Owns.bounced (howns : Owns steps queue) (hbuilt : Built config start)
    (hlaid : LaidOut start queue) (hstaged : queue.ring.Staged)
    (hready : queue.ring.admitted < queue.ring.posted)
    (hcalls : Step.calls ⟨queue, .attempt⟩ = calls)
    (hattempted : Attempted queue packet .programmed calls next)
    (hprograms : programs calls = [(packet, list)])
    (hdecision : queue.decision packet = .transmitAfterBouncing)
    (hbounce : queue.pool.bounce packet = (.ok list, next.pool))
    (hcontexts : next.contexts = queue.contexts.set queue.admitPosition
      { queue.context queue.admitPosition with bounced := true }) :
    Owns (steps ++ [⟨queue, .attempt⟩]) next := by
  have htaken := hstaged.ordered.taken_le
  have horder := hstaged.ordered.released_le
  have hspan := hstaged.ordered.posted_le
  have hallowed : queue.decision packet ≠ .cannotTransmit := by
    rw [hdecision]
    nofun
  obtain ⟨hroom, hlist, hbusy, hfree, hcontent, hother⟩ :=
    bounce_eq_ok hbuilt hlaid hallowed hbounce
  have hunused : queue.pool.busyIndex < queue.pool.freeIndex + queue.pool.count := by
    have hnot := of_decide_eq_false hroom
    unfold BouncePool.inUse at hnot
    omega
  have halike : next.pool.Alike queue.pool := by
    have hsame := queue.pool.alike_bounce packet
    rwa [hbounce] at hsame
  have hring := hattempted.ring_eq
  have hcapacity : next.ring.capacity = queue.ring.capacity := by
    rw [hring, PacketRing.capacity_concluded]
  have hreleased : next.ring.released = queue.ring.released := by
    rw [hring, PacketRing.released_concluded]
  have hadmitted : next.ring.admitted = queue.ring.admitted + 1 := by
    rw [hring]
    rfl
  have hcopies : copies (steps ++ [⟨queue, .attempt⟩]) =
      copies steps ++ [⟨queue.ring.admitted, packet, list⟩] :=
    filterMap_concat_of_some (copied?_attempt hcalls hprograms hdecision)
  refine ⟨?_, ?_, ?_⟩
  · rw [hcopies]
    exact howns.tallied.copied hunused halike.count_eq hbusy hfree hreleased hadmitted horder
  · rw [hcopies]
    exact howns.filled.copied howns.tallied.busyIndex_eq hunused halike hfree hlist
      (totalLength_le_bufferSize hbuilt hlaid hallowed) hcontent hother
  · rw [hcopies]
    exact howns.marked.copied hcapacity hreleased hadmitted horder (by omega) rfl
      (hattempted.holdingAt_of_set hlaid hstaged hready hcontexts)

/-- An attempt that does not copy its packet, and marks its slot as mapped at most. -/
theorem Owns.notBounced (howns : Owns steps queue) (hlaid : LaidOut start queue)
    (hstaged : queue.ring.Staged) (hready : queue.ring.admitted < queue.ring.posted)
    (hcopied : Step.copied? ⟨queue, .attempt⟩ = none)
    (hattempted : Attempted queue packet admission calls next) (hpool : next.pool = queue.pool)
    (hcontexts : next.contexts = queue.contexts ∨ ∃ context,
      next.contexts = queue.contexts.set queue.admitPosition context ∧
        context.bounced = (queue.context queue.admitPosition).bounced ∧
        (context.dmaMapped = (queue.context queue.admitPosition).dmaMapped ∨
          admission ≠ .stalled)) :
    Owns (steps ++ [⟨queue, .attempt⟩]) next := by
  have htaken := hstaged.ordered.taken_le
  have hspan := hstaged.ordered.posted_le
  have horder := hstaged.ordered.released_le
  have hring := hattempted.ring_eq
  have hcapacity : next.ring.capacity = queue.ring.capacity := by
    rw [hring, PacketRing.capacity_concluded]
  -- A slot is marked as mapped only for a packet that passes.
  have hholding : ∀ cursor, queue.ring.released ≤ cursor →
      cursor < queue.ring.released + queue.ring.capacity →
      (next.holdingAt cursor).bounced = (queue.holdingAt cursor).bounced ∧
        (next.holdingAt cursor = queue.holdingAt cursor ∨
          cursor = queue.ring.admitted ∧ admission ≠ .stalled) := by
    intro cursor hlow hhigh
    rcases hcontexts with hsame | ⟨context, hcontexts, hbounced, hkept⟩
    · rw [holdingAt_of_contexts_eq hsame hcapacity cursor]
      exact ⟨rfl, Or.inl rfl⟩
    · rw [hattempted.holdingAt_of_set hlaid hstaged hready hcontexts cursor hlow hhigh]
      split
      next hcursor =>
        rw [hcursor]
        exact ⟨hbounced, hkept.imp (Holding.ext hbounced) fun hpassed => ⟨rfl, hpassed⟩⟩
      next => exact ⟨rfl, Or.inl rfl⟩
  have hadmitted := queue.ring.admitted_le_concluded admission
  have hnext := queue.ring.concluded_admitted_le admission
  rw [← hring] at hadmitted hnext
  refine howns.kept hcopied hpool hcapacity (by rw [hring, PacketRing.released_concluded])
    hadmitted (by omega) (fun cursor hlow hhigh => (hholding cursor hlow hhigh).1) ?_
  · intro cursor hlow hhigh
    rcases (hholding cursor (by omega) hhigh).2 with hsame | ⟨hcursor, hpassed⟩
    · rw [hsame]
      exact howns.marked.vacant cursor (by omega) hhigh
    · have hpast := queue.ring.admitted_concluded admission hpassed
      rw [← hring] at hpast
      omega

theorem Owns.attempted (howns : Owns steps queue) (hbuilt : Built config start)
    (hlaid : LaidOut start queue) (hstaged : queue.ring.Staged)
    (hready : queue.ring.admitted < queue.ring.posted)
    (hcalls : Step.calls ⟨queue, .attempt⟩ = calls)
    (hattempted : Attempted queue packet admission calls next) :
    Owns (steps ++ [⟨queue, .attempt⟩]) next := by
  rcases hattempted.copied_or hbuilt hlaid with
    ⟨list, rfl, hdecision, hprograms, hbounce, hcontexts⟩ | ⟨hnone, hpool, hcontexts⟩
  · exact howns.bounced hbuilt hlaid hstaged hready hcalls hattempted hprograms hdecision
      hbounce hcontexts
  · exact howns.notBounced hlaid hstaged hready (hattempted.copied?_eq_none hcalls hnone)
      hattempted hpool hcontexts

end Attempt

/-- A buffer that the oldest packet in flight holds is in use. -/
theorem Owns.inUse_pos (howns : Owns steps queue)
    (hbusy : queue.ring.released < queue.ring.admitted)
    (hheld : (queue.holdingAt queue.ring.released).bounced = true) : 0 < queue.pool.inUse := by
  obtain ⟨oldest, hoccurs, hcursor⟩ :=
    (howns.marked.holding_iff queue.ring.released (Nat.le_refl _) hbusy).mp hheld
  obtain ⟨hbound, _⟩ :=
    List.getElem?_eq_some_iff.mp (howns.tallied.getElem?_freeIndex hoccurs hcursor)
  rw [← howns.tallied.busyIndex_eq] at hbound
  exact Nat.sub_pos_of_lt hbound

/-- A release gives back the buffer of its packet if the slot says that there is one. -/
theorem Owns.given_back (howns : Owns steps queue) (hlaid : LaidOut start queue)
    (hstaged : queue.ring.Staged) (hbusy : queue.ring.released < queue.ring.admitted)
    {step : Step P H D} (hstep : step.copied? = none) {completion : Completion}
    (hring : next.ring = queue.ring.release completion)
    (hpool : next.pool = queue.poolReturned queue.releasePosition) {list : SgList}
    (hcontexts : next.contexts = queue.contexts.set queue.releasePosition { list := list }) :
    Owns (steps ++ [step]) next := by
  have htaken := hstaged.ordered.taken_le
  have hadmitted := hstaged.ordered.admitted_le
  have hspan := hstaged.ordered.posted_le
  have hcapacity : next.ring.capacity = queue.ring.capacity := by
    rw [hring, PacketRing.capacity_release]
  have hlength : queue.contexts.length = queue.ring.capacity := by
    rw [hlaid.contexts_length, hlaid.capacity_eq]
  have hreleased : next.ring.released = queue.ring.released + 1 := by
    rw [hring]
    rfl
  have hsame : next.ring.admitted = queue.ring.admitted := by
    rw [hring]
    rfl
  have hcopies : copies (steps ++ [step]) = copies steps := filterMap_concat_of_none hstep
  -- The slot of the released packet holds nothing, and the other slots what they held.
  have hholding : ∀ cursor, queue.ring.released ≤ cursor →
      cursor < queue.ring.released + queue.ring.capacity → next.holdingAt cursor =
        if cursor = queue.ring.released then .nothing else queue.holdingAt cursor :=
    fun cursor hlow hhigh => holdingAt_of_set hcontexts hcapacity hlength
      hstaged.ordered.capacity_pos (by omega) (by omega)
  have hgiven : ∀ freed, next.pool = { queue.pool with freeIndex := freed } →
      queue.pool.freeIndex ≤ freed → freed ≤ queue.pool.busyIndex →
      (∀ (index : Nat) (copy : Copy P), (copies steps)[index]? = some copy →
        (copy.cursor < queue.ring.released + 1 ↔ index < freed)) →
      Owns (steps ++ [step]) next := by
    intro freed hpool hlow hhigh hfreed
    refine ⟨?_, ?_, ?_⟩
    · rw [hcopies]
      exact howns.tallied.released hpool hlow hhigh hfreed hreleased hsame
    · rw [hcopies, hpool]
      exact howns.filled.released hlow
    · rw [hcopies]
      exact howns.marked.released hcapacity hreleased hsame hbusy (by omega) hholding
  -- The slot decides whether a buffer is given back, and it is marked exactly for copies.
  have hmarked := howns.marked.holding_iff queue.ring.released (Nat.le_refl _) hbusy
  by_cases hheld : (queue.holdingAt queue.ring.released).bounced = true
  · have hpool := hpool.trans (if_pos hheld)
    obtain ⟨oldest, hoccurs, hcursor⟩ := hmarked.mp hheld
    have hinUse := howns.inUse_pos hbusy hheld
    have hone : next.pool = { queue.pool with freeIndex := queue.pool.freeIndex + 1 } := by
      rw [hpool]
      unfold BouncePool.release
      rw [if_neg (Nat.ne_of_gt hinUse)]
    exact hgiven _ hone (Nat.le_succ _) (Nat.lt_of_sub_pos hinUse)
      (howns.tallied.freed_of_copied hoccurs hcursor)
  · have hpool := hpool.trans (if_neg hheld)
    have hnone : ∀ copy ∈ copies steps, copy.cursor ≠ queue.ring.released :=
      fun copy hcopy hcursor => hheld (hmarked.mpr ⟨copy, hcopy, hcursor⟩)
    exact hgiven _ hpool (Nat.le_refl _) howns.tallied.freeIndex_le
      (howns.tallied.freed_of_not_copied hnone)

theorem Owns.scanned (howns : Owns steps queue) (hlaid : LaidOut start queue)
    (hstaged : queue.ring.Staged) (hbusy : queue.ring.released < queue.ring.admitted)
    {outcome : Option Completion} {calls : List (Event P)}
    (hscanned : Scanned queue packet outcome calls next) :
    Owns (steps ++ [⟨queue, .scan⟩]) next := by
  have htaken := hstaged.ordered.taken_le
  have hadmitted := hstaged.ordered.admitted_le
  have hspan := hstaged.ordered.posted_le
  have hcopied : Step.copied? (⟨queue, .scan⟩ : Step P H D) = none := rfl
  cases hscanned with
  | pending device =>
      have hcapacity := queue.ring.capacity_setState queue.ring.released .completionPending
      have hsame : ∀ cursor, ({ queue with
          device := device
          ring := queue.ring.setState queue.ring.released .completionPending } :
            Queue P H D).holdingAt cursor = queue.holdingAt cursor :=
        holdingAt_of_contexts_eq rfl hcapacity
      refine howns.kept hcopied rfl hcapacity rfl (Nat.le_refl _)
        (by change queue.ring.admitted ≤ _; omega) (fun cursor _ _ => by rw [hsame]) ?_
      intro cursor hlow hhigh
      rw [hsame]
      exact howns.marked.vacant cursor hlow hhigh
  | released completion calls returns settled returned hsettled hreturned =>
      obtain ⟨device, statistics, rfl⟩ := hsettled.exists_device
      obtain ⟨hpool, _, hcontexts⟩ := hreturned.pool_eq
      exact howns.given_back hlaid hstaged hbusy hcopied
        (congrArg (·.release completion) hreturned.ring) hpool hcontexts

/-- Along every course the pool has taken and given back buffers as the copies call for. -/
theorem Course.owns (hcourse : Course start steps last) (hbuilt : Built config start) :
    Owns steps last := by
  refine hcourse.invariant Owns hbuilt.sound ?_ ?_
  · refine ⟨⟨hbuilt.busyIndex_eq, ?_, ?_, .nil, nofun, nofun⟩, ⟨nofun, nofun⟩, ?_, ?_⟩
    · rw [hbuilt.freeIndex_eq]
      exact Nat.zero_le _
    · rw [hbuilt.busyIndex_eq]
      exact Nat.zero_le _
    · intro cursor _ hhigh
      rw [hbuilt.ring_eq] at hhigh
      exact absurd hhigh (Nat.not_lt_zero cursor)
    · intro cursor _ _
      exact hbuilt.nothing_held _
  · intro steps queue move next hfirst hstaged hnext hmoved howns
    have hlaid := hfirst.laidOut hbuilt
    have htaken := hstaged.ordered.taken_le
    have hreleased := hstaged.ordered.released_le
    have hadmitted := hstaged.ordered.admitted_le
    have hspan := hstaged.ordered.posted_le
    -- Moves of the caller and of the collaborators leave the pool and the slots alone.
    have hkept : ∀ (step : Step P H D) (next : Queue P H D), step.copied? = none →
        next.pool = queue.pool → next.contexts = queue.contexts →
        next.ring.capacity = queue.ring.capacity → next.ring.released = queue.ring.released →
        next.ring.admitted = queue.ring.admitted → Owns (steps ++ [step]) next := by
      intro step next hcopied hpool hcontexts hcapacity hreleased hadmitted
      have hsame := holdingAt_of_contexts_eq hcontexts hcapacity
      refine howns.kept hcopied hpool hcapacity hreleased (Nat.le_of_eq hadmitted.symm)
        (by omega) (fun cursor _ _ => by rw [hsame]) ?_
      intro cursor hlow hhigh
      rw [hsame]
      exact howns.marked.vacant cursor (by omega) hhigh
    cases hmoved with
    | posted packet ring hpost =>
        obtain ⟨_, rfl⟩ := PacketRing.post_eq_ok_iff.mp hpost
        exact hkept _ _ rfl rfl rfl (queue.ring.capacity_setSlot _ _) rfl rfl
    | rejected => exact hkept _ _ rfl rfl rfl rfl rfl rfl
    | popped completed ring hpop =>
        obtain ⟨_, _, _, rfl⟩ := PacketRing.pop?_eq_some_iff.mp hpop
        exact hkept _ _ rfl rfl rfl (queue.ring.capacity_setSlot _ _) rfl rfl
    | nothingPopped => exact hkept _ _ rfl rfl rfl rfl rfl rfl
    | cancelled =>
        obtain ⟨hcapacity, _, hreleased, hadmitted, _⟩ :=
          queue.ring.cancelFrom_snd queue.ring.admitted queue.ring.unposted
        exact hkept _ _ rfl rfl rfl hcapacity hreleased hadmitted
    | admitted packet admission calls _ hready _ hanswered hattempted =>
        have hcalls : Step.calls ⟨queue, .attempt⟩ = calls :=
          queue.events_move_attempt.trans (congrArg Traced.events hanswered)
        exact howns.attempted hbuilt hlaid hstaged hready hcalls hattempted
    | scanned packet outcome calls _ hready _ _ hscanned =>
        exact howns.scanned hlaid hstaged hready hscanned
    | quiet move device adapter statistics hquiet =>
        refine hkept _ _ ?_ rfl rfl rfl rfl rfl
        cases move <;> first | rfl | cases hquiet

end Queue

end TransmitQueue
