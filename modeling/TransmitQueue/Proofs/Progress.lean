import TransmitQueue.Proofs.Isolation
import TransmitQueue.Proofs.Ownership
import TransmitQueue.Proofs.Summary

/-!
# Progress

A queue that maps packets directly stalls only for want of a bounce buffer, and every buffer
in use belongs to a packet in flight. So an advance in which the device answers for every
packet releases at least as many packets as the pool has buffers, or all of them, and finitely
many such advances leave the queue idle.
-/

namespace TransmitQueue.Queue

variable {P H D : Type} [Packet P] [Device P H] [Adapter D]
  {start queue next : Queue P H D} {config : Config} {packet : P} {calls : List (Event P)}

/-- On the direct backend an attempt stalls only for want of a bounce buffer. -/
theorem Attempted.capacity_le_inUse (hattempted : Attempted queue packet .stalled calls next)
    (hbuilt : Built config start) (hlaid : LaidOut start queue)
    (hdirect : start.backend = .direct) : start.pool.capacity ≤ next.pool.inUse := by
  cases hattempted with
  | bounceStall error pool _ hdecision hbounce =>
      rw [consult_decision] at hdecision
      obtain ⟨_, rfl, hexhausted⟩ :=
        bounce_eq_error hbuilt hlaid (by rw [hdecision]; nofun) hbounce
      have hcount := of_decide_eq_true hexhausted
      rw [hlaid.pool_alike.count_eq] at hcount
      exact hcount
  | mapStall error _ hdecision hmapping =>
      rw [consult_decision] at hdecision
      obtain ⟨list, hlist, _⟩ := mapping_of_direct hlaid hdirect hdecision
      rw [hmapping] at hlist
      cases hlist

/-- A transmit phase on the direct backend stalls only for want of a bounce buffer. -/
theorem Transmitted.capacity_le_inUse {sent : Transmission P H D}
    (hsent : Transmitted queue sent calls) (hbuilt : Built config start)
    (hlaid : LaidOut start queue) (hdirect : start.backend = .direct)
    (hstalled : sent.stalled = true) : start.pool.capacity ≤ sent.queue.pool.inUse := by
  induction hsent with
  | done => cases hstalled
  | stalled _ _ hattempted => exact hattempted.capacity_le_inUse hbuilt hlaid hdirect
  | failed _ _ hattempted _ ih | programmed _ _ hattempted _ ih =>
      exact ih (hlaid.attempted hattempted) hstalled

omit [Packet P] [Device P H] in
/-- A release gives back at most one bounce buffer. -/
theorem Returned.inUse_le {position : Nat} (hreturned : Returned queue position calls next) :
    queue.pool.inUse ≤ next.pool.inUse + 1 := by
  rw [hreturned.pool_eq.1]
  unfold poolReturned
  split
  next =>
    unfold BouncePool.release
    split
    next => exact Nat.le_succ _
    next =>
      unfold BouncePool.inUse
      dsimp only
      omega
  next => exact Nat.le_succ _

section Drained

variable {count : Nat} (hdrained : Drained queue count calls next)
include hdrained

omit [Packet P] in
/-- A completion phase that meets no pending packet releases all packets in flight. -/
theorem Drained.inFlight_eq_zero (hanswered : ∀ packet, .status packet .pending ∉ calls) :
    next.inFlight = 0 := by
  induction hdrained with
  | done hnone => exact hnone
  | @pending _ _ packet _ _ _ hscanned =>
      cases hscanned
      exact absurd (List.mem_singleton_self _) (hanswered packet)
  | released _ _ _ _ ih =>
      exact ih fun packet hpending => hanswered packet (List.mem_append_right _ hpending)

omit [Packet P] in
/-- A completion phase gives back no more bounce buffers than it releases packets. -/
theorem Drained.inUse_le : queue.pool.inUse ≤ next.pool.inUse + count := by
  induction hdrained with
  | done => exact Nat.le_refl _
  | pending _ _ hscanned =>
      cases hscanned
      exact Nat.le_refl _
  | released _ _ hscanned _ ih =>
      cases hscanned with
      | released completion calls returns settled returned hsettled hreturned =>
          have hless := hreturned.inUse_le
          obtain ⟨device, statistics, rfl⟩ := hsettled.exists_device
          dsimp only at hless ih
          omega

end Drained

variable {steps : List (Step P H D)}

/-- No bounce buffer is in use where no packet is in flight. -/
theorem Course.bounceBuffersInUse_eq_zero (hcourse : Course start steps queue)
    (hbuilt : Built config start) (hnone : queue.inFlight = 0) :
    queue.bounceBuffersInUse = 0 := by
  rw [(hcourse.allotted hbuilt).inUse_eq, List.length_eq_zero_iff]
  refine List.filter_eq_nil_iff.mpr fun copy _ hflight => ?_
  rw [decide_eq_true_eq] at hflight
  unfold inFlight PacketRing.inFlight at hnone
  omega

section Answered

variable (hcourse : Course start steps queue) (hbuilt : Built config start)
  (hdirect : start.backend = .direct)
  (hanswered : ∀ packet, .status packet .pending ∉ queue.advance.events)
include hcourse hbuilt hdirect hanswered

/-- An advance in which the device answers for every packet leaves none in flight, and
where it stalled it released as many packets as the pool has buffers. -/
theorem Course.released_of_answered :
    let next := queue.advance.value.2
    next.inFlight = 0 ∧ next.bounceBuffersInUse = 0 ∧ next.ring.posted = queue.ring.posted ∧
      next.ring.released = queue.ring.released + queue.advance.value.1.completed ∧
      (queue.advance.value.1.stalled = true →
        start.pool.capacity ≤ queue.advance.value.1.completed) := by
  have hlaid := hcourse.laidOut hbuilt
  obtain ⟨sent, sending, completing, hadvanced⟩ :=
    exists_advanced (hcourse.sound hbuilt.sound)
  obtain ⟨_, hreleased, hposted⟩ := hadvanced.cursors_eq
  have hnone : queue.advance.value.2.inFlight = 0 := by
    refine hadvanced.drained.inFlight_eq_zero fun packet hpending => hanswered packet ?_
    rw [hadvanced.events_eq]
    exact List.mem_append_right _ hpending
  have hfree := (hcourse.append queue.course_advance).bounceBuffersInUse_eq_zero hbuilt hnone
  refine ⟨hnone, hfree, hposted, hreleased, fun hstalled => ?_⟩
  -- All buffers were in use when the phase stalled, and none is after the releases.
  rw [hadvanced.summary_eq] at hstalled
  have hfull := hadvanced.transmitted.capacity_le_inUse hbuilt hlaid hdirect hstalled
  have hreturned := hadvanced.drained.inUse_le
  rw [hadvanced.rung.2] at hreturned
  unfold bounceBuffersInUse at hfree
  omega

/-- Such an advance leaves nothing outstanding, or less by at least as many packets as the pool
has buffers. -/
theorem Course.outstanding_of_answered :
    queue.advance.value.2.outstanding ≤ queue.outstanding - start.pool.capacity := by
  obtain ⟨hnone, _, hposted, hreleased, hfull⟩ :=
    hcourse.released_of_answered hbuilt hdirect hanswered
  obtain ⟨_, _, hstalled⟩ := summary_advance (hcourse.sound hbuilt.sound)
  unfold unposted PacketRing.unposted at hstalled
  unfold inFlight PacketRing.inFlight at hnone
  unfold outstanding PacketRing.outstanding
  cases hcase : queue.advance.value.1.stalled with
  | true =>
      have hfull := hfull hcase
      omega
  | false =>
      rw [hcase] at hstalled
      have hsent := mt hstalled.mpr Bool.false_ne_true
      omega

end Answered

omit [Packet P] [Device P H] [Adapter D] in
theorem outstanding_le_of_cursors (hposted : next.ring.posted = queue.ring.posted)
    (hreleased : queue.ring.released ≤ next.ring.released) :
    next.outstanding ≤ queue.outstanding := by
  unfold outstanding PacketRing.outstanding
  omega

/-- Only a post adds a packet. -/
theorem Moved.posted_eq {move : Move P H D} (hmoved : Moved queue move next)
    (hmove : ∀ packet, move ≠ .post packet) : next.ring.posted = queue.ring.posted := by
  cases hmoved with
  | posted packet | rejected packet => exact absurd rfl (hmove packet)
  | popped completed ring hpop =>
      obtain ⟨_, _, _, rfl⟩ := PacketRing.pop?_eq_some_iff.mp hpop
      rfl
  | cancelled => exact (queue.ring.cancelFrom_snd queue.ring.admitted queue.ring.unposted).2.2.2.2
  | admitted packet admission calls _ _ _ _ hattempted =>
      rw [hattempted.ring_eq, PacketRing.posted_concluded]
  | scanned packet outcome calls _ _ _ _ hscanned =>
      rw [hscanned.ring_eq, PacketRing.posted_scanned]
  | nothingPopped | quiet => rfl

/-- No operation but a post makes more packets outstanding. -/
theorem outstanding_perform_le (hsound : queue.Sound) {operation : Operation P H D}
    (hoperation : ∀ packet, operation ≠ .post packet) :
    (queue.perform operation).value.2.outstanding ≤ queue.outstanding := by
  have hcourse := (queue.course_perform operation).1
  have hmoves : ∀ step ∈ queue.steps operation, ∀ packet, step.move ≠ .post packet := by
    intro step hstep packet hmove
    have hmember : Operation.post packet ∈ [operation] :=
      operation_mem_of_mem_course (List.mem_append_left _ hstep)
        (congrArg Move.operation? hmove)
    exact hoperation packet (List.mem_singleton.mp hmember).symm
  refine outstanding_le_of_cursors ?_ (hcourse.cursors_le hsound).1
  generalize (queue.perform operation).value.2 = last at hcourse
  generalize queue.steps operation = steps at hcourse hmoves
  induction hcourse with
  | refl => rfl
  | snoc before ready ih =>
      have hmoved := (before.sound hsound).moved ready
      rw [hmoved.posted_eq (hmoves _ List.mem_concat_self)]
      exact ih fun step hstep => hmoves step (List.mem_append_left _ hstep)

/-- How many of a run's operations are advances. -/
def advances (operations : List (Operation P H D)) : Nat :=
  operations.countP fun
    | .advance => true
    | _ => false

/-- As long as nothing is posted and the device answers for every packet, each advance leaves
fewer packets outstanding by the capacity of the pool. -/
theorem Course.outstanding_after_le (hcourse : Course start steps queue)
    (hbuilt : Built config start) (hdirect : start.backend = .direct)
    {operations : List (Operation P H D)} (hposts : ∀ packet, .post packet ∉ operations)
    (hanswered : ∀ packet, .status packet .pending ∉ (queue.run operations).events) :
    (queue.after operations).outstanding ≤
      queue.outstanding - advances operations * start.pool.capacity := by
  induction operations generalizing queue steps with
  | nil =>
      rw [advances, List.countP_nil, Nat.zero_mul]
      exact Nat.le_refl _
  | cons operation rest ih =>
      rw [events_run_cons] at hanswered
      have hrest := ih (hcourse.append (queue.course_perform operation).1)
        (fun packet hpost => hposts packet (List.mem_cons_of_mem _ hpost))
        (fun packet hpending => hanswered packet (List.mem_append_right _ hpending))
      have hfirst := outstanding_perform_le (hcourse.sound hbuilt.sound)
        fun packet heq => hposts packet (heq ▸ List.mem_cons_self)
      change ((queue.perform operation).value.2.after rest).outstanding ≤ _
      cases operation with
      | advance =>
          have hadvanced : (queue.perform .advance).value.2.outstanding ≤
              queue.outstanding - start.pool.capacity := by
            refine hcourse.outstanding_of_answered hbuilt hdirect fun packet hpending => ?_
            have hcalls : (queue.perform .advance).events = queue.advance.events :=
              List.append_nil _
            exact hanswered packet (List.mem_append_left _ (hcalls ▸ hpending))
          have hcount : advances (Operation.advance :: rest) = advances rest + 1 :=
            List.countP_cons_of_pos rfl
          rw [hcount, Nat.succ_mul]
          omega
      | _ => exact Nat.le_trans hrest (Nat.sub_le_sub_right hfirst _)

/-- On the direct backend an advance in which the device answers for every packet leaves none
in flight and no bounce buffer in use. It releases at least one packet, and as many as the pool
has buffers if it stalled. So as many of them as it takes buffers to hold all outstanding
packets leave the queue idle, if nothing is posted meanwhile. -/
theorem idle_of_answered {device : H} {adapter : D} {queue : Queue P H D}
    (hbuild : (build config device adapter).value = .ok queue)
    (hdirect : queue.backend = .direct) (operations : List (Operation P H D)) :
    let last := queue.after operations
    let next := last.advance.value.2
    let summary := last.advance.value.1
    let capacity := last.pool.capacity
    (0 < last.outstanding → (∀ packet, .status packet .pending ∉ last.advance.events) →
      next.inFlight = 0 ∧ next.bounceBuffersInUse = 0 ∧
        next.ring.released = last.ring.released + summary.completed ∧
        1 ≤ summary.completed ∧ (summary.stalled = true → capacity ≤ summary.completed)) ∧
      ∀ more, (∀ packet, .post packet ∉ more) →
        (∀ packet, .status packet .pending ∉ (last.run more).events) →
        (last.outstanding + (capacity - 1)) / capacity ≤ advances more →
        (last.after more).isIdle = true := by
  have hbuilt := built_of_build hbuild
  have hcourse := queue.course_run operations
  have hcapacity : (queue.after operations).pool.capacity = queue.pool.capacity :=
    (hcourse.laidOut hbuilt).pool_alike.count_eq
  have hpos : 0 < queue.pool.capacity := hbuilt.stocked.count_pos
  dsimp only
  rw [hcapacity]
  refine ⟨fun hbusy hanswered => ?_, fun more hposts hanswered henough => ?_⟩
  · obtain ⟨hnone, hfree, hposted, hreleased, hfull⟩ :=
      hcourse.released_of_answered hbuilt hdirect hanswered
    have hfewer := hcourse.outstanding_of_answered hbuilt hdirect hanswered
    refine ⟨hnone, hfree, hreleased, ?_, hfull⟩
    unfold outstanding PacketRing.outstanding at hbusy hfewer
    omega
  · have hfewer := hcourse.outstanding_after_le hbuilt hdirect hposts hanswered
    have hcover : (queue.after operations).outstanding ≤ advances more * queue.pool.capacity := by
      have hceil := Nat.lt_succ_of_le henough
      rw [Nat.div_lt_iff_lt_mul hpos, Nat.succ_mul] at hceil
      omega
    rw [Nat.sub_eq_zero_of_le hcover] at hfewer
    exact beq_iff_eq.mpr (Nat.le_zero.mp hfewer)

section Sample

/-- The sample device, with physical addresses used directly. -/
def bypassConfig : Config := { sampleConfig with allowBypass := true }

def bypassQueue : Queue ScriptedPacket ScriptedDevice ScriptedAdapter :=
  (build bypassConfig ({} : ScriptedDevice) ({ bypass := true } : ScriptedAdapter) :
    Traced ScriptedPacket _).value.toOption.get rfl

/-- Two packets out of the device's reach are posted. -/
def bypassPosts : List (Operation ScriptedPacket ScriptedDevice ScriptedAdapter) :=
  [.post samplePacket, .post samplePacket]

theorem bypass_answered (operations : List (Operation ScriptedPacket ScriptedDevice _))
    (hanswered : ((statuses ((bypassQueue.after bypassPosts).run operations).events).all
      fun answer => decide (answer.2 ≠ .pending)) = true) (packet : ScriptedPacket) :
    .status packet .pending ∉ ((bypassQueue.after bypassPosts).run operations).events := by
  intro hpending
  have hall := List.all_eq_true.mp hanswered _ (mem_statuses.mpr hpending)
  cases hall

/-- The two packets need the one bounce buffer, so they take two advances. -/
theorem bypass_idle_of_answered :
    (build bypassConfig ({} : ScriptedDevice) ({ bypass := true } : ScriptedAdapter)).value =
        .ok bypassQueue ∧ bypassQueue.backend = .direct ∧
      (bypassQueue.after bypassPosts).advance.value.1.stalled = true ∧
      (bypassQueue.after bypassPosts).pool.capacity ≤
        (bypassQueue.after bypassPosts).advance.value.1.completed ∧
      ((bypassQueue.after bypassPosts).after [.advance, .advance]).isIdle = true := by
  have hbuild : (build bypassConfig ({} : ScriptedDevice)
      ({ bypass := true } : ScriptedAdapter)).value = .ok bypassQueue := rfl
  have hdirect : bypassQueue.backend = .direct := rfl
  have hstalled : (bypassQueue.after bypassPosts).advance.value.1.stalled = true := rfl
  obtain ⟨hreleased, hidle⟩ := idle_of_answered hbuild hdirect bypassPosts
  obtain ⟨_, _, _, _, hfull⟩ := hreleased (by decide) fun packet hpending =>
    bypass_answered [.advance] rfl packet (by simpa [run, perform] using hpending)
  exact ⟨hbuild, hdirect, hstalled, hfull hstalled,
    hidle [.advance, .advance] (by simp) (bypass_answered _ rfl) (by decide)⟩

end Sample

end TransmitQueue.Queue
