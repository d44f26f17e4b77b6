import TransmitQueue.Proofs.Staging

/-!
# Phases

How the two phases of an advance go, packet by packet, with the calls that they make. A
transmit phase admits packets in order until none waits or one stalls; a completion phase
releases packets in order until none is in flight or one is found pending.
-/

namespace TransmitQueue.Queue

variable {P H D : Type} [Packet P] [Device P H] [Adapter D]

/-- A transmit phase that starts at a queue, with its outcome and its calls. -/
inductive Transmitted : Queue P H D → Transmission P H D → List (Event P) → Prop where
  /-- No packet waits. -/
  | done {queue : Queue P H D} (hnone : queue.unposted = 0) :
      Transmitted queue ⟨queue, 0, false⟩ []
  /-- The oldest packet that waits stalls, and goes on waiting. -/
  | stalled {queue next : Queue P H D} {packet : P} {calls : List (Event P)}
      (hready : queue.ring.admitted < queue.ring.posted)
      (hpacket : (queue.ring.slot queue.ring.admitted).packet = some packet)
      (hattempted : Attempted queue packet .stalled calls next) :
      Transmitted queue ⟨next, 0, true⟩ calls
  /-- The oldest packet that waits fails, and the phase goes on with the next. -/
  | failed {queue next : Queue P H D} {packet : P} {failure : Failure}
      {calls more : List (Event P)} {sent : Transmission P H D}
      (hready : queue.ring.admitted < queue.ring.posted)
      (hpacket : (queue.ring.slot queue.ring.admitted).packet = some packet)
      (hattempted : Attempted queue packet (.failed failure) calls next)
      (hrest : Transmitted next sent more) :
      Transmitted queue sent (calls ++ more)
  /-- The oldest packet that waits is handed over, and the phase goes on with the next. -/
  | programmed {queue next : Queue P H D} {packet : P} {calls more : List (Event P)}
      {sent : Transmission P H D}
      (hready : queue.ring.admitted < queue.ring.posted)
      (hpacket : (queue.ring.slot queue.ring.admitted).packet = some packet)
      (hattempted : Attempted queue packet .programmed calls next)
      (hrest : Transmitted next sent more) :
      Transmitted queue { sent with programmed := sent.programmed + 1 } (calls ++ more)

/-- A completion phase that starts at a queue, with the number of packets that it releases,
its calls and the queue that it leaves. -/
inductive Drained : Queue P H D → Nat → List (Event P) → Queue P H D → Prop where
  /-- No packet is in flight. -/
  | done {queue : Queue P H D} (hnone : queue.inFlight = 0) : Drained queue 0 [] queue
  /-- The oldest packet in flight is found pending. -/
  | pending {queue next : Queue P H D} {packet : P} {calls : List (Event P)}
      (hbusy : queue.ring.released < queue.ring.admitted)
      (hpacket : (queue.ring.slot queue.ring.released).packet = some packet)
      (hscanned : Scanned queue packet none calls next) : Drained queue 0 calls next
  /-- The oldest packet in flight is released, and the phase goes on with the next. -/
  | released {queue next last : Queue P H D} {packet : P} {completion : Completion}
      {calls more : List (Event P)} {count : Nat}
      (hbusy : queue.ring.released < queue.ring.admitted)
      (hpacket : (queue.ring.slot queue.ring.released).packet = some packet)
      (hscanned : Scanned queue packet (some completion) calls next)
      (hrest : Drained next count more last) :
      Drained queue (count + 1) (calls ++ more) last

variable {queue next : Queue P H D} {packet : P} {calls : List (Event P)}

section Staged

variable (hstaged : queue.ring.Staged)
include hstaged

theorem Attempted.staged {admission : Admission}
    (hattempted : Attempted queue packet admission calls next)
    (hready : queue.ring.admitted < queue.ring.posted) : next.ring.Staged := by
  rw [hattempted.ring_eq]
  exact hstaged.concluded hready admission

omit [Packet P] in
theorem Scanned.staged {outcome : Option Completion}
    (hscanned : Scanned queue packet outcome calls next)
    (hbusy : queue.ring.released < queue.ring.admitted) : next.ring.Staged := by
  rw [hscanned.ring_eq]
  exact hstaged.scanned hbusy outcome

omit [Packet P] in
theorem drained_of_count {count : Nat} (hcount : count = queue.inFlight) :
    Drained queue (complete count queue).value.1 (complete count queue).events
      (complete count queue).value.2 := by
  induction count generalizing queue with
  | zero => exact .done hcount.symm
  | succ count ih =>
      have hbusy : queue.ring.released < queue.ring.admitted :=
        queue.ready_scan_iff.mpr (hcount ▸ Nat.succ_pos count)
      have hadmitted := hstaged.ordered.admitted_le
      obtain ⟨packet, hpacket⟩ := hstaged.occupied queue.ring.released hstaged.ordered.taken_le
        (by omega)
      have hscanned := queue.scanned_releaseOldest hpacket
      have hless := queue.inFlight_releaseOldest hbusy
      rw [complete_succ]
      rcases hrelease : queue.releaseOldest with ⟨⟨outcome, next⟩, calls⟩
      rw [hrelease] at hscanned hless
      dsimp only at hscanned hless
      have hnext := hscanned.staged hstaged hbusy
      rw [Traced.mk_bind]
      cases outcome with
      | none =>
          change Drained queue 0 (calls ++ []) next
          rw [List.append_nil]
          exact .pending hbusy hpacket hscanned
      | some completion =>
          have hfewer : next.inFlight + 1 = queue.inFlight :=
            hless.resolve_left (Option.some_ne_none _)
          have hrest := Drained.released hbusy hpacket hscanned (ih hnext (by omega))
          simp only [Traced.value_bind, Traced.events_bind, Traced.value_pure, Traced.events_pure,
            List.append_nil]
          exact hrest

end Staged

theorem transmitted_of_count (hsound : queue.Sound) {count : Nat}
    (hcount : count = queue.unposted) :
    Transmitted queue (transmit count queue).value (transmit count queue).events := by
  induction count generalizing queue with
  | zero => exact .done hcount.symm
  | succ count ih =>
      have hready : queue.ring.admitted < queue.ring.posted :=
        queue.ready_attempt_iff.mpr (hcount ▸ Nat.succ_pos count)
      obtain ⟨packet, hawaits⟩ := hsound.exists_awaits hready
      have hattempted := queue.attempted_admitOldest hawaits
      have hless := queue.unposted_admitOldest hready
      rw [transmit_succ]
      rcases hanswered : queue.admitOldest with ⟨⟨admission, next⟩, calls⟩
      rw [hanswered] at hattempted hless
      dsimp only at hattempted hless
      have hnext := hsound.of_sameSize (hattempted.staged hsound.staged hready)
        hattempted.sameSize
      rw [Traced.mk_bind]
      cases admission with
      | stalled =>
          change Transmitted queue ⟨next, 0, true⟩ (calls ++ [])
          rw [List.append_nil]
          exact .stalled hready hawaits.packet_eq hattempted
      | failed failure =>
          have hfewer : next.unposted + 1 = queue.unposted :=
            hless.resolve_left Admission.noConfusion
          exact .failed hready hawaits.packet_eq hattempted (ih hnext (by omega))
      | programmed =>
          have hfewer : next.unposted + 1 = queue.unposted :=
            hless.resolve_left Admission.noConfusion
          have hrest := Transmitted.programmed hready hawaits.packet_eq hattempted
            (ih hnext (by omega))
          simp only [Traced.value_bind, Traced.events_bind, Traced.value_pure, Traced.events_pure,
            List.append_nil]
          exact hrest

theorem Transmitted.staged {sent : Transmission P H D} {calls : List (Event P)}
    (hsent : Transmitted queue sent calls) (hstaged : queue.ring.Staged) :
    sent.queue.ring.Staged := by
  induction hsent with
  | done => exact hstaged
  | stalled hready _ hattempted => exact hattempted.staged hstaged hready
  | failed hready _ hattempted _ ih => exact ih (hattempted.staged hstaged hready)
  | programmed hready _ hattempted _ ih => exact ih (hattempted.staged hstaged hready)

/-- An attempt moves the admission cursor only. -/
theorem Attempted.cursors_eq {admission : Admission}
    (hattempted : Attempted queue packet admission calls next) :
    next.ring.taken = queue.ring.taken ∧ next.ring.released = queue.ring.released ∧
      next.ring.posted = queue.ring.posted := by
  rw [hattempted.ring_eq]
  exact ⟨PacketRing.taken_concluded _ _, PacketRing.released_concluded _ _,
    PacketRing.posted_concluded _ _⟩

/-- A transmit phase moves the admission cursor only. -/
theorem Transmitted.cursors_eq {sent : Transmission P H D} (hsent : Transmitted queue sent calls) :
    sent.queue.ring.taken = queue.ring.taken ∧
      sent.queue.ring.released = queue.ring.released ∧
      sent.queue.ring.posted = queue.ring.posted := by
  induction hsent with
  | done => exact ⟨rfl, rfl, rfl⟩
  | stalled _ _ hattempted => exact hattempted.cursors_eq
  | failed _ _ hattempted _ ih | programmed _ _ hattempted _ ih =>
      obtain ⟨htaken, hreleased, hposted⟩ := hattempted.cursors_eq
      exact ⟨ih.1.trans htaken, ih.2.1.trans hreleased, ih.2.2.trans hposted⟩

/-- A transmit phase leaves packets waiting exactly if one stalled. -/
theorem Transmitted.stalled_iff {sent : Transmission P H D}
    (hsent : Transmitted queue sent calls) (hstaged : queue.ring.Staged) :
    sent.stalled = true ↔ 0 < sent.queue.unposted := by
  induction hsent with
  | done hnone => exact ⟨nofun, fun hwaiting => absurd hnone (Nat.ne_of_gt hwaiting)⟩
  | @stalled queue next packet calls hready _ hattempted =>
      have hwaiting : 0 < next.unposted := by
        rw [unposted, hattempted.ring_eq, hstaged.concluded_stalled hready]
        exact queue.ready_attempt_iff.mp hready
      exact ⟨fun _ => hwaiting, fun _ => rfl⟩
  | failed hready _ hattempted _ ih | programmed hready _ hattempted _ ih =>
      exact ih (hattempted.staged hstaged hready)

omit [Packet P] in
/-- A completion phase moves the release cursor only, once for each packet released. -/
theorem Drained.cursors_eq {count : Nat} (hdrained : Drained queue count calls next) :
    next.ring.taken = queue.ring.taken ∧
      next.ring.released = queue.ring.released + count ∧
      next.ring.admitted = queue.ring.admitted ∧ next.ring.posted = queue.ring.posted := by
  induction hdrained with
  | done => exact ⟨rfl, rfl, rfl, rfl⟩
  | pending _ _ hscanned =>
      rw [hscanned.ring_eq]
      exact ⟨rfl, rfl, rfl, rfl⟩
  | released _ _ hscanned _ ih =>
      rw [hscanned.ring_eq] at ih
      obtain ⟨htaken, hreleased, hadmitted, hposted⟩ := ih
      refine ⟨htaken, hreleased.trans ?_, hadmitted, hposted⟩
      change _ + 1 + _ = _
      omega

/-- An advance is a transmit phase, the doorbell if a packet was handed over, and a completion
phase, one after another. -/
structure Advanced (queue : Queue P H D) (sent : Transmission P H D)
    (sending completing : List (Event P)) : Prop where
  transmitted : Transmitted queue sent sending
  flushed_eq : queue.flushed =
    if sent.programmed = 0 then sent.queue else sent.queue.flush.value
  drained : Drained queue.flushed queue.advance.value.1.completed completing
    queue.advance.value.2
  summary_eq : queue.advance.value.1 =
    ⟨sent.programmed, queue.advance.value.1.completed, sent.stalled⟩
  events_eq : queue.advance.events =
    sending ++ (if sent.programmed = 0 then [] else [.flush]) ++ completing

/-- Ringing the doorbell changes neither the packets nor the bounce buffers. -/
theorem Advanced.rung {sent : Transmission P H D} {sending completing : List (Event P)}
    (hadvanced : Advanced queue sent sending completing) :
    queue.flushed.ring = sent.queue.ring ∧ queue.flushed.pool = sent.queue.pool := by
  rw [hadvanced.flushed_eq]
  split <;> exact ⟨rfl, rfl⟩

/-- An advance takes back no packet and posts none. -/
theorem Advanced.cursors_eq {sent : Transmission P H D} {sending completing : List (Event P)}
    (hadvanced : Advanced queue sent sending completing) :
    queue.advance.value.2.ring.taken = queue.ring.taken ∧
      queue.advance.value.2.ring.released =
        queue.ring.released + queue.advance.value.1.completed ∧
      queue.advance.value.2.ring.posted = queue.ring.posted := by
  obtain ⟨htaken, hreleased, hposted⟩ := hadvanced.transmitted.cursors_eq
  obtain ⟨hsame, hgrown, _, hkept⟩ := hadvanced.drained.cursors_eq
  rw [hadvanced.rung.1] at hsame hgrown hkept
  exact ⟨hsame.trans htaken, hgrown.trans (by rw [hreleased]), hkept.trans hposted⟩

theorem exists_advanced (hsound : queue.Sound) :
    ∃ sent sending completing, Advanced queue sent sending completing := by
  have hsent := transmitted_of_count hsound (rfl : queue.unposted = _)
  have hrung : queue.flushed.ring.Staged := by
    have hnext := hsent.staged hsound.staged
    unfold flushed
    dsimp only
    split <;> exact hnext
  have hdrained := drained_of_count hrung (rfl : queue.flushed.inFlight = _)
  refine ⟨(transmit queue.unposted queue).value, (transmit queue.unposted queue).events,
    (complete queue.flushed.inFlight queue.flushed).events, hsent, rfl, ?_, ?_, ?_⟩
  · have hcompleted : queue.advance.value.1.completed =
        (complete queue.flushed.inFlight queue.flushed).value.1 := by
      unfold advance flushed
      dsimp only [Traced.value_bind]
      split <;> rfl
    rw [hcompleted, value_advance]
    exact hdrained
  · unfold advance
    dsimp only [Traced.value_bind]
    split <;> rfl
  · unfold advance flushed
    dsimp only [Traced.value_bind, Traced.events_bind]
    split
    next => simp
    next =>
      simp only [Traced.events_bind, Traced.events_pure, List.append_nil, List.append_assoc]
      rfl

end TransmitQueue.Queue
