import TransmitQueue.Proofs.Discipline
import TransmitQueue.Proofs.Progress
import TransmitQueue.Proofs.Releases
import TransmitQueue.Proofs.Ring.Cancellation

/-!
# Cancellation

Cancelling marks the packets that wait for admission, and does nothing else. The next advance
passes over them without asking anything about them, whatever is exhausted, and deals with the
packets in flight as it would have dealt with them anyway. A mark goes with its packet: whatever
is posted into the slot later starts unmarked.
-/

namespace TransmitQueue.Queue

variable {P H D : Type}

/-- A cancellation counts and marks the packets that wait, and changes nothing else. -/
structure Cancels (queue : Queue P H D) (count : Nat) (cancelled : Queue P H D) : Prop where
  count_eq : count = queue.ring.unmarked queue.ring.admitted queue.unposted
  again_eq : cancelled.cancel = (0, cancelled)
  slots_only : cancelled =
    { queue with ring := { queue.ring with slots := cancelled.ring.slots } }
  waiting_eq : ∀ cursor, queue.ring.admitted ≤ cursor → cursor < queue.ring.posted →
    cancelled.ring.slot cursor = { queue.ring.slot cursor with cancelled := true }
  other_eq : ∀ position, (∀ cursor, queue.ring.admitted ≤ cursor → cursor < queue.ring.posted →
      queue.ring.position cursor ≠ position) →
    cancelled.ring.slots[position]? = queue.ring.slots[position]?

/-- An advance that admits every packet that waits, and sends none of them. -/
structure PassesOver (queue : Queue P H D)
    (advanced : Traced P (AdvanceSummary × Queue P H D)) : Prop where
  unposted_eq : advanced.value.2.unposted = 0
  stalled_eq : advanced.value.1.stalled = false
  programmed_eq : advanced.value.1.programmed = 0
  not_sending : ∀ event ∈ advanced.events, event.isSending = false
  skipped_eq : advanced.value.2.statistics.skipped = queue.statistics.skipped + queue.unposted
  state_eq : ∀ cursor, queue.ring.admitted ≤ cursor → cursor < queue.ring.posted →
    (advanced.value.2.ring.slot cursor).state =
      if cursor < advanced.value.2.ring.released then .released (.failed .skipped)
      else .completed (.failed .skipped)

theorem cancels_cancel {queue : Queue P H D} (hordered : queue.ring.Ordered) :
    Cancels queue queue.cancel.1 queue.cancel.2 := by
  have hkept := queue.ring.cancelFrom_snd queue.ring.admitted queue.ring.unposted
  have hlow := Nat.le_trans hordered.taken_le hordered.released_le
  refine ⟨queue.ring.cancelFrom_fst hordered.unposted_le, ?_, ?_, ?_, ?_⟩
  · unfold cancel
    dsimp only
    rw [hordered.cancelUnposted_cancelUnposted]
  · obtain ⟨_, htaken, hreleased, hadmitted, hposted⟩ := hkept
    have hring : queue.ring.cancelUnposted.2 =
        { queue.ring with slots := queue.ring.cancelUnposted.2.slots } := by
      rw [PacketRing.mk.injEq]
      exact ⟨rfl, htaken, hreleased, hadmitted, hposted⟩
    exact congrArg (fun ring => { queue with ring := ring }) hring
  · intro cursor hfirst hlast
    exact (hordered.slot_cancelUnposted ⟨by omega, hlast⟩).trans (if_pos hfirst)
  · intro position happart
    refine queue.ring.getElem?_cancelFrom fun cursor hfirst hlast => happart cursor hfirst ?_
    unfold PacketRing.unposted at hlast
    omega

theorem Cancels.passesOver {queue cancelled : Queue P H D} {count : Nat}
    {advanced : Traced P (AdvanceSummary × Queue P H D)} (hcancels : Cancels queue count cancelled)
    (hpasses : PassesOver cancelled advanced) : PassesOver queue advanced := by
  rw [hcancels.slots_only] at hpasses
  exact { hpasses with }

variable [Packet P] [Device P H] [Adapter D] {start queue next : Queue P H D} {packet : P}
  {calls : List (Event P)} {config : Config} {steps : List (Step P H D)}

/-- An attempt on a packet that is marked does nothing but skip it. -/
theorem Attempted.of_cancelled {admission : Admission}
    (hattempted : Attempted queue packet admission calls next)
    (hcancelled : (queue.ring.slot queue.ring.admitted).cancelled = true) :
    admission = .failed .skipped ∧ calls = [] ∧
      next =
        { queue with
          ring := queue.ring.concluded (.failed .skipped)
          statistics := { queue.statistics with skipped := queue.statistics.skipped + 1 } } := by
  have hwithdrawn : queue.withdrawn packet = true := by
    unfold withdrawn
    rw [hcancelled, Bool.true_or]
  cases hattempted with
  | skip => exact ⟨rfl, rfl, rfl⟩
  | refuse hkept | bounce _ _ hkept | bounceStall _ _ hkept | bounceFail _ _ hkept
  | map _ hkept | mapStall _ hkept | mapFail _ hkept =>
      rw [hwithdrawn] at hkept
      cases hkept

/-- A transmit phase that does nothing but skip the packets that wait. -/
structure Skips (queue : Queue P H D) (sent : Transmission P H D) (calls : List (Event P)) :
    Prop where
  calls_eq : calls = []
  programmed_eq : sent.programmed = 0
  stalled_eq : sent.stalled = false
  queue_eq : sent.queue =
    { queue with
      ring := sent.queue.ring
      statistics :=
        { queue.statistics with skipped := queue.statistics.skipped + queue.unposted } }
  admitted_eq : sent.queue.ring.admitted = queue.ring.posted
  posted_eq : sent.queue.ring.posted = queue.ring.posted
  state_eq : ∀ cursor, queue.ring.admitted ≤ cursor → cursor < queue.ring.posted →
    (sent.queue.ring.slot cursor).state = .completed (.failed .skipped)

/-- One packet is skipped, and then all behind it. -/
theorem Skips.cons {sent : Transmission P H D} {more : List (Event P)}
    (hstaged : queue.ring.Staged) (hready : queue.ring.admitted < queue.ring.posted)
    (hattempted : Attempted queue packet (.failed .skipped) calls next)
    (hcancelled : (queue.ring.slot queue.ring.admitted).cancelled = true)
    (hrest : Transmitted next sent more)
    (hskips : Skips next sent more) : Skips queue sent (calls ++ more) := by
  obtain ⟨_, rfl, hnext⟩ := hattempted.of_cancelled hcancelled
  have hring := hattempted.ring_eq
  have hadmitted : next.ring.admitted = queue.ring.admitted + 1 := by
    rw [hring]
    rfl
  obtain ⟨htaken, _, hposted⟩ := hattempted.cursors_eq
  have hfewer : next.unposted + 1 = queue.unposted := by
    unfold unposted PacketRing.unposted
    omega
  refine ⟨hskips.calls_eq, hskips.programmed_eq, hskips.stalled_eq, ?_,
    hskips.admitted_eq.trans hposted, hskips.posted_eq.trans hposted, ?_⟩
  · have hcount : next.statistics.skipped + next.unposted =
        queue.statistics.skipped + queue.unposted := by
      rw [hnext] at hfewer ⊢
      dsimp only at hfewer ⊢
      omega
    have hqueue := hskips.queue_eq
    rw [hcount] at hqueue
    rw [hqueue, hnext]
  · intro cursor hlow hhigh
    rcases Nat.eq_or_lt_of_le hlow with rfl | hlater
    · -- The phase does not come back to the packet that was skipped first.
      have hfirst := hstaged.ordered.taken_le
      have hsecond := hstaged.ordered.released_le
      rw [hrest.slot_eq (hattempted.staged hstaged hready) (by omega) (by omega), hring,
        hstaged.slot_concluded hready _ (by omega) hhigh, if_pos rfl]
      rfl
    · exact hskips.state_eq cursor (by omega) (by omega)

/-- Where every packet that waits is marked, a transmit phase skips them all. -/
theorem Transmitted.skips {sent : Transmission P H D} (hsent : Transmitted queue sent calls)
    (hstaged : queue.ring.Staged) (hmarked : queue.ring.AllCancelled) :
    Skips queue sent calls := by
  induction hsent with
  | @done queue hnone =>
      have hadmitted := hstaged.ordered.admitted_le
      refine ⟨rfl, rfl, rfl, ?_, ?_, rfl, ?_⟩
      · rw [hnone]
        rfl
      · unfold unposted PacketRing.unposted at hnone
        dsimp only
        omega
      · intro cursor hlow hhigh
        unfold unposted PacketRing.unposted at hnone
        omega
  | stalled hready _ hattempted | programmed hready _ hattempted =>
      cases (hattempted.of_cancelled (hmarked _ (Nat.le_refl _) hready)).1
  | failed hready _ hattempted hrest ih =>
      have hcancelled := hmarked _ (Nat.le_refl _) hready
      obtain ⟨hfailure, _⟩ := hattempted.of_cancelled hcancelled
      cases hfailure
      have hnext := hattempted.staged hstaged hready
      refine .cons hstaged hready hattempted hcancelled hrest (ih hnext fun cursor hlow hhigh => ?_)
      obtain ⟨hsame, hwaited, hposted⟩ :=
        hattempted.slot_eq_of_waiting hstaged hready nofun hlow hhigh
      rw [hsame]
      exact hmarked cursor hwaited hposted

/-- Where every packet that waits is marked, an advance skips them all and then releases. -/
theorem advance_of_marked (hsound : queue.Sound) (hmarked : queue.ring.AllCancelled) :
    Skips queue ⟨queue.flushed, queue.advance.value.1.programmed, queue.advance.value.1.stalled⟩
        [] ∧
      Drained queue.flushed queue.advance.value.1.completed queue.advance.events
        queue.advance.value.2 := by
  obtain ⟨sent, sending, completing, hadvanced⟩ := exists_advanced hsound
  have hskips := hadvanced.transmitted.skips hsound.staged hmarked
  have hflushed := hadvanced.flushed_eq
  rw [if_pos hskips.programmed_eq] at hflushed
  have hevents := hadvanced.events_eq
  rw [if_pos hskips.programmed_eq, hskips.calls_eq] at hevents
  have hdrained := hadvanced.drained
  rw [show completing = queue.advance.events from hevents.symm] at hdrained
  refine ⟨?_, hdrained⟩
  rw [hskips.calls_eq] at hskips
  rw [hflushed, hadvanced.summary_eq]
  exact hskips

theorem Sound.cancel (hsound : queue.Sound) : queue.cancel.2.Sound :=
  have hmoved : Moved queue .cancel queue.cancel.2 := .cancelled
  hsound.of_moved hmoved

/-- After a cancellation an advance skips whatever waited, and then releases. -/
theorem advance_cancelled (hsound : queue.Sound) :
    Skips queue.cancel.2
        ⟨queue.cancel.2.flushed, queue.cancel.2.advance.value.1.programmed,
          queue.cancel.2.advance.value.1.stalled⟩ [] ∧
      Drained queue.cancel.2.flushed queue.cancel.2.advance.value.1.completed
        queue.cancel.2.advance.events queue.cancel.2.advance.value.2 :=
  advance_of_marked hsound.cancel hsound.staged.ordered.allCancelled_cancelUnposted

theorem passesOver_advance (hsound : queue.Sound) (hmarked : queue.ring.AllCancelled) :
    PassesOver queue queue.advance := by
  obtain ⟨hskips, hdrained⟩ := advance_of_marked hsound hmarked
  obtain ⟨_, _, hadmitted, hposted⟩ := hdrained.cursors_eq
  have hqueue : queue.flushed = _ := hskips.queue_eq
  refine ⟨?_, hskips.stalled_eq, hskips.programmed_eq, hdrained.not_sending, ?_, ?_⟩
  · unfold unposted PacketRing.unposted
    rw [hposted, hadmitted, hskips.admitted_eq, hskips.posted_eq, Nat.sub_self]
  · rw [hdrained.skipped_eq, hqueue]
  · intro cursor hlow hhigh
    have hrung := abreast_flushed hsound
    have hreleased := hsound.staged.ordered.released_le
    have hadmitted : queue.flushed.ring.admitted = queue.ring.posted := hskips.admitted_eq
    exact hdrained.state_of_completed hrung.right_staged (by rw [hrung.released_eq]; omega)
      (hadmitted ▸ hhigh) (hskips.state_eq cursor hlow hhigh)

/-- A transmit phase asks the device about no packet, and returns no mapping. -/
theorem Transmitted.silent {sent : Transmission P H D} (hsent : Transmitted queue sent calls) :
    statuses calls = [] ∧ unmappings calls = [] := by
  induction hsent with
  | done => exact ⟨rfl, rfl⟩
  | stalled _ _ hattempted => exact ⟨hattempted.calls.1, hattempted.mapper_calls.2⟩
  | failed _ _ hattempted _ ih | programmed _ _ hattempted _ ih =>
      rw [statuses_append, unmappings_append, hattempted.calls.1, hattempted.mapper_calls.2]
      exact ih

/-- Nothing is asked about packets in flight before the completion phase. -/
theorem Advanced.exists_silent {sent : Transmission P H D} {sending completing : List (Event P)}
    (hadvanced : Advanced queue sent sending completing) :
    ∃ front, queue.advance.events = front ++ completing ∧ statuses front = [] ∧
      unmappings front = [] := by
  obtain ⟨hunasked, hkept⟩ := hadvanced.transmitted.silent
  refine ⟨_, hadvanced.events_eq, ?_, ?_⟩
  · rw [statuses_append, hunasked]
    split <;> rfl
  · rw [unmappings_append, hkept]
    split <;> rfl

/-- An advance in which the packets that were in flight fare as in another one, which also sends
packets that waited. -/
structure Spares (queue : Queue P H D) (kept advanced : Traced P (AdvanceSummary × Queue P H D)) :
    Prop where
  /-- The other one makes the same calls, between those that concern packets that waited. -/
  events_eq : ∃ sending later, kept.events = sending ++ advanced.events ++ later ∧
    statuses sending = [] ∧ unmappings sending = [] ∧
    ∀ slot ∈ mapperSlots later, ∃ cursor, queue.ring.admitted ≤ cursor ∧
      cursor < queue.ring.posted ∧ queue.ring.position cursor = slot
  released_eq : min advanced.value.2.ring.released queue.ring.admitted =
    min kept.value.2.ring.released queue.ring.admitted
  slot_eq : ∀ cursor, queue.ring.taken ≤ cursor → cursor < queue.ring.admitted →
    advanced.value.2.ring.slot cursor = kept.value.2.ring.slot cursor
  holding_eq : ∀ cursor, advanced.value.2.ring.released ≤ cursor → cursor < queue.ring.admitted →
    advanced.value.2.holdingAt cursor = kept.value.2.holdingAt cursor
  /-- The other one gives back the same buffers, and those of packets that waited. -/
  freeIndex_eq : kept.value.2.pool.freeIndex = advanced.value.2.pool.freeIndex +
    queue.flushed.bounced queue.ring.admitted
      (kept.value.2.ring.released - queue.ring.admitted)

/-- The bounce buffers that a completion phase gives back, those of the packets up to a cursor
and those of the packets behind it. -/
theorem Course.freeIndex_drained {count bound : Nat} (hcourse : Course start steps queue)
    (hbuilt : Built config start) (hbound : queue.ring.released ≤ bound)
    (hdrained : Drained queue count calls next) :
    next.pool.freeIndex = queue.pool.freeIndex +
      (queue.bounced queue.ring.released (min next.ring.released bound - queue.ring.released) +
        queue.bounced bound (next.ring.released - bound)) := by
  rw [hdrained.freeIndex_eq (hcourse.owns hbuilt) (hcourse.laidOut hbuilt)
    (hcourse.staged hbuilt.sound), queue.bounced_split hbound, hdrained.cursors_eq.2.1]

/-- After a cancellation the packets in flight are as after a transmit phase without one. -/
theorem abreast_cancelled (hsound : queue.Sound) :
    Abreast queue.ring.admitted queue.flushed queue.cancel.2.flushed := by
  obtain ⟨_, _, _, hadmitted, _⟩ :=
    queue.ring.cancelFrom_snd queue.ring.admitted queue.ring.unposted
  have hrung : Abreast queue.cancel.2.ring.admitted queue.cancel.2 queue.cancel.2.flushed :=
    abreast_flushed hsound.cancel
  rw [show queue.cancel.2.ring.admitted = queue.ring.admitted from hadmitted] at hrung
  exact (abreast_flushed hsound).symm.trans ((abreast_cancel hsound.staged).trans hrung)

theorem freeIndex_flushed (hsound : queue.Sound) :
    queue.flushed.pool.freeIndex = queue.pool.freeIndex := by
  obtain ⟨sent, _, _, hadvanced⟩ := exists_advanced hsound
  rw [hadvanced.rung.2]
  exact hadvanced.transmitted.freeIndex_eq

section Spared

variable (hcourse : Course start steps queue) (hbuilt : Built config start)
include hcourse hbuilt

/-- A skipped packet holds nothing, and its outcome is known. -/
theorem Course.skipped_after_cancel (cursor : Nat) (hlow : queue.ring.admitted ≤ cursor)
    (hhigh : cursor < queue.ring.posted) :
    queue.cancel.2.flushed.holdingAt cursor = .nothing ∧
      (queue.cancel.2.flushed.ring.slot cursor).state = .completed (.failed .skipped) := by
  have hsound := hcourse.sound hbuilt.sound
  have htaken := hsound.staged.ordered.taken_le
  have hspan := hsound.staged.ordered.posted_le
  have hcancels := cancels_cancel hsound.staged.ordered
  obtain ⟨hskips, _⟩ := advance_cancelled hsound
  have hcontexts : queue.cancel.2.flushed.contexts = queue.contexts :=
    (congrArg Queue.contexts hskips.queue_eq).trans rfl
  have hcapacity : queue.cancel.2.flushed.ring.capacity = queue.ring.capacity :=
    (abreast_cancelled hsound).capacity_eq.trans (abreast_flushed hsound).capacity_eq
  refine ⟨?_, hskips.state_eq cursor ?_ ?_⟩
  · rw [holdingAt_of_contexts_eq hcontexts hcapacity]
    exact (hcourse.owns hbuilt).marked.vacant cursor hlow (by omega)
  · rw [hcancels.slots_only]
    exact hlow
  · rw [hcancels.slots_only]
    exact hhigh

/-- The buffers given back are the same, apart from those of packets that a cancellation would
have stopped. -/
theorem Course.freeIndex_spared
    (hreleased : min queue.cancel.2.advance.value.2.ring.released queue.ring.admitted =
      min queue.advance.value.2.ring.released queue.ring.admitted) :
    queue.advance.value.2.pool.freeIndex = queue.cancel.2.advance.value.2.pool.freeIndex +
      queue.flushed.bounced queue.ring.admitted
        (queue.advance.value.2.ring.released - queue.ring.admitted) := by
  have hsound := hcourse.sound hbuilt.sound
  have habreast := abreast_cancelled hsound
  have hbound : queue.flushed.ring.released ≤ queue.ring.admitted := by
    rw [(abreast_flushed hsound).released_eq]
    exact hsound.staged.ordered.released_le
  obtain ⟨hskips, hdrained⟩ := advance_cancelled hsound
  obtain ⟨_, _, _, hadvanced⟩ := exists_advanced hsound
  have hcancelled : Course start (steps ++ [⟨queue, .cancel⟩]) queue.cancel.2 :=
    hcourse.append (.single trivial)
  have hkept := (hcourse.append queue.course_flushed).freeIndex_drained hbuilt hbound
    hadvanced.drained
  have hspared := (hcancelled.append queue.cancel.2.course_flushed).freeIndex_drained hbuilt
    (habreast.released_eq ▸ hbound) hdrained
  -- Behind the packets in flight there are none but skipped ones.
  have hnone : queue.cancel.2.flushed.bounced queue.ring.admitted
      (queue.cancel.2.advance.value.2.ring.released - queue.ring.admitted) = 0 := by
    refine bounced_eq_zero fun cursor hlow hhigh => ?_
    have hlast := (hdrained.staged habreast.right_staged).ordered.released_le
    have hposted : queue.cancel.2.advance.value.2.ring.admitted = queue.ring.posted := by
      rw [hdrained.cursors_eq.2.2.1, hskips.admitted_eq,
        (cancels_cancel hsound.staged.ordered).slots_only]
    exact (hcourse.skipped_after_cancel hbuilt cursor hlow (by omega)).1
  have hsame : queue.cancel.2.flushed.bounced queue.flushed.ring.released
        (min queue.advance.value.2.ring.released queue.ring.admitted -
          queue.flushed.ring.released) =
      queue.flushed.bounced queue.flushed.ring.released
        (min queue.advance.value.2.ring.released queue.ring.admitted -
          queue.flushed.ring.released) :=
    bounced_congr fun cursor hlow hhigh => habreast.holding_eq cursor hlow (by omega)
  rw [hnone, hreleased, habreast.released_eq, hsame, freeIndex_flushed hsound.cancel] at hspared
  rw [hkept, hspared, freeIndex_flushed hsound, Nat.add_zero, Nat.add_assoc]
  rfl

/-- A completion phase after a cancellation has nothing to say about the packets that were
cancelled. -/
theorem Course.latter_eq_nil {right : Queue P H D} {latter : List (Event P)} {count : Nat}
    (hstaged : right.ring.Staged) (hreached : right.ring.released = queue.ring.admitted)
    (hbehind : ∀ cursor, queue.ring.admitted ≤ cursor →
      cursor < queue.cancel.2.flushed.ring.admitted →
      right.ring.slot cursor = queue.cancel.2.flushed.ring.slot cursor ∧
        right.holdingAt cursor = queue.cancel.2.flushed.holdingAt cursor)
    (hright : Drained right count latter queue.cancel.2.advance.value.2) : latter = [] := by
  have hsound := hcourse.sound hbuilt.sound
  obtain ⟨hskips, hdrained⟩ := advance_cancelled hsound
  have hadmitted : right.ring.admitted = queue.cancel.2.flushed.ring.admitted :=
    hright.cursors_eq.2.2.1.symm.trans hdrained.cursors_eq.2.2.1
  have hposted : queue.cancel.2.flushed.ring.admitted = queue.ring.posted := by
    rw [hskips.admitted_eq, (cancels_cancel hsound.staged.ordered).slots_only]
  refine hright.calls_eq_nil hstaged fun cursor hlow hhigh => ?_
  rw [hreached] at hlow
  rw [hadmitted] at hhigh
  obtain ⟨hslot, hholding⟩ := hbehind cursor hlow hhigh
  obtain ⟨hnothing, hstate⟩ := hcourse.skipped_after_cancel hbuilt cursor hlow (hposted ▸ hhigh)
  exact ⟨hholding.trans hnothing, _, (congrArg RingSlot.state hslot).trans hstate⟩

/-- Given the same answers, packets in flight fare after a cancellation as without it. -/
theorem Course.spares
    (hanswers : AnsweredAlike queue.advance.events queue.cancel.2.advance.events) :
    Spares queue queue.advance queue.cancel.2.advance := by
  have hsound := hcourse.sound hbuilt.sound
  have habreast := abreast_cancelled hsound
  have hrung := abreast_flushed hsound
  have hbound : queue.flushed.ring.released ≤ queue.ring.admitted := by
    rw [hrung.released_eq]
    exact hsound.staged.ordered.released_le
  obtain ⟨_, hdrained⟩ := advance_cancelled hsound
  obtain ⟨sent, sending, completing, hadvanced⟩ := exists_advanced hsound
  obtain ⟨front, hevents, hasked, hreturned⟩ := hadvanced.exists_silent
  obtain ⟨hfirst, _, hposted⟩ := hadvanced.cursors_eq
  rw [hevents] at hanswers
  have hall : AnsweredAlike (front ++ completing) ([] ++ queue.cancel.2.advance.events) := hanswers
  cases habreast.drained hbound hadvanced.drained hdrained
      (hall.of_append_right hasked.symm) with
  | stopped hlast hshort hcalls =>
      have hreleased : min queue.cancel.2.advance.value.2.ring.released queue.ring.admitted =
          min queue.advance.value.2.ring.released queue.ring.admitted := by
        rw [hlast.released_eq]
      refine ⟨⟨front, [], ?_, hasked, hreturned, nofun⟩, hreleased, ?_, ?_,
        hcourse.freeIndex_spared hbuilt hreleased⟩
      · rw [hevents, hcalls, List.append_nil]
      · intro cursor hlow hhigh
        exact hlast.slot_eq cursor (hfirst ▸ hlow) hhigh
      · intro cursor hlow hhigh
        exact hlast.holding_eq cursor (hlast.released_eq ▸ hlow) hhigh
  | @passed left right shared later latter _ _ hmiddle hreached hbehind hcalls hmore hleft
      hright =>
      have hstarted : right.ring.released = queue.ring.admitted :=
        hmiddle.released_eq.trans hreached
      obtain rfl := hcourse.latter_eq_nil hbuilt hmiddle.right_staged hstarted hbehind hright
      obtain ⟨htaken, hreleased, hadmitted, _⟩ := hleft.cursors_eq
      obtain ⟨_, hfurther, _⟩ := hright.cursors_eq
      have hpast : min queue.cancel.2.advance.value.2.ring.released queue.ring.admitted =
          min queue.advance.value.2.ring.released queue.ring.admitted := by
        omega
      refine ⟨⟨front, later, ?_, hasked, hreturned, ?_⟩, hpast, ?_, ?_,
        hcourse.freeIndex_spared hbuilt hpast⟩
      · rw [hevents, hcalls, hmore, List.append_nil, List.append_assoc]
      · intro slot hslot
        obtain ⟨cursor, hlow, hhigh, hposition⟩ := hleft.exists_cursor hslot
        have hcapacity := hleft.capacity_eq.symm.trans
          (hadvanced.drained.capacity_eq.trans hrung.capacity_eq)
        have hlast := (hadvanced.drained.staged hrung.right_staged).ordered.admitted_le
        rw [PacketRing.position_congr hcapacity] at hposition
        exact ⟨cursor, hreached ▸ hlow, by omega, hposition⟩
      · intro cursor hlow hhigh
        have hinside : left.ring.taken ≤ cursor := by omega
        rw [hright.slot_eq hmiddle.right_staged (hmiddle.taken_eq ▸ hinside) (hstarted ▸ hhigh),
          hleft.slot_eq hmiddle.left_staged hinside (hreached ▸ hhigh)]
        exact hmiddle.slot_eq cursor hinside hhigh
      · intro cursor hlow hhigh
        omega

end Spared

/-- A packet posted after a cancellation is skipped only where it asks for it, or where it was
cancelled after that. -/
structure Unmarked (queue : Queue P H D) (operations : List (Operation P H D)) (bound : Nat) :
    Prop where
  marked_iff : ∀ cursor, bound ≤ cursor →
    (queue.after operations).ring.taken ≤ cursor → cursor < (queue.after operations).ring.posted →
    (((queue.after operations).ring.slot cursor).cancelled = true ↔
      CancelledWaiting (queue.course operations) cursor)
  skipped_iff : ∀ earlier step later, queue.course operations = earlier ++ step :: later →
    step.move = .attempt → bound ≤ step.before.ring.admitted →
    ∀ packet, (step.before.ring.slot step.before.ring.admitted).packet = some packet →
      (step.before.admitOldest.value.1 = .failed .skipped ↔
        Withdrawn earlier step.before.ring.admitted packet)

/-- Marks that were set before a packet was posted are not its own. -/
theorem Course.marked_iff {more : List (Step P H D)} {last : Queue P H D}
    (hcourse : Course start steps queue) (hbuilt : Built config start)
    (hmore : Course queue more last) {cursor : Nat} (hposted : queue.ring.posted ≤ cursor)
    (hlow : last.ring.taken ≤ cursor) (hhigh : cursor < last.ring.posted) :
    (last.ring.slot cursor).cancelled = true ↔ CancelledWaiting more cursor := by
  rw [((hcourse.append hmore).records hbuilt).marked cursor hlow hhigh,
    cancelledWaiting_append_iff]
  exact or_iff_right ((hcourse.records hbuilt).future cursor hposted).2

theorem Course.unmarked (hcourse : Course start steps queue) (hbuilt : Built config start)
    (operations : List (Operation P H D)) : Unmarked queue operations queue.ring.posted where
  marked_iff _ := hcourse.marked_iff hbuilt (queue.course_run operations)
  skipped_iff earlier step later hsteps hmove hposted packet hpacket := by
    obtain ⟨hearlier, hready, _⟩ := (queue.course_run operations).split hsteps
    rw [hmove] at hready
    have hready : step.before.ring.admitted < step.before.ring.posted := hready
    have hsound := (hcourse.append hearlier).sound hbuilt.sound
    have hordered := hsound.staged.ordered
    have hmarked := hcourse.marked_iff hbuilt hearlier hposted
      (Nat.le_trans hordered.taken_le hordered.released_le) hready
    rw [(step.before.attempted_admitOldest (hsound.awaits hpacket)).skipped_iff]
    unfold withdrawn Withdrawn
    rw [Bool.or_eq_true, hmarked]
    exact or_comm

/-- In every state that a run reaches, a cancellation marks the packets that wait and does
nothing else. The next advance passes over all of them and asks nothing about them, and given
the same answers it deals with the packets in flight as it would have done without the
cancellation. Packets posted later are not cancelled by it. -/
theorem cancel_flushes_waiting {device : H} {adapter : D}
    (hbuild : (build config device adapter).value = .ok start)
    (operations : List (Operation P H D)) :
    let queue := start.after operations
    let cancelled := queue.cancel.2
    Cancels queue queue.cancel.1 cancelled ∧
      PassesOver queue cancelled.advance ∧
      (AnsweredAlike queue.advance.events cancelled.advance.events →
        Spares queue queue.advance cancelled.advance) ∧
      ∀ more, Unmarked cancelled more queue.ring.posted := by
  intro queue cancelled
  have hbuilt := built_of_build hbuild
  have hcourse := start.course_run operations
  have hsound := hcourse.sound hbuilt.sound
  have hcancels : Cancels queue queue.cancel.1 cancelled := cancels_cancel hsound.staged.ordered
  have hcancelled : Course start (start.course operations ++ [⟨queue, .cancel⟩]) cancelled :=
    hcourse.append (.single trivial)
  have hposted : cancelled.ring.posted = queue.ring.posted :=
    congrArg (fun last => last.ring.posted) hcancels.slots_only
  have hpasses : PassesOver cancelled cancelled.advance :=
    passesOver_advance hsound.cancel hsound.staged.ordered.allCancelled_cancelUnposted
  refine ⟨hcancels, hcancels.passesOver hpasses, hcourse.spares hbuilt, fun more => ?_⟩
  have hunmarked := hcancelled.unmarked hbuilt more
  rwa [hposted] at hunmarked

/-- One packet occupies the only bounce buffer and is done by now; another one waits for it. -/
def sampleWaitingRun : List (Operation ScriptedPacket ScriptedDevice ScriptedAdapter) :=
  [.post samplePacket, .advance, .post samplePacket, .changeDevice fun device => device.complete 1]

/-- The waiting packet would have stalled, and its slot is used again after the cancellation. -/
theorem sample_cancel_flushes_waiting :
    let queue := (sampleQueue (.hold {} 1)).after sampleWaitingRun
    (build sampleConfig (ScriptedDevice.hold {} 1) ({} : ScriptedAdapter)).value =
        .ok (sampleQueue (.hold {} 1)) ∧
      queue.advance.value.1.stalled = true ∧ Cancels queue 1 queue.cancel.2 ∧
      PassesOver queue queue.cancel.2.advance ∧
      Spares queue queue.advance queue.cancel.2.advance ∧
      Unmarked queue.cancel.2
        [.advance, .pop, .pop, .post samplePacket, .post samplePacket, .advance] 2 := by
  intro queue
  have hbuild : (build sampleConfig (ScriptedDevice.hold {} 1) ({} : ScriptedAdapter)).value =
      .ok (sampleQueue (.hold {} 1)) := rfl
  obtain ⟨hcancels, hpasses, hspares, hunmarked⟩ :=
    cancel_flushes_waiting hbuild sampleWaitingRun
  have hsame : statuses queue.cancel.2.advance.events = statuses queue.advance.events := by rfl
  have hanswers : AnsweredAlike queue.advance.events queue.cancel.2.advance.events :=
    .of_eq hsame
  exact ⟨hbuild, rfl, hcancels, hpasses, hspares hanswers, hunmarked _⟩

end TransmitQueue.Queue
