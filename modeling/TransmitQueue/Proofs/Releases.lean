import TransmitQueue.Proofs.Abreast
import TransmitQueue.Proofs.Accounts

/-!
# Releases of a completion phase

What a completion phase does, read off its looks. It sends nothing, it leaves the packets alone
that were released before, it calls the mapper for packets in flight only, and it gives back one
bounce buffer for each packet that it releases and that holds one.
-/

namespace TransmitQueue

variable {P H D : Type}

/-- Whether a call belongs to the sending of packets. -/
def Event.isSending : Event P → Bool
  | .program .. | .flush | .policy .. | .map .. => true
  | .status .. | .bypassCapable _ | .contextSize _ | .allocate .. | .unmap .. | .wait _
  | .notice _ => false

namespace Queue

/-- How many of the packets from a cursor on hold a bounce buffer. -/
def bounced (queue : Queue P H D) (cursor count : Nat) : Nat :=
  (List.range' cursor count).countP fun held => (queue.holdingAt held).bounced

theorem bounced_congr {left right : Queue P H D} {cursor count : Nat}
    (hsame : ∀ held, cursor ≤ held → held < cursor + count →
      right.holdingAt held = left.holdingAt held) :
    right.bounced cursor count = left.bounced cursor count := by
  refine List.countP_congr fun held hheld => ?_
  obtain ⟨hlow, hhigh⟩ := List.mem_range'_1.mp hheld
  rw [hsame held hlow hhigh]

theorem bounced_succ (queue : Queue P H D) (cursor count : Nat) :
    queue.bounced cursor (count + 1) =
      (queue.holdingAt cursor).bounced.toNat + queue.bounced (cursor + 1) count := by
  unfold bounced
  rw [List.range'_succ, List.countP_cons, Nat.add_comm]
  cases (queue.holdingAt cursor).bounced <;> rfl

theorem bounced_add (queue : Queue P H D) (cursor first second : Nat) :
    queue.bounced cursor (first + second) =
      queue.bounced cursor first + queue.bounced (cursor + first) second := by
  unfold bounced
  rw [← List.range'_append_1, List.countP_append]

/-- The packets up to a cursor are counted apart from those behind it. -/
theorem bounced_split (queue : Queue P H D) {cursor bound : Nat} (hbound : cursor ≤ bound)
    (count : Nat) : queue.bounced cursor count =
      queue.bounced cursor (min (cursor + count) bound - cursor) +
        queue.bounced bound (cursor + count - bound) := by
  rcases Nat.le_total (cursor + count) bound with hshort | hpast
  · rw [Nat.min_eq_left hshort, Nat.add_sub_cancel_left, Nat.sub_eq_zero_of_le hshort]
    rfl
  · have hcount : count = (bound - cursor) + (cursor + count - bound) := by omega
    have hjoin := queue.bounced_add cursor (bound - cursor) (cursor + count - bound)
    rw [← hcount, Nat.add_sub_cancel' hbound] at hjoin
    rw [Nat.min_eq_right hpast, hjoin]

theorem bounced_eq_zero {queue : Queue P H D} {cursor count : Nat}
    (hnothing : ∀ held, cursor ≤ held → held < cursor + count →
      queue.holdingAt held = .nothing) : queue.bounced cursor count = 0 := by
  refine List.countP_eq_zero.mpr fun held hheld => ?_
  obtain ⟨hlow, hhigh⟩ := List.mem_range'_1.mp hheld
  rw [hnothing held hlow hhigh]
  exact Bool.false_ne_true

variable [Packet P] [Device P H] [Adapter D] {start queue next : Queue P H D} {packet : P}
  {calls : List (Event P)} {config : Config} {steps : List (Step P H D)}

section Scan

variable {outcome : Option Completion} (hscanned : Scanned queue packet outcome calls next)
include hscanned

omit [Packet P] in
theorem Scanned.not_sending : ∀ event ∈ calls, event.isSending = false := by
  cases hscanned with
  | pending =>
      intro event hevent
      rw [List.mem_singleton.mp hevent]
      rfl
  | released completion asked returns settled returned hsettled hreturned =>
      intro event hevent
      rcases List.mem_append.mp hevent with hasked | hgiven
      · cases hsettled <;> simp only [List.mem_cons, List.not_mem_nil, or_false] at hasked
        next => exact hasked ▸ rfl
        next => rcases hasked with rfl | rfl <;> rfl
      · rw [hreturned.calls_eq] at hgiven
        rcases settled.returnCalls_or (P := P) settled.releasePosition with
          hnone | ⟨_, _, hcall⟩
        · rw [hnone] at hgiven
          cases hgiven
        · rw [hcall] at hgiven
          rw [List.mem_singleton.mp hgiven]
          rfl

omit [Packet P] in
/-- A look counts no packet as skipped. -/
theorem Scanned.skipped_eq : next.statistics.skipped = queue.statistics.skipped := by
  cases hscanned.lookCounted with
  | pending _ hafter | known _ hafter | success _ hafter | error _ hafter => rw [hafter]

end Scan

omit [Packet P] in
/-- A look at a packet that holds nothing and whose outcome is known makes no call. -/
theorem Scanned.calls_eq_nil {completion : Completion} {outcome : Option Completion}
    (hscanned : Scanned queue packet outcome calls next)
    (hstate : (queue.ring.slot queue.ring.released).state = .completed completion)
    (hnothing : queue.holdingAt queue.ring.released = .nothing) : calls = [] := by
  cases hscanned with
  | pending _ hunknown => exact absurd hstate (hunknown completion)
  | released _ asked returns settled returned hsettled hreturned =>
      cases hsettled with
      | success _ hunknown | error _ hunknown => exact absurd hstate (hunknown completion)
      | known =>
          have hcalls : returns = queue.returnCalls queue.releasePosition := hreturned.calls_eq
          rw [hcalls, releasePosition, returnCalls_eq, hnothing]
          rfl

omit [Packet P] in
/-- A release gives back a bounce buffer where the slot of its packet holds one. -/
theorem Scanned.freeIndex_eq {completion : Completion}
    (hscanned : Scanned queue packet (some completion) calls next)
    (hinUse : (queue.holdingAt queue.ring.released).bounced = true → 0 < queue.pool.inUse) :
    next.pool.freeIndex = queue.pool.freeIndex +
      (queue.holdingAt queue.ring.released).bounced.toNat := by
  cases hscanned with
  | released _ asked returns settled returned hsettled hreturned =>
      obtain ⟨device, statistics, rfl⟩ := hsettled.exists_device
      have hpool : returned.pool = if (queue.holdingAt queue.ring.released).bounced then
          queue.pool.release.2 else queue.pool := hreturned.pool_eq.1
      dsimp only
      rw [hpool]
      cases hheld : (queue.holdingAt queue.ring.released).bounced with
      | true =>
          rw [BouncePool.release, if_neg (Nat.ne_of_gt (hinUse hheld))]
          rfl
      | false => rfl

section Drained

variable {count : Nat} (hdrained : Drained queue count calls next)
include hdrained

omit [Packet P] in
theorem Drained.not_sending : ∀ event ∈ calls, event.isSending = false := by
  induction hdrained with
  | done => exact nofun
  | pending _ _ hscanned => exact hscanned.not_sending
  | released _ _ hscanned _ ih =>
      intro event hevent
      rcases List.mem_append.mp hevent with hfirst | hlater
      · exact hscanned.not_sending event hfirst
      · exact ih event hlater

omit [Packet P] in
theorem Drained.skipped_eq : next.statistics.skipped = queue.statistics.skipped := by
  induction hdrained with
  | done => rfl
  | pending _ _ hscanned => exact hscanned.skipped_eq
  | released _ _ hscanned _ ih => exact ih.trans hscanned.skipped_eq

omit [Packet P] in
theorem Drained.capacity_eq : next.ring.capacity = queue.ring.capacity := by
  induction hdrained with
  | done => rfl
  | pending _ _ hscanned => rw [hscanned.ring_eq, PacketRing.capacity_scanned]
  | released _ _ hscanned _ ih => rw [ih, hscanned.ring_eq, PacketRing.capacity_scanned]

omit [Packet P] in
/-- A completion phase calls the mapper for packets in flight only. -/
theorem Drained.exists_cursor {slot : Nat} (hslot : slot ∈ mapperSlots calls) :
    ∃ cursor, queue.ring.released ≤ cursor ∧ cursor < queue.ring.admitted ∧
      queue.ring.position cursor = slot := by
  induction hdrained with
  | done => cases hslot
  | @pending queue _ _ _ hbusy _ hscanned =>
      exact ⟨queue.ring.released, Nat.le_refl _, hbusy,
        (hscanned.mapper_calls.1 slot hslot).symm⟩
  | @released queue next _ _ _ _ _ _ hbusy _ hscanned hrest ih =>
      rw [mapperSlots_append] at hslot
      rcases List.mem_append.mp hslot with hfirst | hlater
      · exact ⟨queue.ring.released, Nat.le_refl _, hbusy,
          (hscanned.mapper_calls.1 slot hfirst).symm⟩
      · obtain ⟨cursor, hlow, hhigh, hposition⟩ := ih hlater
        have hring : next.ring = _ := hscanned.ring_of_released
        rw [hring] at hlow hhigh hposition
        exact ⟨cursor, Nat.le_of_succ_le hlow, hhigh,
          (PacketRing.position_congr (queue.ring.capacity_release _) cursor).symm.trans hposition⟩

variable (hstaged : queue.ring.Staged)
include hstaged

omit [Packet P] in
theorem Drained.staged : next.ring.Staged := by
  induction hdrained with
  | done => exact hstaged
  | pending hbusy _ hscanned => exact hscanned.staged hstaged hbusy
  | released hbusy _ hscanned _ ih => exact ih (hscanned.staged hstaged hbusy)

omit [Packet P] in
/-- A completion phase releases no more packets than are in flight. -/
theorem Drained.count_le : queue.ring.released + count ≤ queue.ring.admitted := by
  have hlast := (hdrained.staged hstaged).ordered.released_le
  obtain ⟨_, hreleased, hadmitted, _⟩ := hdrained.cursors_eq
  rwa [hreleased, hadmitted] at hlast

omit [Packet P] in
/-- A completion phase leaves the packets alone that were released before. -/
theorem Drained.slot_eq {cursor : Nat} (hlow : queue.ring.taken ≤ cursor)
    (hhigh : cursor < queue.ring.released) : next.ring.slot cursor = queue.ring.slot cursor := by
  induction hdrained with
  | done => rfl
  | @pending queue _ _ _ hbusy _ hscanned =>
      have hadmitted := hstaged.ordered.admitted_le
      rw [hscanned.ring_eq, hstaged.slot_scanned hbusy none hlow (by omega), if_neg (by omega)]
  | @released queue next _ _ completion _ _ _ hbusy _ hscanned _ ih =>
      have hadmitted := hstaged.ordered.admitted_le
      have hring := hscanned.ring_eq
      have hslot : next.ring.slot cursor = queue.ring.slot cursor := by
        rw [hring, hstaged.slot_scanned hbusy (some completion) hlow (by omega),
          if_neg (by omega)]
      refine (ih (hscanned.staged hstaged hbusy) ?_ ?_).trans hslot
      · rw [hring]
        exact hlow
      · rw [hring]
        exact Nat.lt_succ_of_lt hhigh

omit [Packet P] in
/-- A packet in flight whose outcome is known keeps it until it is released with it. -/
theorem Drained.state_of_completed {cursor : Nat} {completion : Completion}
    (hlow : queue.ring.released ≤ cursor) (hhigh : cursor < queue.ring.admitted)
    (hstate : (queue.ring.slot cursor).state = .completed completion) :
    (next.ring.slot cursor).state =
      if cursor < next.ring.released then .released completion else .completed completion := by
  induction hdrained with
  | done hnone =>
      unfold inFlight PacketRing.inFlight at hnone
      omega
  | @pending queue next _ _ hbusy _ hscanned =>
      have htaken := hstaged.ordered.taken_le
      have hadmitted := hstaged.ordered.admitted_le
      have hother : cursor ≠ queue.ring.released := by
        rintro rfl
        exact hscanned.of_none.2 completion hstate
      rw [hscanned.ring_eq, hstaged.slot_scanned hbusy none (by omega) (by omega),
        if_neg hother, hstate]
      exact (if_neg (Nat.not_lt.mpr hlow)).symm
  | @released queue next _ _ known _ _ _ hbusy _ hscanned hrest ih =>
      have hnext := hscanned.staged hstaged hbusy
      have hring := hscanned.ring_eq
      rcases Nat.eq_or_lt_of_le hlow with rfl | hlater
      · have htaken := hstaged.ordered.taken_le
        have hadmitted := hstaged.ordered.admitted_le
        have hsame : known = completion := by
          rcases hscanned.of_some with ⟨hknown, _⟩ | ⟨hunknown, _⟩
          · exact PacketState.completed.inj (hknown.symm.trans hstate)
          · exact absurd hstate (hunknown completion)
        have hpassed : queue.ring.released < next.ring.released := by
          rw [hring]
          exact Nat.lt_succ_self _
        have hreleased := hrest.cursors_eq.2.1
        have hfirst : next.ring.taken = queue.ring.taken := by
          rw [hring]
          rfl
        rw [hrest.slot_eq hnext (by omega) hpassed, if_pos (by omega), hring,
          hstaged.slot_scanned hbusy (some known) htaken (by omega), if_pos rfl, hsame]
        rfl
      · refine ih hnext ?_ ?_ ?_
        · rw [hring]
          exact hlater
        · rw [hring]
          exact hhigh
        · rw [(hscanned.behind_eq hstaged hlater hhigh).1, hstate]

omit [Packet P] in
/-- A completion phase makes no call where no packet in flight reached the device or holds
anything. -/
theorem Drained.calls_eq_nil
    (hfailed : ∀ cursor, queue.ring.released ≤ cursor → cursor < queue.ring.admitted →
      queue.holdingAt cursor = .nothing ∧
        ∃ completion, (queue.ring.slot cursor).state = .completed completion) : calls = [] := by
  induction hdrained with
  | done => rfl
  | pending hbusy _ hscanned =>
      obtain ⟨hnothing, _, hstate⟩ := hfailed _ (Nat.le_refl _) hbusy
      exact hscanned.calls_eq_nil hstate hnothing
  | @released queue next _ _ completion _ _ _ hbusy _ hscanned _ ih =>
      obtain ⟨hnothing, _, hstate⟩ := hfailed _ (Nat.le_refl _) hbusy
      rw [hscanned.calls_eq_nil hstate hnothing, List.nil_append]
      refine ih (hscanned.staged hstaged hbusy) fun cursor hlow hhigh => ?_
      have hring := hscanned.ring_eq
      have hpassed : queue.ring.released < cursor := by rwa [hring] at hlow
      have hflight : cursor < queue.ring.admitted := by rwa [hring] at hhigh
      obtain ⟨hslot, hholding⟩ := hscanned.behind_eq hstaged hpassed hflight
      rw [hslot, hholding]
      exact hfailed cursor (Nat.le_of_lt hpassed) hflight

end Drained

/-- A completion phase gives back the bounce buffers of the packets that it releases. -/
theorem Drained.freeIndex_eq {count : Nat} (hdrained : Drained queue count calls next)
    (howns : Owns steps queue) (hlaid : LaidOut start queue) (hstaged : queue.ring.Staged) :
    next.pool.freeIndex = queue.pool.freeIndex + queue.bounced queue.ring.released count := by
  induction hdrained generalizing steps with
  | done => rfl
  | pending _ _ hscanned =>
      cases hscanned
      rfl
  | @released queue next _ _ completion _ _ count hbusy _ hscanned hrest ih =>
      have hnext := hscanned.staged hstaged hbusy
      have hcount := hrest.count_le hnext
      have hring := hscanned.ring_eq
      have hreleased : next.ring.released = queue.ring.released + 1 := by
        rw [hring]
        rfl
      have hadmitted : next.ring.admitted = queue.ring.admitted := by
        rw [hring]
        rfl
      have hsame : next.bounced (queue.ring.released + 1) count =
          queue.bounced (queue.ring.released + 1) count :=
        bounced_congr fun cursor hlow hhigh =>
          (hscanned.behind_eq hstaged hlow (by omega)).2
      rw [ih (howns.scanned hlaid hstaged hbusy hscanned) (hlaid.scanned hscanned) hnext,
        hscanned.freeIndex_eq (howns.inUse_pos hbusy), hreleased, hsame, bounced_succ]
      exact Nat.add_assoc _ _ _

/-- Copying a packet takes a buffer and gives none back. -/
theorem Attempted.freeIndex_eq {admission : Admission}
    (hattempted : Attempted queue packet admission calls next) :
    next.pool.freeIndex = queue.pool.freeIndex := by
  have hbounce := BouncePool.freeIndex_bounce queue.pool packet
  cases hattempted with
  | skip | refuse | map | mapStall | mapFail => rfl
  | bounce _ _ _ _ heq | bounceStall _ _ _ _ heq | bounceFail _ _ _ _ heq =>
      rw [heq] at hbounce
      exact hbounce

theorem Transmitted.freeIndex_eq {sent : Transmission P H D}
    (hsent : Transmitted queue sent calls) :
    sent.queue.pool.freeIndex = queue.pool.freeIndex := by
  induction hsent with
  | done => rfl
  | stalled _ _ hattempted => exact hattempted.freeIndex_eq
  | failed _ _ hattempted _ ih | programmed _ _ hattempted _ ih =>
      exact ih.trans hattempted.freeIndex_eq

end Queue

end TransmitQueue
