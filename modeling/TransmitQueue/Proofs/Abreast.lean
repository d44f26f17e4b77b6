import TransmitQueue.Proofs.Grants
import TransmitQueue.Proofs.Phases

/-!
# Queues abreast

Two queues that hold the same packets up to a cursor, in the same states and with the same
resources, may differ in all that lies beyond: in what waits, in the device, in the adapter and
in the counters. As long as the device answers alike, their completion phases go alike up to
that cursor, call by call. Sending packets leaves those in flight alone, so a queue is abreast
of itself after a transmit phase.
-/

namespace TransmitQueue

section Answers

variable {P : Type} {first second rest more : List (Event P)}

/-- Logs in which the device gave the same answers, one after another, for as long as it was
asked in both. -/
def AnsweredAlike (first second : List (Event P)) : Prop :=
  ∀ (index : Nat) (answer other : P × DeviceStatus), (statuses first)[index]? = some answer →
    (statuses second)[index]? = some other → other.2 = answer.2

theorem AnsweredAlike.of_eq (hsame : statuses second = statuses first) :
    AnsweredAlike first second := by
  intro index answer other hanswer hother
  rw [hsame, hanswer] at hother
  cases hother
  rfl

theorem AnsweredAlike.of_append (halike : AnsweredAlike (first ++ rest) (second ++ more)) :
    AnsweredAlike first second := by
  intro index answer other hanswer hother
  obtain ⟨hfirst, _⟩ := List.getElem?_eq_some_iff.mp hanswer
  obtain ⟨hsecond, _⟩ := List.getElem?_eq_some_iff.mp hother
  refine halike index answer other ?_ ?_
  · rwa [statuses_append, List.getElem?_append_left hfirst]
  · rwa [statuses_append, List.getElem?_append_left hsecond]

theorem AnsweredAlike.of_append_right (halike : AnsweredAlike (first ++ rest) (second ++ more))
    (hsame : statuses second = statuses first) : AnsweredAlike rest more := by
  intro index answer other hanswer hother
  refine halike ((statuses first).length + index) answer other ?_ ?_
  · rwa [statuses_append, List.getElem?_append_right (Nat.le_add_right _ _),
      Nat.add_sub_cancel_left]
  · rwa [statuses_append, hsame, List.getElem?_append_right (Nat.le_add_right _ _),
      Nat.add_sub_cancel_left]

end Answers

variable {P H D : Type}

namespace Queue

/-- Two queues that hold the same up to a cursor. -/
structure Abreast (bound : Nat) (left right : Queue P H D) : Prop where
  left_staged : left.ring.Staged
  right_staged : right.ring.Staged
  left_admitted : bound ≤ left.ring.admitted
  right_admitted : bound ≤ right.ring.admitted
  capacity_eq : right.ring.capacity = left.ring.capacity
  taken_eq : right.ring.taken = left.ring.taken
  released_eq : right.ring.released = left.ring.released
  slot_eq : ∀ cursor, left.ring.taken ≤ cursor → cursor < bound →
    right.ring.slot cursor = left.ring.slot cursor
  holding_eq : ∀ cursor, left.ring.released ≤ cursor → cursor < bound →
    right.holdingAt cursor = left.holdingAt cursor
  scratch_eq : ∀ cursor, left.ring.released ≤ cursor → cursor < bound →
    right.scratch? cursor = left.scratch? cursor

namespace Abreast

variable {bound : Nat} {left middle right queue next : Queue P H D}

theorem refl (hstaged : queue.ring.Staged) (hbound : bound ≤ queue.ring.admitted) :
    Abreast bound queue queue :=
  ⟨hstaged, hstaged, hbound, hbound, rfl, rfl, rfl, fun _ _ _ => rfl, fun _ _ _ => rfl,
    fun _ _ _ => rfl⟩

theorem symm (habreast : Abreast bound left right) : Abreast bound right left where
  left_staged := habreast.right_staged
  right_staged := habreast.left_staged
  left_admitted := habreast.right_admitted
  right_admitted := habreast.left_admitted
  capacity_eq := habreast.capacity_eq.symm
  taken_eq := habreast.taken_eq.symm
  released_eq := habreast.released_eq.symm
  slot_eq cursor hlow hhigh := (habreast.slot_eq cursor (habreast.taken_eq ▸ hlow) hhigh).symm
  holding_eq cursor hlow hhigh :=
    (habreast.holding_eq cursor (habreast.released_eq ▸ hlow) hhigh).symm
  scratch_eq cursor hlow hhigh :=
    (habreast.scratch_eq cursor (habreast.released_eq ▸ hlow) hhigh).symm

theorem trans (hfirst : Abreast bound left middle) (hsecond : Abreast bound middle right) :
    Abreast bound left right where
  left_staged := hfirst.left_staged
  right_staged := hsecond.right_staged
  left_admitted := hfirst.left_admitted
  right_admitted := hsecond.right_admitted
  capacity_eq := hsecond.capacity_eq.trans hfirst.capacity_eq
  taken_eq := hsecond.taken_eq.trans hfirst.taken_eq
  released_eq := hsecond.released_eq.trans hfirst.released_eq
  slot_eq cursor hlow hhigh :=
    (hsecond.slot_eq cursor (hfirst.taken_eq.symm ▸ hlow) hhigh).trans
      (hfirst.slot_eq cursor hlow hhigh)
  holding_eq cursor hlow hhigh :=
    (hsecond.holding_eq cursor (hfirst.released_eq.symm ▸ hlow) hhigh).trans
      (hfirst.holding_eq cursor hlow hhigh)
  scratch_eq cursor hlow hhigh :=
    (hsecond.scratch_eq cursor (hfirst.released_eq.symm ▸ hlow) hhigh).trans
      (hfirst.scratch_eq cursor hlow hhigh)

/-- What a queue holds does not depend on the ring beyond the packets in flight, nor on the
device or the counters. -/
theorem of_untouched (hsame : Untouched queue next) (hstaged : queue.ring.Staged)
    (hnext : next.ring.Staged) (htaken : next.ring.taken = queue.ring.taken)
    (hslot : ∀ cursor, queue.ring.taken ≤ cursor → cursor < queue.ring.admitted →
      next.ring.slot cursor = queue.ring.slot cursor) :
    Abreast queue.ring.admitted queue next where
  left_staged := hstaged
  right_staged := hnext
  left_admitted := Nat.le_refl _
  right_admitted := Nat.le_of_eq hsame.admitted_eq.symm
  capacity_eq := hsame.capacity_eq
  taken_eq := htaken
  released_eq := hsame.released_eq
  slot_eq := hslot
  holding_eq cursor _ _ := hsame.holdingAt_eq cursor
  scratch_eq cursor _ _ := scratch?_congr hsame.capacity_eq (by rw [hsame.mapper_eq]) (by
    unfold Queue.context
    rw [hsame.contexts_eq])

end Abreast

variable [Packet P] [Device P H] [Adapter D] {bound : Nat} {left right queue next : Queue P H D}
  {packet : P} {calls : List (Event P)}

/-- Cancelling what waits leaves the packets in flight as they were. -/
theorem abreast_cancel (hstaged : queue.ring.Staged) :
    Abreast queue.ring.admitted queue queue.cancel.2 := by
  have hmoved : Moved queue .cancel queue.cancel.2 := .cancelled
  have hadmitted := hstaged.ordered.admitted_le
  obtain ⟨_, htaken, _⟩ := queue.ring.cancelFrom_snd queue.ring.admitted queue.ring.unposted
  refine .of_untouched (hmoved.untouched hstaged rfl) hstaged hstaged.cancelUnposted htaken ?_
  intro cursor hlow hhigh
  exact (hstaged.ordered.slot_cancelUnposted ⟨hlow, by omega⟩).trans (if_neg (by omega))

/-- An attempt leaves the packets in flight as they were. -/
theorem Attempted.abreast {admission : Admission}
    (hattempted : Attempted queue packet admission calls next) (hstaged : queue.ring.Staged)
    (hready : queue.ring.admitted < queue.ring.posted) (hbound : bound ≤ queue.ring.admitted) :
    Abreast bound queue next := by
  have hring := hattempted.ring_eq
  obtain ⟨htaken, hreleased, _⟩ := hattempted.cursors_eq
  have hcapacity : next.ring.capacity = queue.ring.capacity := by
    rw [hring, PacketRing.capacity_concluded]
  have hspan := hstaged.ordered.posted_le
  have hfirst := hstaged.ordered.taken_le
  -- The attempt writes into the slot of its own packet, which is none of those in flight.
  have hframe : ∀ cursor, queue.ring.released ≤ cursor → cursor < bound →
      next.mapper.block? (queue.ring.position cursor) =
          queue.mapper.block? (queue.ring.position cursor) ∧
        next.context (queue.ring.position cursor) =
          queue.context (queue.ring.position cursor) := by
    intro cursor hlow hhigh
    exact hattempted.frame (PacketRing.position_ne_of_lt (by omega) (by omega))
  refine ⟨hstaged, hattempted.staged hstaged hready, hbound, ?_, hcapacity, htaken, hreleased,
    ?_, ?_, ?_⟩
  · rw [hring]
    exact Nat.le_trans hbound (queue.ring.admitted_le_concluded admission)
  · intro cursor hlow hhigh
    rw [hring, hstaged.slot_concluded hready admission hlow (by omega), if_neg (by omega)]
  · intro cursor hlow hhigh
    unfold holdingAt
    rw [PacketRing.position_congr hcapacity, (hframe cursor hlow hhigh).2]
  · intro cursor hlow hhigh
    obtain ⟨hblock, hcontext⟩ := hframe cursor hlow hhigh
    exact scratch?_congr hcapacity hblock hcontext

theorem Transmitted.abreast {sent : Transmission P H D} (hsent : Transmitted queue sent calls)
    (hstaged : queue.ring.Staged) (hbound : bound ≤ queue.ring.admitted) :
    Abreast bound queue sent.queue := by
  induction hsent with
  | done => exact .refl hstaged hbound
  | stalled hready _ hattempted => exact hattempted.abreast hstaged hready hbound
  | failed hready _ hattempted _ ih | programmed hready _ hattempted _ ih =>
      have hfirst := hattempted.abreast hstaged hready hbound
      exact hfirst.trans (ih hfirst.right_staged hfirst.right_admitted)

theorem abreast_flushed (hsound : queue.Sound) :
    Abreast queue.ring.admitted queue queue.flushed := by
  obtain ⟨sent, _, _, hadvanced⟩ := exists_advanced hsound
  have hsent := hadvanced.transmitted.abreast hsound.staged (Nat.le_refl _)
  rw [hadvanced.flushed_eq]
  split
  next => exact hsent
  next => exact { hsent with }

section Scan

variable {following : Queue P H D} {outcome other : Option Completion} {more : List (Event P)}

omit [Packet P] [Device P H] [Adapter D] in
/-- A return hands back the scratch of a slot that holds a mapping, and nothing else. -/
theorem returnCalls_eq (queue : Queue P H D) (cursor : Nat) :
    queue.returnCalls (queue.ring.position cursor) =
      if (queue.holdingAt cursor).dmaMapped then
        (queue.scratch? cursor).toList.map fun scratch =>
          .unmap scratch.slot scratch.context scratch.list
      else ([] : List (Event P)) := by
  unfold returnCalls scratch?
  cases queue.mapper.block? (queue.ring.position cursor) <;> rfl

omit [Packet P] [Adapter D] in
/-- A packet whose outcome is the same to both, or about which the device gives both the same
answer, ends alike. -/
theorem Settled.agree {completion ended : Completion}
    (hleft : Settled left packet completion calls next)
    (hright : Settled right packet ended more following)
    (hslot : right.ring.slot right.ring.released = left.ring.slot left.ring.released)
    (hanswers : AnsweredAlike calls more) : ended = completion ∧ more = calls := by
  cases hleft with
  | known _ hstate =>
      cases hright with
      | known _ hknown =>
          rw [hslot, hstate] at hknown
          exact ⟨(PacketState.completed.inj hknown).symm, rfl⟩
      | success _ hunknown | error _ hunknown => exact absurd (hslot ▸ hstate) (hunknown _)
  | success _ hunknown =>
      cases hright with
      | known _ hknown => exact absurd (hslot ▸ hknown) (hunknown _)
      | success => exact ⟨rfl, rfl⟩
      | error => cases hanswers 0 _ _ rfl rfl
  | error _ hunknown =>
      cases hright with
      | known _ hknown => exact absurd (hslot ▸ hknown) (hunknown _)
      | success => cases hanswers 0 _ _ rfl rfl
      | error => exact ⟨rfl, rfl⟩

omit [Packet P] [Device P H] [Adapter D] in
/-- Before the cursor both have the same packet as their oldest in flight. -/
theorem Abreast.oldest_eq (habreast : Abreast bound left right)
    (hbusy : left.ring.released < bound) :
    right.ring.slot right.ring.released = left.ring.slot left.ring.released := by
  rw [habreast.released_eq]
  exact habreast.slot_eq _ habreast.left_staged.ordered.taken_le hbusy

omit [Packet P] [Device P H] [Adapter D] in
theorem Abreast.inFlight_ne_zero (habreast : Abreast bound left right)
    (hbusy : left.ring.released < bound) : right.inFlight ≠ 0 := by
  have hinside := habreast.right_admitted
  have hreleased := habreast.released_eq
  unfold inFlight PacketRing.inFlight
  omega

omit [Packet P] in
/-- Looks at the same packet go alike if the device answers alike. -/
theorem Abreast.agree (habreast : Abreast bound left right) (hbusy : left.ring.released < bound)
    (hleft : Scanned left packet outcome calls next)
    (hright : Scanned right packet other more following)
    (hanswers : AnsweredAlike calls more) : other = outcome ∧ more = calls := by
  have hslot := habreast.oldest_eq hbusy
  cases hleft with
  | pending device hunknown =>
      cases hright with
      | pending => exact ⟨rfl, rfl⟩
      | released ended asked returns settled _ hsettled =>
          cases hsettled with
          | known _ hknown => exact absurd (hslot ▸ hknown) (hunknown _)
          | success | error => cases hanswers 0 _ _ rfl rfl
  | released completion asked returns settled _ hsettled hreturned =>
      cases hright with
      | pending device hunknown =>
          cases hsettled with
          | known _ hknown => exact absurd (hslot ▸ hknown) (hunknown _)
          | success | error => cases hanswers 0 _ _ rfl rfl
      | released ended others hands known _ hknown hhanded =>
          obtain ⟨rfl, rfl⟩ := hsettled.agree hknown hslot hanswers.of_append
          refine ⟨rfl, congrArg (others ++ ·) ?_⟩
          obtain ⟨_, _, rfl⟩ := hsettled.exists_device
          obtain ⟨_, _, rfl⟩ := hknown.exists_device
          have hholding : right.holdingAt right.ring.released =
              left.holdingAt left.ring.released := by
            rw [habreast.released_eq]
            exact habreast.holding_eq _ (Nat.le_refl _) hbusy
          have hscratch : right.scratch? right.ring.released =
              left.scratch? left.ring.released := by
            rw [habreast.released_eq]
            exact habreast.scratch_eq _ (Nat.le_refl _) hbusy
          have hgiven : hands = right.returnCalls right.releasePosition := hhanded.calls_eq
          have hreturns : returns = left.returnCalls left.releasePosition := hreturned.calls_eq
          rw [hgiven, hreturns, releasePosition, releasePosition, right.returnCalls_eq,
            left.returnCalls_eq, hholding, hscratch]

omit [Packet P] in
/-- Looks that end alike leave the queues abreast. -/
theorem Abreast.scanned (habreast : Abreast bound left right) (hbusy : left.ring.released < bound)
    (hleft : Scanned left packet outcome calls next)
    (hright : Scanned right packet outcome more following) : Abreast bound next following := by
  have hsame := habreast.released_eq
  have hinside := habreast.left_admitted
  have hbeyond := habreast.right_admitted
  have hleftBusy : left.ring.released < left.ring.admitted := by omega
  have hrightBusy : right.ring.released < right.ring.admitted := by omega
  have hadmitted := habreast.left_staged.ordered.admitted_le
  have hposted := habreast.right_staged.ordered.admitted_le
  have hreleased : following.ring.released = next.ring.released := by
    rw [hleft.ring_eq, hright.ring_eq]
    cases outcome with
    | none => exact hsame
    | some completion => exact congrArg (· + 1) hsame
  have hgrown : left.ring.released ≤ next.ring.released := by
    rw [hleft.ring_eq]
    cases outcome with
    | none => exact Nat.le_refl _
    | some completion => exact Nat.le_succ _
  have hkept : ∀ ring : PacketRing P, (ring.scanned outcome).admitted = ring.admitted := by
    intro ring
    cases outcome <;> rfl
  refine ⟨hleft.staged habreast.left_staged hleftBusy, hright.staged habreast.right_staged
    hrightBusy, ?_, ?_, ?_, ?_, hreleased, ?_, ?_, ?_⟩
  · rwa [hleft.ring_eq, hkept]
  · rwa [hright.ring_eq, hkept]
  · rw [hleft.ring_eq, hright.ring_eq, PacketRing.capacity_scanned, PacketRing.capacity_scanned,
      habreast.capacity_eq]
  · rw [hleft.ring_eq, hright.ring_eq, PacketRing.taken_scanned, PacketRing.taken_scanned,
      habreast.taken_eq]
  · intro cursor hlow hhigh
    rw [hleft.ring_eq, PacketRing.taken_scanned] at hlow
    rw [hleft.ring_eq, hright.ring_eq,
      habreast.left_staged.slot_scanned hleftBusy outcome hlow (by omega),
      habreast.right_staged.slot_scanned hrightBusy outcome (habreast.taken_eq ▸ hlow) (by omega),
      hsame, habreast.slot_eq cursor hlow hhigh]
  · intro cursor hlow hhigh
    rw [(hleft.held_eq habreast.left_staged hlow (by omega)).1,
      (hright.held_eq habreast.right_staged (hreleased ▸ hlow) (by omega)).1]
    exact habreast.holding_eq cursor (by omega) hhigh
  · intro cursor hlow hhigh
    rw [(hleft.held_eq habreast.left_staged hlow (by omega)).2,
      (hright.held_eq habreast.right_staged (hreleased ▸ hlow) (by omega)).2]
    exact habreast.scratch_eq cursor (by omega) hhigh

end Scan

section Drained

variable {following : Queue P H D} {more : List (Event P)} {count other : Nat}

/-- How the completion phases of two queues abreast go that get the same answers. The second one
starts at a given queue. -/
inductive DrainedAlike (bound : Nat) (queue : Queue P H D) (calls more : List (Event P))
    (next following : Queue P H D) : Prop where
  /-- Both stop at the same packet, before the cursor. -/
  | stopped (habreast : Abreast bound next following) (hshort : next.ring.released < bound)
      (hcalls : more = calls) : DrainedAlike bound queue calls more next following
  /-- Both release all packets up to the cursor, and each goes on by itself. -/
  | passed {left right : Queue P H D} {shared later latter : List (Event P)} {count other : Nat}
      (habreast : Abreast bound left right) (hreached : left.ring.released = bound)
      (hbehind : ∀ cursor, bound ≤ cursor → cursor < queue.ring.admitted →
        right.ring.slot cursor = queue.ring.slot cursor ∧
          right.holdingAt cursor = queue.holdingAt cursor)
      (hcalls : calls = shared ++ later) (hmore : more = shared ++ latter)
      (hleft : Drained left count later next) (hright : Drained right other latter following) :
      DrainedAlike bound queue calls more next following

omit [Packet P] in
/-- The cursor may be reached at once. -/
theorem Abreast.drainedAlike (habreast : Abreast bound left right)
    (hreached : left.ring.released = bound) (hleft : Drained left count calls next)
    (hright : Drained right other more following) :
    DrainedAlike bound right calls more next following :=
  .passed habreast hreached (fun _ _ _ => ⟨rfl, rfl⟩) (List.nil_append _).symm
    (List.nil_append _).symm hleft hright

omit [Packet P] in
/-- A release of both comes before the rest. -/
theorem DrainedAlike.cons {shared : List (Event P)} {completion : Completion}
    (hscanned : Scanned queue packet (some completion) shared right)
    (hstaged : queue.ring.Staged) (hshort : queue.ring.released < bound)
    (hrest : DrainedAlike bound right calls more next following) :
    DrainedAlike bound queue (shared ++ calls) (shared ++ more) next following := by
  cases hrest with
  | stopped habreast hshort hcalls =>
      exact .stopped habreast hshort (congrArg (shared ++ ·) hcalls)
  | passed habreast hreached hbehind hcalls hmore hleft hright =>
      have hadmitted : right.ring.admitted = queue.ring.admitted := by
        rw [hscanned.ring_eq]
        rfl
      rw [hcalls, hmore, ← List.append_assoc, ← List.append_assoc]
      refine .passed habreast hreached (fun cursor hlow hhigh => ?_) rfl rfl hleft hright
      obtain ⟨hslot, hholding⟩ := hbehind cursor hlow (hadmitted ▸ hhigh)
      obtain ⟨hsame, hheld⟩ := hscanned.behind_eq hstaged (Nat.lt_of_lt_of_le hshort hlow) hhigh
      exact ⟨hslot.trans hsame, hholding.trans hheld⟩

omit [Packet P] in
/-- Completion phases go alike up to the cursor to which their queues are abreast, as far as the
device answers alike. -/
theorem Abreast.drained (habreast : Abreast bound left right)
    (hbound : left.ring.released ≤ bound) (hleft : Drained left count calls next)
    (hright : Drained right other more following) (hanswers : AnsweredAlike calls more) :
    DrainedAlike bound right calls more next following := by
  induction hleft generalizing right other more with
  | @done left hnone =>
      have hinside := habreast.left_admitted
      have hreached : left.ring.released = bound := by
        unfold inFlight PacketRing.inFlight at hnone
        omega
      exact habreast.drainedAlike hreached (.done hnone) hright
  | @pending left next packet calls hbusy hpacket hscanned =>
      rcases Nat.lt_or_eq_of_le hbound with hshort | hreached
      · have hsame := habreast.oldest_eq hshort
        rw [← List.append_nil calls] at hanswers
        cases hright with
        | done hnone => exact absurd hnone (habreast.inFlight_ne_zero hshort)
        | pending _ hother hanother =>
            rw [hsame, hpacket] at hother
            cases hother
            rw [← List.append_nil more] at hanswers
            obtain ⟨_, rfl⟩ := habreast.agree hshort hscanned hanother hanswers.of_append
            refine .stopped (habreast.scanned hshort hscanned hanother) ?_ rfl
            rw [hscanned.ring_eq]
            exact hshort
        | released _ hother hanother =>
            rw [hsame, hpacket] at hother
            cases hother
            cases (habreast.agree hshort hscanned hanother hanswers.of_append).1
      · exact habreast.drainedAlike hreached (.pending hbusy hpacket hscanned) hright
  | @released left middle next packet completion calls rest count hbusy hpacket hscanned hrest ih =>
      rcases Nat.lt_or_eq_of_le hbound with hshort | hreached
      · have hsame := habreast.oldest_eq hshort
        cases hright with
        | done hnone => exact absurd hnone (habreast.inFlight_ne_zero hshort)
        | pending _ hother hanother =>
            rw [hsame, hpacket] at hother
            cases hother
            rw [← List.append_nil more] at hanswers
            cases (habreast.agree hshort hscanned hanother hanswers.of_append).1
        | released _ hother hanother hfurther =>
            rw [hsame, hpacket] at hother
            cases hother
            obtain ⟨hcompletion, rfl⟩ :=
              habreast.agree hshort hscanned hanother hanswers.of_append
            cases hcompletion
            have hpassed : middle.ring.released = left.ring.released + 1 := by
              rw [hscanned.ring_eq]
              rfl
            exact .cons hanother habreast.right_staged (habreast.released_eq ▸ hshort)
              (ih (habreast.scanned hshort hscanned hanother) (by omega) hfurther
                (hanswers.of_append_right rfl))
      · exact habreast.drainedAlike hreached (.released hbusy hpacket hscanned hrest) hright

end Drained

end Queue

end TransmitQueue
