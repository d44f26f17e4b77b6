import TransmitQueue.Proofs.Transitions

/-!
# Between two operations

What every caller finds between two operations: where the packets are among the cursors, in
which states, what the other slots are, and which slots hold mapping resources. The last look
of an advance found the oldest packet in flight pending, so that packet is pending until the
next advance, and no other packet is.
-/

namespace TransmitQueue

namespace PacketRing

variable {P : Type} {ring : PacketRing P}

/-- Some cursor of every window as long as the ring belongs to a given slot. -/
theorem exists_position_eq {position : Nat} (hposition : position < ring.capacity) (low : Nat) :
    ∃ cursor, low ≤ cursor ∧ cursor < low + ring.capacity ∧ ring.position cursor = position := by
  have hbelow : low % ring.capacity < ring.capacity := Nat.mod_lt _ (by omega)
  refine ⟨low + (position + ring.capacity - low % ring.capacity) % ring.capacity,
    Nat.le_add_right _ _, Nat.add_lt_add_left (Nat.mod_lt _ (by omega)) low, ?_⟩
  unfold PacketRing.position
  rw [Nat.add_mod_mod, ← Nat.mod_add_mod]
  rw [show low % ring.capacity + (position + ring.capacity - low % ring.capacity) =
    position + ring.capacity by omega, Nat.add_mod_right, Nat.mod_eq_of_lt hposition]

/-- A write inside the window is not seen from the slots behind it. -/
theorem Ordered.slot_setSlot_behind (hring : ring.Ordered) {cursor other : Nat}
    (slot : RingSlot P) (hcursor : ring.taken ≤ cursor ∧ cursor < ring.posted)
    (hother : ring.posted ≤ other ∧ other < ring.taken + ring.capacity) :
    (ring.setSlot cursor slot).slot other = ring.slot other := by
  have hspan := hring.posted_le
  refine (slot_setSlot_window slot hring.capacity_pos (by omega) (by omega)).trans ?_
  exact if_neg (by omega)

/-- A ring whose slots behind the window are vacant, and in which no packet but the oldest in
flight is pending. -/
structure Tidy (ring : PacketRing P) : Prop where
  vacant : ∀ cursor, ring.posted ≤ cursor → cursor < ring.taken + ring.capacity →
    ring.slot cursor = .vacant
  headed : ∀ cursor, ring.taken ≤ cursor → cursor < ring.posted →
    (ring.slot cursor).state = .completionPending → cursor = ring.released

theorem tidy_empty (capacity : Nat) : (empty capacity : PacketRing P).Tidy where
  vacant cursor _ _ := by
    unfold slot
    rw [show (empty capacity : PacketRing P).slots = List.replicate capacity .vacant from rfl,
      List.getElem?_replicate]
    split <;> rfl
  headed cursor _ hhigh := absurd hhigh (Nat.not_lt_zero cursor)

namespace Tidy

variable (htidy : ring.Tidy) (hstaged : ring.Staged)
include htidy hstaged

theorem post {packet : P} {next : PacketRing P} (hpost : ring.post packet = .ok next) :
    next.Tidy := by
  have htaken := hstaged.ordered.taken_le
  have hreleased := hstaged.ordered.released_le
  have hadmitted := hstaged.ordered.admitted_le
  have hlive := fun cursor (hlow : ring.taken ≤ cursor) (hhigh : cursor ≤ ring.posted) =>
    hstaged.ordered.slot_post hpost ⟨hlow, hhigh⟩
  obtain ⟨_, rfl⟩ := post_eq_ok_iff.mp hpost
  refine ⟨fun cursor hlow hhigh => ?_, fun cursor hlow hhigh hpending => ?_⟩
  · change ring.posted + 1 ≤ cursor at hlow
    change cursor < ring.taken + (ring.setSlot ring.posted _).capacity at hhigh
    rw [capacity_setSlot] at hhigh
    have hslot : (ring.setSlot ring.posted (.fresh packet)).slot cursor = _ :=
      slot_setSlot_window (.fresh packet) hstaged.ordered.capacity_pos (by omega) (by omega)
    rw [if_neg (by omega)] at hslot
    exact hslot.trans (htidy.vacant cursor (by omega) hhigh)
  · change ring.taken ≤ cursor at hlow
    change cursor < ring.posted + 1 at hhigh
    rw [hlive cursor hlow (by omega)] at hpending
    split at hpending
    next => cases hpending
    next => exact htidy.headed cursor hlow (by omega) hpending

theorem pop {completed : CompletedPacket P} {next : PacketRing P}
    (hpop : ring.pop? = some (completed, next)) : next.Tidy := by
  have htaken := hstaged.ordered.taken_le
  have hreleased := hstaged.ordered.released_le
  have hadmitted := hstaged.ordered.admitted_le
  have hlive := fun cursor (hlow : ring.taken < cursor) (hhigh : cursor < ring.posted) =>
    hstaged.ordered.slot_pop hpop ⟨hlow, hhigh⟩
  have hpos := hstaged.ordered.capacity_pos
  obtain ⟨hne, _, _, rfl⟩ := pop?_eq_some_iff.mp hpop
  refine ⟨fun cursor hlow hhigh => ?_, fun cursor hlow hhigh hpending => ?_⟩
  · change ring.posted ≤ cursor at hlow
    change cursor < ring.taken + 1 + (ring.setSlot ring.taken _).capacity at hhigh
    rw [capacity_setSlot] at hhigh
    change (ring.setSlot ring.taken .vacant).slot cursor = .vacant
    -- The slot just vacated is the last one behind the window.
    rcases Nat.lt_or_ge cursor (ring.taken + ring.capacity) with hbehind | hlast
    · rw [hstaged.ordered.slot_setSlot_behind _ ⟨Nat.le_refl _, by omega⟩ ⟨hlow, hbehind⟩]
      exact htidy.vacant cursor hlow hbehind
    · obtain rfl : cursor = ring.taken + ring.capacity := by omega
      have hsame : (ring.setSlot ring.taken .vacant).slot (ring.taken + ring.capacity) =
          (ring.setSlot ring.taken .vacant).slot ring.taken := by
        simp only [slot, position, capacity_setSlot, Nat.add_mod_right]
      rw [hsame, slot_setSlot_self _ _ hpos]
  · change ring.taken + 1 ≤ cursor at hlow
    change cursor < ring.posted at hhigh
    rw [hlive cursor hlow hhigh] at hpending
    exact htidy.headed cursor (by omega) hhigh hpending

theorem cancelUnposted : ring.cancelUnposted.2.Tidy := by
  have htaken := hstaged.ordered.taken_le
  have hreleased := hstaged.ordered.released_le
  have hadmitted := hstaged.ordered.admitted_le
  have hspan := hstaged.ordered.posted_le
  obtain ⟨hcapacity, hfirst, hsame, _, hlast⟩ := cancelFrom_snd ring ring.admitted ring.unposted
  have hcursors : ring.cancelUnposted.2.capacity = ring.capacity ∧
      ring.cancelUnposted.2.taken = ring.taken ∧ ring.cancelUnposted.2.released = ring.released ∧
      ring.cancelUnposted.2.posted = ring.posted := ⟨hcapacity, hfirst, hsame, hlast⟩
  refine ⟨fun cursor hlow hhigh => ?_, fun cursor hlow hhigh hpending => ?_⟩
  · rw [hcursors.2.2.2] at hlow
    rw [hcursors.2.1, hcursors.1] at hhigh
    unfold PacketRing.cancelUnposted PacketRing.unposted
    rw [slot_cancelFrom ring hstaged.ordered.capacity_pos (by omega) (by omega),
      if_neg (by omega)]
    exact htidy.vacant cursor hlow hhigh
  · rw [hcursors.2.1] at hlow
    rw [hcursors.2.2.2] at hhigh
    rw [hcursors.2.2.1]
    rw [hstaged.ordered.slot_cancelUnposted ⟨hlow, hhigh⟩] at hpending
    refine htidy.headed cursor hlow hhigh ?_
    split at hpending <;> exact hpending

theorem concluded (hready : ring.admitted < ring.posted) (admission : Queue.Admission) :
    (ring.concluded admission).Tidy := by
  have htaken := hstaged.ordered.taken_le
  have hreleased := hstaged.ordered.released_le
  have hbehind : ∀ cursor, ring.posted ≤ cursor → cursor < ring.taken + ring.capacity →
      (ring.concluded admission).slot cursor = ring.slot cursor := by
    intro cursor hlow hhigh
    cases admission <;>
      exact hstaged.ordered.slot_setSlot_behind _ ⟨by omega, hready⟩ ⟨hlow, hhigh⟩
  refine ⟨fun cursor hlow hhigh => ?_, fun cursor hlow hhigh hpending => ?_⟩
  · rw [posted_concluded] at hlow
    rw [taken_concluded, capacity_concluded] at hhigh
    rw [hbehind cursor hlow hhigh]
    exact htidy.vacant cursor hlow hhigh
  · rw [taken_concluded] at hlow
    rw [posted_concluded] at hhigh
    rw [released_concluded]
    rw [hstaged.slot_concluded hready admission hlow hhigh] at hpending
    split at hpending
    next => cases admission <;> cases hpending
    next => exact htidy.headed cursor hlow hhigh hpending

theorem scanned (hbusy : ring.released < ring.admitted) (outcome : Option Completion) :
    (ring.scanned outcome).Tidy := by
  have htaken := hstaged.ordered.taken_le
  have hadmitted := hstaged.ordered.admitted_le
  have hbehind : ∀ cursor, ring.posted ≤ cursor → cursor < ring.taken + ring.capacity →
      (ring.scanned outcome).slot cursor = ring.slot cursor := by
    intro cursor hlow hhigh
    cases outcome <;>
      exact hstaged.ordered.slot_setSlot_behind _ ⟨htaken, by omega⟩ ⟨hlow, hhigh⟩
  refine ⟨fun cursor hlow hhigh => ?_, fun cursor hlow hhigh hpending => ?_⟩
  · rw [posted_scanned] at hlow
    rw [taken_scanned, capacity_scanned] at hhigh
    rw [hbehind cursor hlow hhigh]
    exact htidy.vacant cursor hlow hhigh
  · rw [taken_scanned] at hlow
    rw [posted_scanned] at hhigh
    rw [hstaged.slot_scanned hbusy outcome hlow hhigh] at hpending
    cases outcome with
    | none =>
        split at hpending
        next hcursor => exact hcursor
        next => exact htidy.headed cursor hlow hhigh hpending
    | some completion =>
        split at hpending
        next => cases hpending
        next hcursor => exact absurd (htidy.headed cursor hlow hhigh hpending) hcursor

end Tidy

/-- A ring whose oldest packet in flight was found pending by the last look. -/
def AtRest (ring : PacketRing P) : Prop :=
  ring.released < ring.admitted → (ring.slot ring.released).state = .completionPending

end PacketRing

namespace Queue

variable {P H D : Type} [Packet P] [Device P H] [Adapter D] {start queue next last : Queue P H D}
  {config : Config} {steps : List (Step P H D)}

theorem Moved.tidy {move : Move P H D} (hmoved : Moved queue move next)
    (hstaged : queue.ring.Staged) (htidy : queue.ring.Tidy) : next.ring.Tidy := by
  cases hmoved with
  | posted packet ring hpost => exact htidy.post hstaged hpost
  | popped completed ring hpop => exact htidy.pop hstaged hpop
  | cancelled => exact htidy.cancelUnposted hstaged
  | admitted packet admission calls _ hready _ _ hattempted =>
      rw [hattempted.ring_eq]
      exact htidy.concluded hstaged hready admission
  | scanned packet outcome calls _ hbusy _ _ hscanned =>
      rw [hscanned.ring_eq]
      exact htidy.scanned hstaged hbusy outcome
  | rejected | nothingPopped | quiet => exact htidy

theorem Course.tidy (hcourse : Course start steps last) (hbuilt : Built config start) :
    last.ring.Tidy := by
  refine hcourse.invariant (fun _ queue => queue.ring.Tidy) hbuilt.sound ?_
    fun _ _ _ _ _ hstaged _ hmoved htidy => hmoved.tidy hstaged htidy
  rw [hbuilt.ring_eq]
  exact PacketRing.tidy_empty _

theorem Course.eq_of_nil (hcourse : Course start steps last) (hsteps : steps = []) :
    last = start := by
  cases hcourse with
  | refl => rfl
  | snoc => exact absurd hsteps (List.append_ne_nil_of_right_ne_nil _ (List.cons_ne_nil _ _))

section Rest

omit [Packet P] in
/-- A completion phase stops at a packet that it found pending, or releases every packet. -/
theorem atRest_complete (count : Nat) (hstaged : queue.ring.Staged)
    (hcount : count = queue.inFlight) : (complete count queue).value.2.ring.AtRest := by
  induction count generalizing queue with
  | zero =>
      intro hbusy
      exact absurd hcount (Nat.ne_of_lt (queue.ready_scan_iff.mp hbusy))
  | succ count ih =>
      have hbusy : queue.ring.released < queue.ring.admitted :=
        queue.ready_scan_iff.mpr (hcount ▸ Nat.succ_pos count)
      have hadmitted := hstaged.ordered.admitted_le
      obtain ⟨packet, hpacket⟩ := hstaged.occupied queue.ring.released hstaged.ordered.taken_le
        (by omega)
      have hscanned := queue.scanned_releaseOldest hpacket
      have hless := queue.inFlight_releaseOldest hbusy
      rw [complete_succ]
      rcases hrelease : queue.releaseOldest with ⟨⟨outcome, next⟩, calls⟩
      rw [hrelease] at hscanned hless
      have hring : next.ring = queue.ring.scanned outcome := hscanned.ring_eq
      cases outcome with
      | none =>
          change next.ring.AtRest
          intro _
          have hslot := hstaged.slot_scanned hbusy none hstaged.ordered.taken_le
            (by omega : queue.ring.released < queue.ring.posted)
          rw [if_pos rfl] at hslot
          rw [hring]
          exact congrArg RingSlot.state hslot
      | some completion =>
          have hfewer : next.inFlight + 1 = queue.inFlight :=
            hless.resolve_left (Option.some_ne_none _)
          have hnext : next.ring.Staged := hring ▸ hstaged.scanned hbusy _
          exact ih hnext (by omega)

theorem atRest_advance (hsound : queue.Sound) : queue.advance.value.2.ring.AtRest := by
  have hflushed := queue.course_flushed.staged hsound
  rw [value_advance]
  exact atRest_complete queue.flushed.inFlight hflushed rfl

theorem atRest_drainWithin (pause budget : Nat) (hsound : queue.Sound) :
    (drainWithin pause budget queue).value.2.ring.AtRest := by
  induction budget using Nat.strongRecOn generalizing queue with
  | ind budget ih =>
      have hrest := atRest_advance hsound
      have hnext := queue.course_advance.sound hsound
      rw [drainWithin]
      rcases hadvance : queue.advance with ⟨⟨summary, next⟩, calls⟩
      rw [hadvance] at hrest hnext
      rw [Traced.mk_bind]
      dsimp only at hrest hnext ⊢
      split
      next => exact hrest
      next =>
        split
        next => exact hrest
        next hbudget => exact ih (budget - (pause + 1)) (by omega) hnext

/-- Between two operations the oldest packet in flight is pending: an advance leaves it so,
and nothing else touches it. -/
theorem atRest_perform (hsound : queue.Sound) (hrest : queue.ring.AtRest)
    (operation : Operation P H D) : (queue.perform operation).value.2.ring.AtRest := by
  have hkept : ∀ move, queue.steps operation = [⟨queue, move⟩] → move.isDealing = false →
      (queue.perform operation).value.2.ring.AtRest := by
    intro move hsteps hmove
    have hcourse := (queue.course_perform operation).1
    rw [hsteps] at hcourse
    obtain ⟨_, hready, hafter⟩ := hcourse.split (List.nil_append _).symm
    have hmoved := hsound.moved hready
    rw [hafter.eq_of_nil rfl]
    have hsame := hmoved.untouched hsound.staged hmove
    intro hbusy
    change (queue.move move).value.ring.released < (queue.move move).value.ring.admitted at hbusy
    change ((queue.move move).value.ring.slot (queue.move move).value.ring.released).state = _
    rw [hsame.released_eq, hsame.admitted_eq] at hbusy
    rw [hsame.released_eq, hsame.slot_eq _ (Nat.le_refl _) hbusy]
    exact hrest hbusy
  cases operation with
  | advance => exact atRest_advance hsound
  | drain interval timeout => exact atRest_drainWithin _ timeout hsound
  | post packet => exact hkept (.post packet) rfl rfl
  | pop => exact hkept .pop rfl rfl
  | cancel => exact hkept .cancel rfl rfl
  | resetStatistics => exact hkept .resetStatistics rfl rfl
  | changeDevice change => exact hkept (.changeDevice change) rfl rfl
  | changeAdapter change => exact hkept (.changeAdapter change) rfl rfl

theorem atRest_after (hsound : queue.Sound) (hrest : queue.ring.AtRest)
    (operations : List (Operation P H D)) : (queue.after operations).ring.AtRest := by
  induction operations generalizing queue with
  | nil => exact hrest
  | cons operation rest ih =>
      exact ih ((queue.course_perform operation).1.sound hsound)
        (atRest_perform hsound hrest operation)

end Rest

/-- A queue as every caller finds it between two operations. -/
structure Orderly (queue : Queue P H D) : Prop where
  ordered : queue.ring.Ordered
  occupied : ∀ cursor, queue.ring.taken ≤ cursor → cursor < queue.ring.posted →
    ∃ packet, (queue.ring.slot cursor).packet = some packet
  vacant : ∀ position < queue.ring.capacity,
    (∀ cursor, queue.ring.taken ≤ cursor → cursor < queue.ring.posted →
      queue.ring.position cursor ≠ position) → queue.ring.slots[position]? = some .vacant
  released : ∀ cursor, queue.ring.taken ≤ cursor → cursor < queue.ring.released →
    ∃ completion, (queue.ring.slot cursor).state = .released completion
  waiting : ∀ cursor, queue.ring.admitted ≤ cursor → cursor < queue.ring.posted →
    (queue.ring.slot cursor).state = .unposted
  pending_iff : ∀ cursor, queue.ring.taken ≤ cursor → cursor < queue.ring.posted →
    ((queue.ring.slot cursor).state = .completionPending ↔
      cursor = queue.ring.released ∧ queue.ring.released < queue.ring.admitted)
  behind_head : ∀ cursor, queue.ring.released < cursor → cursor < queue.ring.admitted →
    (queue.ring.slot cursor).state = .programmed ∨
      ∃ failure, failure.precedesDevice = true ∧
        (queue.ring.slot cursor).state = .completed (.failed failure)
  visible : ∀ cursor state, queue.packetState? cursor = some state → state.isVisible = true
  exclusive : ∀ position,
    ¬ ((queue.context position).bounced = true ∧ (queue.context position).dmaMapped = true)
  held : ∀ position,
    (queue.context position).bounced = true ∨ (queue.context position).dmaMapped = true →
    ∃ cursor, queue.ring.released ≤ cursor ∧ cursor < queue.ring.admitted ∧
      queue.ring.position cursor = position ∧ (queue.ring.slot cursor).state.isOnDevice = true
  /-- One of the two flags is set, and one only. -/
  provided : queue.backend = .delegated → ∀ cursor, queue.ring.released ≤ cursor →
    cursor < queue.ring.admitted → (queue.ring.slot cursor).state.isOnDevice = true →
    (queue.context (queue.ring.position cursor)).bounced ≠
      (queue.context (queue.ring.position cursor)).dmaMapped
  unmapped : queue.backend = .direct → ∀ position, (queue.context position).dmaMapped = false

/-- A slot that holds something is that of a packet in flight. -/
theorem Course.exists_of_held (hcourse : Course start steps last) (hbuilt : Built config start)
    {position : Nat}
    (hheld : (last.context position).bounced = true ∨ (last.context position).dmaMapped = true) :
    ∃ cursor, last.ring.released ≤ cursor ∧ cursor < last.ring.admitted ∧
      last.ring.position cursor = position := by
  have hheld := (last.context position).holding_ne_nothing_iff.mpr hheld
  have hposition : position < last.ring.capacity := by
    rw [← (hcourse.sound hbuilt.sound).contexts_length]
    refine Nat.lt_of_not_le fun hout => hheld ?_
    unfold context
    rw [List.getElem?_eq_none hout]
    rfl
  obtain ⟨cursor, hlow, hhigh, hcursor⟩ :=
    PacketRing.exists_position_eq hposition last.ring.released
  refine ⟨cursor, hlow, Nat.lt_of_not_le fun hbehind => hheld ?_, hcursor⟩
  rw [← hcursor]
  exact hcourse.vacant hbuilt hbehind hhigh

/-- Between two moves every packet in the ring is in a visible state. -/
theorem Course.isVisible (hcourse : Course start steps last) (hbuilt : Built config start)
    {cursor : Nat} (hlow : last.ring.taken ≤ cursor) (hhigh : cursor < last.ring.posted) :
    (last.ring.slot cursor).state.isVisible = true :=
  PacketState.isVisible_of_leads (hcourse.leads_of_unposted hbuilt hlow hhigh)

/-- A packet in flight behind the oldest one was handed to the device, or failed before. -/
theorem Course.state_behind_head (hcourse : Course start steps last) (hbuilt : Built config start)
    {cursor : Nat} (hlow : last.ring.released < cursor) (hhigh : cursor < last.ring.admitted) :
    (last.ring.slot cursor).state = .programmed ∨
      ∃ failure, failure.precedesDevice = true ∧
        (last.ring.slot cursor).state = .completed (.failed failure) := by
  have hstaged := hcourse.staged hbuilt.sound
  have htaken := hstaged.ordered.taken_le
  have hadmitted := hstaged.ordered.admitted_le
  have hlive : last.ring.taken ≤ cursor := by omega
  have hposted : cursor < last.ring.posted := by omega
  have hflight := hstaged.inFlight cursor (Nat.le_of_lt hlow) hhigh
  have hvisible := hcourse.isVisible hbuilt hlive hposted
  cases hstate : (last.ring.slot cursor).state with
  | programmed => exact Or.inl rfl
  | completionPending =>
      have hcursor := (hcourse.tidy hbuilt).headed cursor hlive hposted hstate
      exact absurd hcursor (Nat.ne_of_gt hlow)
  | completed completion =>
      rw [hstate] at hflight hvisible
      cases completion with
      | success => cases hflight
      | failed failure => exact Or.inr ⟨failure, hvisible, rfl⟩
  | unposted | admitted | released =>
      rw [hstate] at hflight
      cases hflight

theorem Course.orderly (hcourse : Course start steps last) (hbuilt : Built config start)
    (hrest : last.ring.AtRest) : Orderly last := by
  have hstaged := hcourse.staged hbuilt.sound
  have htidy := hcourse.tidy hbuilt
  have hfurnished := hcourse.furnished hbuilt
  refine ⟨hstaged.ordered, hstaged.occupied, ?_, hstaged.released, hstaged.waiting, ?_, ?_, ?_,
    ?_, ?_, ?_, ?_⟩
  · intro position hposition hfree
    obtain ⟨cursor, hlow, hhigh, hcursor⟩ :=
      PacketRing.exists_position_eq hposition last.ring.taken
    have hbehind := Nat.le_of_not_lt fun hlive => hfree cursor hlow hlive hcursor
    have hslot := htidy.vacant cursor hbehind hhigh
    unfold PacketRing.slot at hslot
    rw [hcursor, List.getElem?_eq_getElem hposition, Option.getD_some] at hslot
    rw [List.getElem?_eq_getElem hposition, hslot]
  · intro cursor hlow hhigh
    constructor
    · intro hpending
      have hcursor := htidy.headed cursor hlow hhigh hpending
      refine ⟨hcursor, Nat.lt_of_not_le fun hnone => ?_⟩
      rw [hstaged.waiting cursor (hcursor ▸ hnone) hhigh] at hpending
      cases hpending
    · rintro ⟨rfl, hbusy⟩
      exact hrest hbusy
  · exact fun cursor => hcourse.state_behind_head hbuilt
  · intro cursor state hstate
    unfold packetState? PacketRing.state? at hstate
    split at hstate
    next hlive =>
      obtain ⟨hlow, hhigh⟩ := of_decide_eq_true hlive
      rw [← Option.some.inj hstate]
      exact hcourse.isVisible hbuilt hlow hhigh
    next => cases hstate
  · intro position hboth
    obtain ⟨cursor, hlow, hhigh, rfl⟩ := hcourse.exists_of_held hbuilt (Or.inl hboth.1)
    exact (hfurnished cursor hlow hhigh).exclusive hboth
  · intro position hheld
    obtain ⟨cursor, hlow, hhigh, rfl⟩ := hcourse.exists_of_held hbuilt hheld
    exact ⟨cursor, hlow, hhigh, rfl, (hfurnished cursor hlow hhigh).of_held
      (SlotContext.holding_ne_nothing_iff _ |>.mpr hheld)⟩
  · intro hdelegated cursor hlow hhigh honDevice
    exact (hfurnished cursor hlow hhigh).bounced_ne_dmaMapped hdelegated honDevice
  · intro hdirect position
    refine Bool.eq_false_iff.mpr fun hmapped => ?_
    obtain ⟨cursor, hlow, hhigh, rfl⟩ := hcourse.exists_of_held hbuilt (Or.inr hmapped)
    exact Bool.eq_false_iff.mp ((hfurnished cursor hlow hhigh).of_direct hdirect) hmapped

/-- After every run a queue is orderly: its packets lie between its cursors in the states that
their places call for, the other slots are vacant, and just those slots hold mapping resources
whose packets are on the device. No slot is flagged as holding both a bounce buffer and a
mapping, because no attempt at admission finds its slot holding anything. A packet that is still
in the ring after further operations has gone from state to state, and never back. -/
theorem orderly_after {device : H} {adapter : D} {queue : Queue P H D}
    (hbuild : (build config device adapter).value = .ok queue)
    (operations : List (Operation P H D)) :
    Orderly (queue.after operations) ∧
      Course queue (queue.course operations) (queue.after operations) ∧
      (queue.run operations).events = (queue.course operations).flatMap Step.calls ∧
      (∀ step ∈ queue.course operations, step.move = .attempt →
        (step.before.context step.before.admitPosition).bounced = false ∧
          (step.before.context step.before.admitPosition).dmaMapped = false) ∧
      ∀ more cursor before after, (queue.after operations).packetState? cursor = some before →
        (queue.after (operations ++ more)).packetState? cursor = some after →
        before.Leads after := by
  have hbuilt := built_of_build hbuild
  have hcourse := queue.course_run operations
  have hrest : queue.ring.AtRest := by
    rw [hbuilt.ring_eq]
    exact fun hbusy => absurd hbusy (Nat.lt_irrefl _)
  refine ⟨hcourse.orderly hbuilt (atRest_after hbuilt.sound hrest operations), hcourse,
    queue.events_run operations, ?_, ?_⟩
  · intro step hstep hmove
    obtain ⟨_, _, _, hfirst, hready, _⟩ := hcourse.exists_of_mem hstep
    rw [hmove] at hready
    exact (SlotContext.holding_eq_nothing_iff _).mp (hfirst.vacant_of_waiting hbuilt hready)
  · intro more cursor before after hbefore hafter
    rw [after_append] at hafter
    unfold packetState? PacketRing.state? at hbefore hafter
    split at hbefore
    next hlive =>
      split at hafter
      next hkept =>
        rw [← Option.some.inj hbefore, ← Option.some.inj hafter]
        exact ((queue.after operations).course_run more).leads
          (hcourse.sound hbuilt.sound) (of_decide_eq_true hkept).1 (of_decide_eq_true hlive).2
      next => cases hafter
    next => cases hbefore

theorem sample_orderly_after :
    (build sampleConfig (ScriptedDevice.hold {} 2) ({} : ScriptedAdapter)).value =
        .ok (sampleQueue (.hold {} 2)) ∧
      ((sampleQueue (.hold {} 2)).after sampleMappedRun).packetState? 0 =
        some .completionPending ∧
      (((sampleQueue (.hold {} 2)).after sampleMappedRun).context 0).dmaMapped = true ∧
      Orderly ((sampleQueue (.hold {} 2)).after sampleMappedRun) ∧
      PacketState.Leads .completionPending (.released .success) := by
  have hbuild : (build sampleConfig (ScriptedDevice.hold {} 2) ({} : ScriptedAdapter)).value =
      .ok (sampleQueue (.hold {} 2)) := rfl
  obtain ⟨horderly, _, _, _, hleads⟩ := orderly_after hbuild sampleMappedRun
  refine ⟨hbuild, rfl, rfl, horderly, ?_⟩
  exact hleads [.changeDevice fun device => device.complete 2, .advance] 0 _ _ rfl rfl

end Queue

end TransmitQueue
