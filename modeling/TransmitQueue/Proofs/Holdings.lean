import TransmitQueue.Proofs.Copies

/-!
# Holdings

What a slot holds, and for which packet. A slot takes a mapping resource when its packet
is handed to the device and returns it when the packet is released. So a slot that holds
something is that of a packet on the device, and a slot about to be used holds nothing.
-/

namespace TransmitQueue

/-- The states of a packet that was handed to the device and is not released. -/
def PacketState.isOnDevice : PacketState → Bool
  | programmed | completionPending => true
  | unposted | admitted | completed _ | released _ => false

/-- A packet in flight whose outcome is not known is on the device. -/
theorem PacketState.isOnDevice_of_isInFlight {state : PacketState}
    (hflight : state.isInFlight = true) (hstate : ∀ completion, state ≠ .completed completion) :
    state.isOnDevice = true := by
  cases state with
  | programmed | completionPending => rfl
  | completed completion => exact False.elim (hstate completion rfl)
  | unposted | admitted | released => cases hflight

/-- Moves that deal with one packet, before it is in flight or while it is. -/
def Move.isDealing {P H D : Type} : Move P H D → Bool
  | attempt | scan => true
  | post _ | pop | cancel | flush | pause _ | giveUp | resetStatistics | changeDevice _
  | changeAdapter _ => false

theorem Move.isDealing_of_isQuiet {P H D : Type} {move : Move P H D}
    (hquiet : move.isQuiet = true) : move.isDealing = false := by
  cases move with
  | attempt | scan => cases hquiet
  | _ => rfl

variable {P H D : Type}

namespace Queue

/-- Two queues with the same packets in flight, and the same kept for them. -/
structure Untouched (queue next : Queue P H D) : Prop where
  config_eq : next.config = queue.config
  contexts_eq : next.contexts = queue.contexts
  mapper_eq : next.mapper = queue.mapper
  capacity_eq : next.ring.capacity = queue.ring.capacity
  released_eq : next.ring.released = queue.ring.released
  admitted_eq : next.ring.admitted = queue.ring.admitted
  slot_eq : ∀ cursor, queue.ring.released ≤ cursor → cursor < queue.ring.admitted →
    next.ring.slot cursor = queue.ring.slot cursor

/-- What a slot is allowed to hold, given the backend and the state of its packet. -/
structure Provided (backend : Backend) (state : PacketState) (holding : Holding) : Prop where
  of_held : holding ≠ .nothing → state.isOnDevice = true
  of_delegated : backend = .delegated → state.isOnDevice = true → holding ≠ .nothing
  of_direct : backend = .direct → holding.dmaMapped = false
  /-- Both flags are never set together. -/
  exclusive : ¬ (holding.bounced = true ∧ holding.dmaMapped = true)

namespace Provided

variable {backend : Backend} {state : PacketState} {holding : Holding}
  (hprovided : Provided backend state holding) (hmapped : holding.dmaMapped = true)
include hprovided hmapped

theorem eq_mapping : holding = .mapping :=
  Holding.ext (Bool.eq_false_iff.mpr fun hbounced => hprovided.exclusive ⟨hbounced, hmapped⟩)
    hmapped

theorem onDevice_of_mapped : state.isOnDevice = true :=
  hprovided.of_held (by rw [hprovided.eq_mapping hmapped]; decide)

omit hmapped in
/-- With the delegated backend a packet on the device holds one thing, and one only. -/
theorem bounced_ne_dmaMapped (hdelegated : backend = .delegated)
    (honDevice : state.isOnDevice = true) : holding.bounced ≠ holding.dmaMapped := by
  have hheld := hprovided.of_delegated hdelegated honDevice
  have hexclusive := hprovided.exclusive
  obtain ⟨bounced, dmaMapped⟩ := holding
  intro hsame
  obtain rfl : bounced = dmaMapped := hsame
  cases bounced with
  | true => exact hexclusive ⟨rfl, rfl⟩
  | false => exact hheld rfl

end Provided

/-- A queue whose packets in flight have what they need, and no more. -/
def Furnished (queue : Queue P H D) : Prop :=
  ∀ cursor, queue.ring.released ≤ cursor → cursor < queue.ring.admitted →
    Provided queue.backend (queue.ring.slot cursor).state (queue.holdingAt cursor)

variable [Packet P] [Device P H] [Adapter D] {start queue next last : Queue P H D}
  {config : Config} {packet : P} {admission : Admission} {calls : List (Event P)}

theorem Moved.untouched {move : Move P H D} (hmoved : Moved queue move next)
    (hstaged : queue.ring.Staged) (hmove : move.isDealing = false) : Untouched queue next := by
  have htaken := hstaged.ordered.taken_le
  have hadmitted := hstaged.ordered.admitted_le
  cases hmoved with
  | posted packet ring hpost =>
      obtain ⟨_, rfl⟩ := PacketRing.post_eq_ok_iff.mp hpost
      refine ⟨rfl, rfl, rfl, queue.ring.capacity_setSlot _ _, rfl, rfl, fun cursor hlow hhigh => ?_⟩
      exact (hstaged.ordered.slot_post hpost ⟨by omega, by omega⟩).trans (if_neg (by omega))
  | popped completed ring hpop =>
      obtain ⟨hne, _, _, rfl⟩ := PacketRing.pop?_eq_some_iff.mp hpop
      exact ⟨rfl, rfl, rfl, queue.ring.capacity_setSlot _ _, rfl, rfl,
        fun cursor hlow hhigh => hstaged.ordered.slot_pop hpop ⟨by omega, by omega⟩⟩
  | cancelled =>
      obtain ⟨hcapacity, _, hreleased, hsame, _⟩ :=
        queue.ring.cancelFrom_snd queue.ring.admitted queue.ring.unposted
      refine ⟨rfl, rfl, rfl, hcapacity, hreleased, hsame, fun cursor hlow hhigh => ?_⟩
      exact (hstaged.ordered.slot_cancelUnposted ⟨by omega, by omega⟩).trans (if_neg (by omega))
  | rejected | nothingPopped | quiet => exact ⟨rfl, rfl, rfl, rfl, rfl, rfl, fun _ _ _ => rfl⟩
  | admitted | scanned => cases hmove

theorem Moved.of_attempt (hmoved : Moved queue .attempt next) :
    ∃ packet admission, queue.ring.admitted < queue.ring.posted ∧
      (queue.ring.slot queue.ring.admitted).packet = some packet ∧
      Attempted queue packet admission (Step.calls ⟨queue, .attempt⟩) next := by
  cases hmoved with
  | admitted packet admission calls _ hready hpacket hanswered hattempted =>
      have hcalls : Step.calls ⟨queue, .attempt⟩ = calls :=
        queue.events_move_attempt.trans (congrArg Traced.events hanswered)
      exact ⟨packet, admission, hready, hpacket, hcalls ▸ hattempted⟩
  | quiet _ _ _ _ hquiet => cases hquiet

theorem Moved.of_scan (hmoved : Moved queue .scan next) :
    ∃ packet outcome, queue.ring.released < queue.ring.admitted ∧
      (queue.ring.slot queue.ring.released).packet = some packet ∧
      Scanned queue packet outcome (Step.calls ⟨queue, .scan⟩) next := by
  cases hmoved with
  | scanned packet outcome calls _ hbusy hpacket hrelease hscanned =>
      have hcalls : Step.calls ⟨queue, .scan⟩ = calls :=
        queue.events_move_scan.trans (congrArg Traced.events hrelease)
      exact ⟨packet, outcome, hbusy, hpacket, hcalls ▸ hscanned⟩
  | quiet _ _ _ _ hquiet => cases hquiet

omit [Packet P] [Device P H] [Adapter D] in
theorem Untouched.holdingAt_eq (hsame : Untouched queue next) (cursor : Nat) :
    next.holdingAt cursor = queue.holdingAt cursor :=
  holdingAt_of_contexts_eq hsame.contexts_eq hsame.capacity_eq cursor

/-- The slots from the admission cursor on hold nothing, up to the oldest one in use. -/
theorem Course.vacant {steps : List (Step P H D)} (hcourse : Course start steps last)
    (hbuilt : Built config start) {cursor : Nat} (hlow : last.ring.admitted ≤ cursor)
    (hhigh : cursor < last.ring.released + last.ring.capacity) :
    last.holdingAt cursor = .nothing :=
  (hcourse.owns hbuilt).marked.vacant cursor hlow hhigh

/-- The slot of a packet that waits for admission holds nothing. -/
theorem Course.vacant_of_waiting {steps : List (Step P H D)} (hcourse : Course start steps last)
    (hbuilt : Built config start) (hwaiting : last.ring.admitted < last.ring.posted) :
    last.holdingAt last.ring.admitted = .nothing := by
  have hordered := (hcourse.staged hbuilt.sound).ordered
  have htaken := hordered.taken_le
  have hspan := hordered.posted_le
  exact hcourse.vacant hbuilt (Nat.le_refl _) (by omega)

omit [Adapter D] in
/-- What a slot that held nothing holds after an attempt. -/
def provision (queue : Queue P H D) (packet : P) : Admission → Holding
  | .programmed =>
      match queue.decision packet, queue.backend with
      | .transmitAfterBouncing, _ => .bounceBuffer
      | _, .delegated => .mapping
      | _, .direct => .nothing
  | .failed _ | .stalled => .nothing

theorem Attempted.contexts_eq (hattempted : Attempted queue packet admission calls next)
    (hvacant : (queue.context queue.admitPosition).holding = .nothing) :
    next.contexts = queue.contexts ∧ queue.provision packet admission = .nothing ∨
      ∃ context, next.contexts = queue.contexts.set queue.admitPosition context ∧
        context.holding = queue.provision packet admission := by
  have hbounced : (queue.context queue.admitPosition).bounced = false :=
    congrArg Holding.bounced hvacant
  have hmapped : (queue.context queue.admitPosition).dmaMapped = false :=
    congrArg Holding.dmaMapped hvacant
  cases hattempted with
  | skip | refuse | bounceStall | bounceFail => exact Or.inl ⟨rfl, rfl⟩
  | bounce list pool _ hdecision =>
      rw [consult_decision] at hdecision
      refine Or.inr ⟨_, rfl, ?_⟩
      simp only [provision, hdecision]
      exact Holding.ext rfl hmapped
  | map list _ hdecision =>
      rw [consult_decision] at hdecision
      refine Or.inr ⟨_, rfl, ?_⟩
      simp only [provision, hdecision]
      cases queue.backend with
      | direct | delegated => exact Holding.ext hbounced rfl
  | mapStall | mapFail => exact Or.inr ⟨_, rfl, hvacant⟩

/-- An attempt provides for its own packet only. -/
theorem Attempted.holdingAt_eq (hattempted : Attempted queue packet admission calls next)
    (hlaid : LaidOut start queue) (hstaged : queue.ring.Staged)
    (hready : queue.ring.admitted < queue.ring.posted)
    (hvacant : queue.holdingAt queue.ring.admitted = .nothing) (cursor : Nat)
    (hlow : queue.ring.released ≤ cursor)
    (hhigh : cursor < queue.ring.released + queue.ring.capacity) :
    next.holdingAt cursor =
      if cursor = queue.ring.admitted then queue.provision packet admission
      else queue.holdingAt cursor := by
  have hcapacity : next.ring.capacity = queue.ring.capacity := by
    rw [hattempted.ring_eq, PacketRing.capacity_concluded]
  rcases hattempted.contexts_eq hvacant with ⟨hcontexts, hnone⟩ | ⟨context, hcontexts, hheld⟩
  · rw [holdingAt_of_contexts_eq hcontexts hcapacity]
    split
    next hcursor => rw [hcursor, hvacant, hnone]
    next => rfl
  · rw [← hheld]
    exact hattempted.holdingAt_of_set hlaid hstaged hready hcontexts cursor hlow hhigh

omit [Packet P] in
theorem Scanned.contexts_eq {outcome : Option Completion}
    (hscanned : Scanned queue packet outcome calls next) :
    outcome = none ∧ next.contexts = queue.contexts ∨
      outcome ≠ none ∧ ∃ list, next.contexts =
        queue.contexts.set queue.releasePosition { list := list } := by
  cases hscanned with
  | pending => exact Or.inl ⟨rfl, rfl⟩
  | released completion calls returns settled returned hsettled hreturned =>
      obtain ⟨device, statistics, rfl⟩ := hsettled.exists_device
      exact Or.inr ⟨Option.some_ne_none _, hreturned.pool_eq.2⟩

omit [Packet P] in
/-- A look takes what its packet's slot holds if it releases the packet, and takes nothing
from other slots. -/
theorem Scanned.holdingAt_eq {outcome : Option Completion}
    (hscanned : Scanned queue packet outcome calls next) (hlaid : LaidOut start queue)
    (hpos : 0 < queue.ring.capacity) (cursor : Nat) (hlow : queue.ring.released ≤ cursor)
    (hhigh : cursor < queue.ring.released + queue.ring.capacity) :
    next.holdingAt cursor =
      if cursor = queue.ring.released ∧ outcome ≠ none then .nothing
      else queue.holdingAt cursor := by
  have hcapacity : next.ring.capacity = queue.ring.capacity := by
    rw [hscanned.ring_eq, PacketRing.capacity_scanned]
  rcases hscanned.contexts_eq with ⟨hpending, hcontexts⟩ | ⟨hreleased, list, hcontexts⟩
  · rw [holdingAt_of_contexts_eq hcontexts hcapacity, if_neg fun hcursor => hcursor.2 hpending]
  · have hlength : queue.contexts.length = queue.ring.capacity := by
      rw [hlaid.contexts_length, hlaid.capacity_eq]
    rw [holdingAt_of_set hcontexts hcapacity hlength hpos (by omega) (by omega)]
    simp only [hreleased, ne_eq, not_false_eq_true, and_true]
    rfl

omit [Adapter D] in
theorem provided_provision (queue : Queue P H D) (packet : P) (admission : Admission) :
    Provided queue.backend admission.state (queue.provision packet admission) := by
  cases admission with
  | programmed =>
      unfold provision
      refine ⟨fun _ => rfl, fun hbackend _ => ?_, fun hbackend => ?_, ?_⟩
      · rw [hbackend]
        cases queue.decision packet <;> decide
      · rw [hbackend]
        cases queue.decision packet <;> rfl
      · cases queue.decision packet <;> cases queue.backend <;> decide
  | failed | stalled =>
      exact ⟨fun hheld => absurd rfl hheld, fun _ => nofun, fun _ => rfl,
        fun hboth => Bool.false_ne_true hboth.1⟩

namespace Furnished

variable (hfurnished : queue.Furnished)
include hfurnished

omit [Packet P] [Device P H] [Adapter D] in
theorem untouched (hsame : Untouched queue next) (hbackend : next.backend = queue.backend) :
    next.Furnished := by
  intro cursor hlow hhigh
  rw [hsame.released_eq] at hlow
  rw [hsame.admitted_eq] at hhigh
  rw [hbackend, hsame.slot_eq cursor hlow hhigh, hsame.holdingAt_eq]
  exact hfurnished cursor hlow hhigh

theorem attempted (hlaid : LaidOut start queue) (hstaged : queue.ring.Staged)
    (hready : queue.ring.admitted < queue.ring.posted)
    (hattempted : Attempted queue packet admission calls next)
    (hvacant : queue.holdingAt queue.ring.admitted = .nothing)
    (hbackend : next.backend = queue.backend) : next.Furnished := by
  intro cursor hlow hhigh
  have hring := hattempted.ring_eq
  have htaken := hstaged.ordered.taken_le
  have hspan := hstaged.ordered.posted_le
  have hnext := queue.ring.concluded_admitted_le admission
  rw [hring, PacketRing.released_concluded] at hlow
  rw [hring] at hhigh
  rw [hbackend, hattempted.holdingAt_eq hlaid hstaged hready hvacant cursor hlow (by omega),
    hring, hstaged.slot_concluded hready admission (by omega) (by omega)]
  split
  next => exact queue.provided_provision packet admission
  next => exact hfurnished cursor hlow (by omega)

omit [Packet P] in
theorem scanned {outcome : Option Completion} (hlaid : LaidOut start queue)
    (hstaged : queue.ring.Staged) (hbusy : queue.ring.released < queue.ring.admitted)
    (hscanned : Scanned queue packet outcome calls next)
    (hbackend : next.backend = queue.backend) : next.Furnished := by
  intro cursor hlow hhigh
  have hring := hscanned.ring_eq
  have htaken := hstaged.ordered.taken_le
  have hadmitted := hstaged.ordered.admitted_le
  have hspan := hstaged.ordered.posted_le
  have hpos := hstaged.ordered.capacity_pos
  cases outcome with
  | none =>
      have hlow : queue.ring.released ≤ cursor := by rwa [hring] at hlow
      have hhigh : cursor < queue.ring.admitted := by rwa [hring] at hhigh
      have hheld := hfurnished queue.ring.released (Nat.le_refl _) hbusy
      have honDevice := PacketState.isOnDevice_of_isInFlight
        (hstaged.inFlight queue.ring.released (Nat.le_refl _) hbusy) hscanned.of_none.2
      rw [hbackend, hscanned.holdingAt_eq hlaid hpos cursor hlow (by omega),
        if_neg fun hreleased => hreleased.2 rfl, hring,
        hstaged.slot_scanned hbusy none (by omega) (by omega)]
      split
      next hcursor =>
        rw [hcursor]
        exact { hheld with
          of_held := fun _ => rfl
          of_delegated := fun hdelegated _ => hheld.of_delegated hdelegated honDevice }
      next => exact hfurnished cursor hlow hhigh
  | some completion =>
      have hlow : queue.ring.released + 1 ≤ cursor := by rwa [hring] at hlow
      have hhigh : cursor < queue.ring.admitted := by rwa [hring] at hhigh
      rw [hbackend, hscanned.holdingAt_eq hlaid hpos cursor (by omega) (by omega),
        if_neg (by omega), hring,
        hstaged.slot_scanned hbusy (some completion) (by omega) (by omega),
        if_neg (by omega)]
      exact hfurnished cursor (by omega) hhigh

end Furnished

/-- Along every course the packets in flight have what they need. -/
theorem Course.furnished {steps : List (Step P H D)} (hcourse : Course start steps last)
    (hbuilt : Built config start) : last.Furnished := by
  refine hcourse.invariant (fun _ queue => queue.Furnished) hbuilt.sound ?_ ?_
  · intro cursor _ hhigh
    rw [hbuilt.ring_eq] at hhigh
    exact absurd hhigh (Nat.not_lt_zero cursor)
  · intro steps queue move next hfirst hstaged _ hmoved hfurnished
    have hlaid := hfirst.laidOut hbuilt
    have hbackend : next.backend = queue.backend :=
      (hlaid.moved hmoved).backend_eq.trans hlaid.backend_eq.symm
    cases move with
    | attempt =>
        obtain ⟨packet, admission, hready, _, hattempted⟩ := hmoved.of_attempt
        exact hfurnished.attempted hlaid hstaged hready hattempted
          (hfirst.vacant_of_waiting hbuilt hready) hbackend
    | scan =>
        obtain ⟨packet, outcome, hbusy, _, hscanned⟩ := hmoved.of_scan
        exact hfurnished.scanned hlaid hstaged hbusy hscanned hbackend
    | _ => exact hfurnished.untouched (hmoved.untouched hstaged rfl) hbackend

end Queue

end TransmitQueue
