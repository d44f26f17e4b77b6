import TransmitQueue.Proofs.Census
import TransmitQueue.Proofs.Grammar
import TransmitQueue.Proofs.Outcome
import TransmitQueue.Proofs.Phases
import TransmitQueue.Proofs.Transitions

/-!
# The discipline of calls

The calls of an advance are those of its attempts at admission, in the order of the ring, then
the doorbell if a packet was handed over, and then those of its releases, again in the order of
the ring. Over a whole run the device is given each packet at most once, and is asked about it
only after that, until it is done.
-/

namespace TransmitQueue

section Device

variable {P : Type}

/-- Whether a call gives the device a packet, or asks it about one. -/
def Event.isDeviceCall : Event P → Bool
  | .program .. | .status .. => true
  | .flush | .policy .. | .bypassCapable _ | .contextSize _ | .allocate .. | .map .. | .unmap ..
  | .wait _ | .notice _ => false

/-- The calls that give the device packets or ask it about them, in order. -/
def deviceCalls (calls : List (Event P)) : List (Event P) := calls.filter Event.isDeviceCall

/-- The calls that give the device one packet or ask it about that packet, given what became of
the packet. The device gets the packet before it is asked, is asked again for as long as the
packet is pending, and is not asked any more once it is done. -/
inductive DeviceCalls (packet : P) : PacketState → List (Event P) → Prop where
  | waiting : DeviceCalls packet .unposted []
  | failed {failure : Failure} {state : PacketState} (hfailure : failure.precedesDevice = true)
      (hstate : state = .completed (.failed failure) ∨ state = .released (.failed failure)) :
      DeviceCalls packet state []
  | given {state : PacketState} (list : SgList) (polls : Nat) (hstate : state.isOnDevice = true) :
      DeviceCalls packet state
        (.program packet list :: List.replicate polls (.status packet .pending))
  | done {answer : DeviceStatus} {completion : Completion} (list : SgList) (polls : Nat)
      (hanswer : answer = .success ∧ completion = .success ∨
        answer = .error ∧ completion = .failed .hardware) :
      DeviceCalls packet (.released completion) (.program packet list ::
        (List.replicate polls (.status packet .pending) ++ [.status packet answer]))

variable {calls : List (Event P)}

theorem deviceCalls_of_unasked (hunasked : statuses calls = []) :
    deviceCalls calls = (programs calls).map fun (packet, list) => .program packet list := by
  induction calls with
  | nil => rfl
  | cons event rest ih =>
      cases event with
      | status => cases hunasked
      | program packet list => exact congrArg (.program packet list :: ·) (ih hunasked)
      | _ => exact ih hunasked

theorem deviceCalls_of_ungiven (hungiven : programs calls = []) :
    deviceCalls calls = (statuses calls).map fun (packet, answer) => .status packet answer := by
  induction calls with
  | nil => rfl
  | cons event rest ih =>
      cases event with
      | program => cases hungiven
      | status packet answer => exact congrArg (.status packet answer :: ·) (ih hungiven)
      | _ => exact ih hungiven

end Device

variable {P H D : Type} [Packet P] [Device P H] [Adapter D]

namespace Queue

/-- The calls of a transmit phase from a cursor on, and what the phase leaves of the packets in
the ring. Packets are tried one after another, until none waits or one stalls. -/
inductive TransmitCalls (queue : Queue P H D) (left : PacketRing P) :
    Nat → List (Event P) → Prop where
  | done (hnone : left.admitted = queue.ring.posted) : TransmitCalls queue left left.admitted []
  | stalled {packet : P} {calls : List (Event P)} (hwaiting : left.admitted < queue.ring.posted)
      (hpacket : (queue.ring.slot left.admitted).packet = some packet)
      (hcalls : AttemptCalls queue.limits queue.backend (queue.ring.position left.admitted)
        ((queue.ring.slot left.admitted).cancelled || Packet.ignored packet) packet .stalled
        calls) :
      TransmitCalls queue left left.admitted calls
  | passed {cursor : Nat} {packet : P} {admission : Admission} {calls more : List (Event P)}
      (hcursor : cursor < left.admitted)
      (hpacket : (queue.ring.slot cursor).packet = some packet)
      (hcalls : AttemptCalls queue.limits queue.backend (queue.ring.position cursor)
        ((queue.ring.slot cursor).cancelled || Packet.ignored packet) packet admission calls)
      (hpassed : admission ≠ .stalled) (hstate : (left.slot cursor).state = admission.state)
      (hrest : TransmitCalls queue left (cursor + 1) more) :
      TransmitCalls queue left cursor (calls ++ more)

/-- The calls of a completion phase from a cursor on. Packets are released one after another,
until none is in flight or the device answers that one is pending, which is the last call. -/
inductive CompletionCalls (queue : Queue P H D) : Nat → List (Event P) → Prop where
  | done : CompletionCalls queue queue.ring.admitted []
  | pending {cursor : Nat} {packet : P} (hcursor : cursor < queue.ring.admitted)
      (hpacket : (queue.ring.slot cursor).packet = some packet)
      (hstate : (queue.ring.slot cursor).state.isOnDevice = true) :
      CompletionCalls queue cursor [.status packet .pending]
  | released {cursor : Nat} {packet : P} {calls more : List (Event P)}
      (hcursor : cursor < queue.ring.admitted)
      (hpacket : (queue.ring.slot cursor).packet = some packet)
      (hcalls : ReleaseCalls (queue.ring.slot cursor).state (queue.holdingAt cursor)
        (queue.ring.position cursor) packet calls)
      (hrest : CompletionCalls queue (cursor + 1) more) :
      CompletionCalls queue cursor (calls ++ more)

/-- The calls of an advance, with those of its two phases. The doorbell rings once between them
if a packet was handed over, and not otherwise. The packets that were in flight before are found
as they were, and those admitted as the transmit phase left them. -/
structure AdvanceCalls (queue : Queue P H D) (sending completing calls : List (Event P)) :
    Prop where
  transmit : TransmitCalls queue queue.flushed.ring queue.ring.admitted sending
  kept : ∀ cursor, queue.ring.released ≤ cursor → cursor < queue.ring.admitted →
    queue.flushed.ring.slot cursor = queue.ring.slot cursor
  completion : CompletionCalls queue.flushed queue.ring.released completing
  calls_eq : calls = sending ++ (if programs sending = [] then [] else [.flush]) ++ completing

variable {start queue next : Queue P H D} {config : Config} {calls : List (Event P)}

/-- An attempt leaves the packets alone that were admitted before. -/
theorem Attempted.slot_eq_of_admitted {packet : P} {admission : Admission}
    (hattempted : Attempted queue packet admission calls next) (hstaged : queue.ring.Staged)
    (hready : queue.ring.admitted < queue.ring.posted) {cursor : Nat}
    (hlow : queue.ring.taken ≤ cursor) (hhigh : cursor < queue.ring.admitted) :
    next.ring.slot cursor = queue.ring.slot cursor ∧ cursor < next.ring.admitted := by
  rw [hattempted.ring_eq, hstaged.slot_concluded hready admission hlow (by omega),
    if_neg (Nat.ne_of_lt hhigh)]
  exact ⟨rfl, Nat.lt_of_lt_of_le hhigh (queue.ring.admitted_le_concluded admission)⟩

/-- An attempt that does not stall leaves the packets behind its own as they were. -/
theorem Attempted.slot_eq_of_waiting {packet : P} {admission : Admission}
    (hattempted : Attempted queue packet admission calls next) (hstaged : queue.ring.Staged)
    (hready : queue.ring.admitted < queue.ring.posted) (hpassed : admission ≠ .stalled)
    {cursor : Nat} (hlow : next.ring.admitted ≤ cursor) (hhigh : cursor < next.ring.posted) :
    next.ring.slot cursor = queue.ring.slot cursor ∧ queue.ring.admitted ≤ cursor ∧
      cursor < queue.ring.posted := by
  have htaken := hstaged.ordered.taken_le
  have hreleased := hstaged.ordered.released_le
  rw [hattempted.ring_eq, PacketRing.admitted_concluded _ _ hpassed] at hlow
  rw [hattempted.ring_eq, PacketRing.posted_concluded] at hhigh
  rw [hattempted.ring_eq, hstaged.slot_concluded hready admission (by omega) hhigh,
    if_neg (by omega)]
  exact ⟨rfl, by omega, hhigh⟩

section Transmit

variable {sent : Transmission P H D} (hsent : Transmitted queue sent calls)
include hsent

theorem Transmitted.admitted_le : queue.ring.admitted ≤ sent.queue.ring.admitted := by
  induction hsent with
  | done => exact Nat.le_refl _
  | @stalled queue _ _ _ _ _ hattempted =>
      rw [hattempted.ring_eq]
      exact queue.ring.admitted_le_concluded _
  | @failed queue _ _ _ _ _ _ _ _ hattempted _ ih
  | @programmed queue _ _ _ _ _ _ _ hattempted _ ih =>
      rw [hattempted.ring_eq] at ih
      exact Nat.le_trans (queue.ring.admitted_le_concluded _) ih

/-- A transmit phase leaves the packets alone that were admitted before. -/
theorem Transmitted.slot_eq (hstaged : queue.ring.Staged) {cursor : Nat}
    (hlow : queue.ring.taken ≤ cursor) (hhigh : cursor < queue.ring.admitted) :
    sent.queue.ring.slot cursor = queue.ring.slot cursor := by
  induction hsent with
  | done => rfl
  | stalled hready _ hattempted =>
      exact (hattempted.slot_eq_of_admitted hstaged hready hlow hhigh).1
  | failed hready _ hattempted _ ih | programmed hready _ hattempted _ ih =>
      obtain ⟨hsame, hbefore⟩ := hattempted.slot_eq_of_admitted hstaged hready hlow hhigh
      have hfirst := hattempted.cursors_eq.1
      rw [ih (hattempted.staged hstaged hready) (hfirst.symm ▸ hlow) hbefore, hsame]

theorem Transmitted.length_programs : (programs calls).length = sent.programmed := by
  induction hsent with
  | done => rfl
  | stalled _ _ hattempted => rw [hattempted.calls.2.1 nofun]; rfl
  | failed _ _ hattempted _ ih =>
      rw [programs_append, hattempted.calls.2.1 nofun, List.nil_append, ih]
  | programmed _ _ hattempted _ ih =>
      obtain ⟨list, hprograms⟩ := hattempted.calls.2.2 rfl
      rw [programs_append, hprograms, List.length_append, ih, Nat.add_comm]
      rfl

end Transmit

section Phases

variable {first : Queue P H D} (hbuilt : Built config start) (hfirst : LaidOut start first)
include hbuilt hfirst

/-- An attempt makes the calls that its packet called for when the phase began. -/
theorem Attempted.attemptCalls_of_slot_eq {packet : P} {admission : Admission}
    (hattempted : Attempted queue packet admission calls next) (hlaid : LaidOut start queue)
    (hslot : queue.ring.slot queue.ring.admitted = first.ring.slot queue.ring.admitted) :
    AttemptCalls first.limits first.backend (first.ring.position queue.ring.admitted)
      ((first.ring.slot queue.ring.admitted).cancelled || Packet.ignored packet) packet admission
      (collaboratorCalls calls) := by
  have hlimits : queue.limits = first.limits :=
    congrArg BounceLimits.ofConfig (hlaid.config_eq.trans hfirst.config_eq.symm)
  have hposition : queue.admitPosition = first.ring.position queue.ring.admitted :=
    PacketRing.position_congr (hlaid.capacity_eq.trans hfirst.capacity_eq.symm) _
  have hcalls := hattempted.attemptCalls hbuilt hlaid
  rw [hlimits, ← hfirst.backend_eq, hposition, withdrawn, hslot] at hcalls
  exact hcalls

/-- An attempt that does not stall comes first in the phase, and leaves its packet as the whole
phase does. -/
theorem Attempted.transmitCalls {packet : P} {admission : Admission}
    {sent : Transmission P H D} {more : List (Event P)}
    (hattempted : Attempted queue packet admission calls next) (hpassed : admission ≠ .stalled)
    (hready : queue.ring.admitted < queue.ring.posted)
    (hpacket : (queue.ring.slot queue.ring.admitted).packet = some packet)
    (hlaid : LaidOut start queue) (hstaged : queue.ring.Staged)
    (hslot : queue.ring.slot queue.ring.admitted = first.ring.slot queue.ring.admitted)
    (hsent : Transmitted next sent more)
    (hrest : TransmitCalls first sent.queue.ring next.ring.admitted (collaboratorCalls more)) :
    TransmitCalls first sent.queue.ring queue.ring.admitted
      (collaboratorCalls (calls ++ more)) := by
  have htaken := hstaged.ordered.taken_le
  have hreleased := hstaged.ordered.released_le
  have hadmitted := hsent.admitted_le
  have hnext : next.ring.admitted = queue.ring.admitted + 1 := by
    rw [hattempted.ring_eq, PacketRing.admitted_concluded _ _ hpassed]
  have hlow : next.ring.taken ≤ queue.ring.admitted := by
    rw [hattempted.ring_eq, PacketRing.taken_concluded]
    omega
  have hkept := hsent.slot_eq (hattempted.staged hstaged hready) hlow (by omega)
  rw [hattempted.ring_eq, hstaged.slot_concluded hready admission (by omega) hready,
    if_pos rfl] at hkept
  rw [collaboratorCalls_append]
  exact .passed (by omega) (hslot ▸ hpacket)
    (hattempted.attemptCalls_of_slot_eq hbuilt hfirst hlaid hslot) hpassed
    (congrArg RingSlot.state hkept) (hnext ▸ hrest)

/-- A transmit phase tries the packets that wait, in order, as they were when it began. -/
theorem Transmitted.transmitCalls {sent : Transmission P H D}
    (hsent : Transmitted queue sent calls) (hlaid : LaidOut start queue)
    (hstaged : queue.ring.Staged) (hposted : queue.ring.posted = first.ring.posted)
    (hslot : ∀ cursor, queue.ring.admitted ≤ cursor → cursor < queue.ring.posted →
      queue.ring.slot cursor = first.ring.slot cursor) :
    TransmitCalls first sent.queue.ring queue.ring.admitted (collaboratorCalls calls) := by
  induction hsent with
  | @done queue hnone =>
      have hadmitted := hstaged.ordered.admitted_le
      unfold unposted PacketRing.unposted at hnone
      exact .done (by dsimp only; omega)
  | @stalled queue next packet calls hready hpacket hattempted =>
      have hsame : next.ring.admitted = queue.ring.admitted := by
        rw [hattempted.ring_eq, hstaged.concluded_stalled hready]
      have hwaits := hslot _ (Nat.le_refl _) hready
      have hcalls := hattempted.attemptCalls_of_slot_eq hbuilt hfirst hlaid hwaits
      rw [hwaits] at hpacket
      rw [← hsame] at hready hpacket hcalls ⊢
      exact .stalled (hposted ▸ hready) hpacket hcalls
  | failed hready hpacket hattempted hsent ih | programmed hready hpacket hattempted hsent ih =>
      have hsame := hattempted.ring_eq ▸ PacketRing.posted_concluded _ _
      have hrest := ih (hlaid.attempted hattempted) (hattempted.staged hstaged hready)
        (hsame.trans hposted) fun cursor hlow hhigh => by
          obtain ⟨hkept, hlow, hhigh⟩ :=
            hattempted.slot_eq_of_waiting hstaged hready nofun hlow hhigh
          exact hkept.trans (hslot cursor hlow hhigh)
      have hcalls := hattempted.transmitCalls hbuilt hfirst nofun hready hpacket hlaid hstaged
        (hslot _ (Nat.le_refl _) hready) hsent hrest
      exact hcalls

omit [Packet P] in
/-- A completion phase deals with the packets in flight, in order, as they were when it
began. -/
theorem Drained.completionCalls {count : Nat} (hdrained : Drained queue count calls next)
    (hlaid : LaidOut start queue) (hstaged : queue.ring.Staged) (hfurnished : queue.Furnished)
    (hadmitted : queue.ring.admitted = first.ring.admitted)
    (hsame : ∀ cursor, queue.ring.released ≤ cursor → cursor < queue.ring.admitted →
      queue.ring.slot cursor = first.ring.slot cursor ∧
        queue.holdingAt cursor = first.holdingAt cursor) :
    CompletionCalls first queue.ring.released (collaboratorCalls calls) := by
  induction hdrained with
  | @done queue hnone =>
      have hreleased := hstaged.ordered.released_le
      unfold inFlight PacketRing.inFlight at hnone
      have hcursor : queue.ring.released = first.ring.admitted := by omega
      rw [hcursor]
      exact .done
  | @pending queue next packet calls hbusy hpacket hscanned =>
      have hslot := (hsame _ (Nat.le_refl _) hbusy).1
      have hflight := hstaged.inFlight queue.ring.released (Nat.le_refl _) hbusy
      have hdevice := PacketState.isOnDevice_of_isInFlight hflight hscanned.of_none.2
      cases hscanned
      exact .pending (hadmitted ▸ hbusy) (hslot ▸ hpacket) (hslot ▸ hdevice)
  | @released queue next last packet completion calls more count hbusy hpacket hscanned _ ih =>
      have hring : next.ring = queue.ring.release completion := hscanned.ring_of_released
      have hbackend : next.backend = queue.backend :=
        (hlaid.scanned hscanned).backend_eq.trans hlaid.backend_eq.symm
      obtain ⟨hslot, hholding⟩ := hsame _ (Nat.le_refl _) hbusy
      have hposition : queue.releasePosition = first.ring.position queue.ring.released :=
        PacketRing.position_congr (hlaid.capacity_eq.trans hfirst.capacity_eq.symm) _
      have hcalls := hscanned.releaseCalls hfurnished hstaged hbusy hbuilt hlaid
      rw [hslot, hholding, hposition] at hcalls
      have hrest := ih (hlaid.scanned hscanned) (hscanned.staged hstaged hbusy)
        (hfurnished.scanned hlaid hstaged hbusy hscanned hbackend)
        ((congrArg PacketRing.admitted hring).trans hadmitted) fun cursor hlow hhigh => by
          rw [hring] at hlow hhigh
          obtain ⟨hkept, hheld⟩ := hscanned.behind_eq hstaged hlow hhigh
          rw [hkept, hheld]
          exact hsame cursor (Nat.le_of_succ_le hlow) hhigh
      rw [hring] at hrest
      rw [collaboratorCalls_append]
      exact .released (hadmitted ▸ hbusy) (hslot ▸ hpacket) hcalls hrest

end Phases

/-- From every state that a course reaches, an advance keeps the discipline of calls. -/
theorem Course.exists_advanceCalls {steps : List (Step P H D)} (hcourse : Course start steps queue)
    (hbuilt : Built config start) : ∃ sending completing,
      AdvanceCalls queue sending completing (collaboratorCalls queue.advance.events) := by
  have hsound := hcourse.sound hbuilt.sound
  have hstaged := hsound.staged
  have hlaid := hcourse.laidOut hbuilt
  have hbetween := hcourse.append queue.course_flushed
  obtain ⟨sent, sending, completing, hadvanced⟩ := exists_advanced hsound
  have hring := hadvanced.rung.1
  refine ⟨collaboratorCalls sending, collaboratorCalls completing, ?_, ?_, ?_, ?_⟩
  · rw [hring]
    exact hadvanced.transmitted.transmitCalls hbuilt hlaid hlaid hstaged rfl fun _ _ _ => rfl
  · intro cursor hlow hhigh
    rw [hring]
    exact hadvanced.transmitted.slot_eq hstaged
      (Nat.le_trans hstaged.ordered.taken_le hlow) hhigh
  · rw [← hadvanced.transmitted.cursors_eq.2.1, ← hring]
    exact hadvanced.drained.completionCalls hbuilt (hbetween.laidOut hbuilt)
      (hbetween.laidOut hbuilt) (hbetween.staged hbuilt.sound) (hbetween.furnished hbuilt) rfl
      fun _ _ _ => ⟨rfl, rfl⟩
  · have hlength := hadvanced.transmitted.length_programs
    rw [hadvanced.events_eq, collaboratorCalls_append, collaboratorCalls_append,
      programs_collaboratorCalls, ← hlength]
    simp only [List.length_eq_zero_iff]
    split <;> rfl

end Queue

section Story

variable {packet : P} {cancelled : Bool} {steps : List (Step P H D)} {step : Step P H D}

theorem deviceCalls_flatMap_calls (steps : List (Step P H D)) :
    deviceCalls (steps.flatMap Step.calls) = steps.flatMap fun step => deviceCalls step.calls :=
  List.filter_flatMap ..

theorem Step.Attempts.deviceCalls_eq {admission : Queue.Admission}
    (hstep : step.Attempts packet admission) :
    admission ≠ .programmed ∧ deviceCalls step.calls = [] ∨
      admission = .programmed ∧ ∃ list, deviceCalls step.calls = [.program packet list] := by
  obtain ⟨hunasked, hunsent, hsent⟩ := hstep.attempted.calls
  rw [deviceCalls_of_unasked hunasked]
  by_cases hadmission : admission = .programmed
  · obtain ⟨list, hprograms⟩ := hsent hadmission
    rw [hprograms]
    exact Or.inr ⟨hadmission, list, rfl⟩
  · rw [hunsent hadmission]
    exact Or.inl ⟨hadmission, rfl⟩

theorem deviceCalls_of_stalls (hsteps : ∀ step ∈ steps, step.Attempts packet .stalled) :
    (steps.flatMap fun step => deviceCalls step.calls) = [] := by
  refine List.flatMap_eq_nil_iff.mpr fun step hstep => ?_
  exact ((hsteps step hstep).deviceCalls_eq.resolve_right fun hsent => nomatch hsent.1).2

theorem deviceCalls_of_polls (hsteps : ∀ step ∈ steps, step.Scans packet none) :
    (steps.flatMap fun step => deviceCalls step.calls) =
      List.replicate steps.length (.status packet .pending) := by
  induction steps with
  | nil => rfl
  | cons step rest ih =>
      have hfirst := (hsteps step List.mem_cons_self).scanned
      rw [List.flatMap_cons, deviceCalls_of_ungiven hfirst.programs_eq_nil, hfirst.of_none.1,
        ih fun other hother => hsteps other (List.mem_cons_of_mem step hother)]
      rfl

/-- An attempt that fails its packet does so before the device has it. -/
theorem Step.Attempts.precedesDevice {failure : Failure}
    (hstep : step.Attempts packet (.failed failure)) : failure.precedesDevice = true := by
  rcases hstep.attempted.next_or with hwaiting | hnext
  · cases hwaiting
  · cases hnext with
    | failed hfailure => exact hfailure

theorem Ending.deviceCalls {completion : Completion} {stalls polls : List (Step P H D)}
    {last look : Step P H D} {admission : Queue.Admission}
    (hending : Ending packet cancelled completion steps stalls polls last look admission) :
    DeviceCalls packet (.released completion)
      (steps.flatMap fun step => deviceCalls step.calls) := by
  have hlook := deviceCalls_of_ungiven hending.look_scans.scanned.programs_eq_nil
  rw [hending.steps_eq]
  simp only [List.flatMap_append, List.flatMap_cons, List.flatMap_nil, List.append_nil,
    deviceCalls_of_stalls hending.stalls_stalled, deviceCalls_of_polls hending.polls_busy,
    List.nil_append]
  rcases hending.outcome with ⟨failure, rfl, rfl, rfl, hsilent⟩ | ⟨rfl, hanswer⟩
  · have hlast := hending.last_attempts.deviceCalls_eq.resolve_right fun hsent => nomatch hsent.1
    rw [hlast.2, hlook, hsilent]
    exact .failed hending.last_attempts.precedesDevice (Or.inr rfl)
  · obtain ⟨_, list, hlast⟩ :=
      hending.last_attempts.deviceCalls_eq.resolve_left fun hother => hother.1 rfl
    rw [hlast, hlook]
    rcases hanswer with ⟨hasked, rfl⟩ | ⟨hasked, rfl⟩ <;> rw [hasked]
    · exact .done list polls.length (Or.inl ⟨rfl, rfl⟩)
    · exact .done list polls.length (Or.inr ⟨rfl, rfl⟩)

/-- The device is given a packet and asked about it as the packet's story calls for. -/
theorem Story.deviceCalls {state : PacketState} (hstory : Story packet cancelled steps state) :
    DeviceCalls packet state (deviceCalls (steps.flatMap Step.calls)) := by
  rw [deviceCalls_flatMap_calls]
  cases hstory with
  | waiting hstalls =>
      rw [deviceCalls_of_stalls hstalls]
      exact .waiting
  | failed hstalls hlast =>
      have hunsent := hlast.deviceCalls_eq.resolve_right fun hsent => nomatch hsent.1
      rw [List.flatMap_append, deviceCalls_of_stalls hstalls, List.flatMap_singleton, hunsent.2]
      exact .failed hlast.precedesDevice (Or.inl rfl)
  | @sent stalls polls last _ hstalls hlast _ hpolls hstate =>
      obtain ⟨_, list, hcalls⟩ := hlast.deviceCalls_eq.resolve_left fun hother => hother.1 rfl
      rw [List.flatMap_append, List.flatMap_append, deviceCalls_of_stalls hstalls,
        List.flatMap_singleton, hcalls, deviceCalls_of_polls hpolls]
      exact .given list polls.length (by rcases hstate with rfl | rfl <;> rfl)
  | returned hstory hflight hstate hlook =>
      obtain ⟨stalls, polls, last, look, admission, hending⟩ :=
        (Story.returned hstory hflight hstate hlook).ending
      exact hending.deviceCalls

end Story

namespace Queue

variable {start last : Queue P H D} {config : Config} {steps : List (Step P H D)}

/-- Every packet accepted has a story that led to its state in the census. -/
theorem Course.exists_story (hcourse : Course start steps last) (hbuilt : Built config start)
    {cursor : Nat} {packet : P} {state : PacketState}
    (haccepted : (acceptedPackets steps)[cursor]? = some packet)
    (hstate : (last.census (poppedPackets steps))[cursor]? = some state) :
    ∃ cancelled, Story packet cancelled (dealings steps cursor) state := by
  have hholds := hcourse.holds hbuilt
  have hrecords := hcourse.records hbuilt
  have hlength := hholds.length_popped (hcourse.staged hbuilt.sound).ordered
  rcases Nat.lt_or_ge cursor last.ring.taken with hpopped | hlive
  · have hbound : cursor < (poppedPackets steps).length := by omega
    have hcompleted := List.getElem?_eq_getElem hbound
    obtain ⟨cancelled, hstory, _⟩ := hrecords.popped cursor _ hcompleted
    have hpacket := congrArg (·[cursor]?) hholds.popped_eq
    rw [List.getElem?_map, hcompleted, List.getElem?_take_of_lt hpopped, haccepted] at hpacket
    rw [census, List.getElem?_append_left (by rw [List.length_map]; exact hbound),
      List.getElem?_map, hcompleted] at hstate
    obtain rfl := Option.some.inj hpacket
    obtain rfl := Option.some.inj hstate
    exact ⟨cancelled, hstory⟩
  · have hposted : cursor < last.ring.posted := by
      rw [← hholds.length_accepted]
      exact (List.getElem?_eq_some_iff.mp haccepted).1
    rw [getElem?_census hlength hlive hposted] at hstate
    obtain rfl := Option.some.inj hstate
    exact ⟨_, hrecords.live cursor hlive hposted packet
      ((hholds.held cursor hlive hposted).trans haccepted)⟩

/-- Only an attempt or a look makes a device call. -/
theorem deviceCalls_move (queue : Queue P H D) {move : Move P H D}
    (hmove : move.isDealing = false) : deviceCalls (queue.move move).events = [] := by
  cases move with
  | attempt | scan => cases hmove
  | post packet =>
      simp only [Queue.move]
      split <;> rfl
  | pop =>
      simp only [Queue.move]
      split <;> rfl
  | _ => rfl

/-- Every device call of a course is about a packet that was posted. -/
theorem Course.exists_callsAbout (hcourse : Course start steps last)
    (hbuilt : Built config start) {call : Event P} (hmember : call ∈ steps.flatMap Step.calls)
    (hdevice : call.isDeviceCall = true) :
    ∃ cursor < last.ring.posted, call ∈ callsAbout steps cursor := by
  obtain ⟨step, hstep, hcall⟩ := List.mem_flatMap.mp hmember
  obtain ⟨earlier, later, _, hfirst, hready, hrest⟩ := hcourse.exists_of_mem hstep
  have hsound := hfirst.sound hbuilt.sound
  have habout : ∀ cursor, step.concerns cursor = true → call ∈ callsAbout steps cursor :=
    fun cursor hconcerns =>
      List.mem_flatMap.mpr ⟨step, List.mem_filter.mpr ⟨hstep, hconcerns⟩, hcall⟩
  have hposted : step.before.ring.posted ≤ last.ring.posted :=
    ((Course.single hready).append hrest |>.window_le hsound).2
  obtain ⟨before, move⟩ := step
  cases move with
  | attempt =>
      have hwaiting : before.ring.admitted < before.ring.posted := hready
      exact ⟨before.ring.admitted, Nat.lt_of_lt_of_le hwaiting hposted,
        habout _ (beq_self_eq_true _)⟩
  | scan =>
      have hbusy : before.ring.released < before.ring.admitted := hready
      have hadmitted := hsound.staged.ordered.admitted_le
      exact ⟨before.ring.released, by dsimp only at hposted hadmitted; omega,
        habout _ (beq_self_eq_true _)⟩
  | _ =>
      have hsilent : call ∈ deviceCalls (Step.calls ⟨before, _⟩) :=
        List.mem_filter.mpr ⟨hcall, hdevice⟩
      rw [Step.calls, deviceCalls_move _ rfl] at hsilent
      cases hsilent

/-- In every run the calls keep their discipline. An advance from the state that was reached
tries the packets that wait in the order of the ring, rings the doorbell if it handed one over,
and then deals with the packets in flight in the order of the ring. The device was given each
packet at most once, and was asked about it as what became of the packet calls for; every such
call was about a packet that was posted. -/
theorem calls_disciplined {device : H} {adapter : D} {queue : Queue P H D}
    (hbuild : (build config device adapter).value = .ok queue)
    (operations : List (Operation P H D)) :
    let last := queue.after operations
    let transcript := queue.transcript operations
    (∃ sending completing,
      AdvanceCalls last sending completing (collaboratorCalls last.advance.events)) ∧
      (∀ cursor packet state, transcript.accepted[cursor]? = some packet →
        (last.census transcript.popped)[cursor]? = some state →
        DeviceCalls packet state (deviceCalls (callsAbout (queue.course operations) cursor))) ∧
      ∀ call ∈ (queue.run operations).events, call.isDeviceCall = true →
        ∃ cursor < last.ring.posted, call ∈ callsAbout (queue.course operations) cursor := by
  have hbuilt := built_of_build hbuild
  have hcourse := queue.course_run operations
  refine ⟨hcourse.exists_advanceCalls hbuilt, ?_, ?_⟩
  · intro cursor packet state haccepted hstate
    rw [accepted_transcript] at haccepted
    rw [popped_transcript] at hstate
    obtain ⟨cancelled, hstory⟩ := hcourse.exists_story hbuilt haccepted hstate
    exact hstory.deviceCalls
  · intro call hmember hdevice
    rw [events_run] at hmember
    exact hcourse.exists_callsAbout hbuilt hmember hdevice

theorem sample_calls_disciplined :
    (build sampleConfig (ScriptedDevice.hold {} 2) ({} : ScriptedAdapter)).value =
        .ok (sampleQueue (.hold {} 2)) ∧
      (∃ sending completing, AdvanceCalls ((sampleQueue (.hold {} 2)).after sampleMappedRun)
        sending completing [.status sampleMappedPacket .pending]) ∧
      DeviceCalls sampleMappedPacket .completionPending
        (deviceCalls (callsAbout ((sampleQueue (.hold {} 2)).course sampleMappedRun) 0)) := by
  have hbuild : (build sampleConfig (ScriptedDevice.hold {} 2) ({} : ScriptedAdapter)).value =
      .ok (sampleQueue (.hold {} 2)) := rfl
  obtain ⟨hadvance, hpackets, _⟩ := calls_disciplined hbuild sampleMappedRun
  exact ⟨hbuild, hadvance, hpackets 0 _ _ rfl rfl⟩

end Queue

end TransmitQueue
