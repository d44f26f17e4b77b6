import TransmitQueue.Proofs.Census

/-!
# Accounts

What the counters of a queue stand for. Each move changes them together with the cursors,
the calls and the states of packets that they count, so they agree in every state that a run
reaches, as long as the caller does not set them back.
-/

namespace TransmitQueue

/-- Failures that one counter counts. -/
def Failure.isAlike : Failure → Failure → Bool
  | skipped, skipped | cannotTransmit, cannotTransmit | mapping _, mapping _
  | hardware, hardware => true
  | _, _ => false

/-- The counter of a failure. -/
def Statistics.failures (counters : Statistics) : Failure → Nat
  | .skipped => counters.skipped
  | .cannotTransmit => counters.cannotTransmit
  | .mapping _ => counters.otherDmaErrors
  | .hardware => counters.completedWithError

/-- Whether a packet is known to have ended in a failure that is counted like a given one. -/
def PacketState.hasFailed (failure : Failure) : PacketState → Bool
  | completed (.failed other) | released (.failed other) => other.isAlike failure
  | _ => false

/-- Whether a packet was released as sent. -/
def PacketState.hasSucceeded : PacketState → Bool
  | released .success => true
  | _ => false

namespace PacketState

variable {state : PacketState} (hdevice : state.isOnDevice = true)
include hdevice

theorem hasFailed_of_isOnDevice {failure : Failure} : state.hasFailed failure = false := by
  cases state <;> first | rfl | cases hdevice

theorem hasSucceeded_of_isOnDevice : state.hasSucceeded = false := by
  cases state <;> first | rfl | cases hdevice

end PacketState

/-- How often the doorbell was rung. -/
def doorbells {P : Type} (calls : List (Event P)) : Nat :=
  calls.countP fun
    | .flush => true
    | _ => false

@[simp] theorem doorbells_append {P : Type} (first second : List (Event P)) :
    doorbells (first ++ second) = doorbells first + doorbells second := List.countP_append

variable {P H D : Type}

namespace Queue

/-- How counters grow while calls are made, copies made and packets released. -/
structure Counted (before after : Statistics) (calls : List (Event P)) (copied released : Nat) :
    Prop where
  programmed_eq : after.programmed = before.programmed + (programs calls).length
  flushes_eq : after.flushes = before.flushes + doorbells calls
  bounceSuccess_eq : after.bounceSuccess = before.bounceSuccess + copied
  completed_eq : after.completed = before.completed + released

/-- What a look adds to the counters, given the state in which it finds its packet. -/
inductive LookCounted (state : PacketState) (before after : Statistics) :
    Option Completion → Prop where
  | pending (hstate : ∀ known, state ≠ .completed known) (hafter : after = before) :
      LookCounted state before after none
  | known {completion : Completion} (hstate : state = .completed completion)
      (hafter : after = { before with completed := before.completed + 1 }) :
      LookCounted state before after (some completion)
  | success (hstate : ∀ known, state ≠ .completed known)
      (hafter : after = { before with completed := before.completed + 1 }) :
      LookCounted state before after (some .success)
  | error (hstate : ∀ known, state ≠ .completed known)
      (hafter : after = { before with
        completedWithError := before.completedWithError + 1
        completed := before.completed + 1 }) :
      LookCounted state before after (some (.failed .hardware))

/-- A queue whose counters account for the calls that were made, the copies among them, and
the states of its packets. -/
structure Accounts (calls : List (Event P)) (copied : Nat) (states : List PacketState)
    (queue : Queue P H D) : Prop where
  counted : Counted {} queue.statistics calls copied queue.ring.released
  failures_eq : ∀ failure, queue.statistics.failures failure =
    states.countP (PacketState.hasFailed failure)
  admitted_eq : queue.statistics.skipped + queue.statistics.cannotTransmit +
    queue.statistics.otherDmaErrors + queue.statistics.programmed = queue.ring.admitted
  settled_eq : queue.ring.admitted = queue.statistics.totalFailures +
    states.countP PacketState.hasSucceeded + states.countP PacketState.isOnDevice

theorem Counted.append {first second third : Statistics} {calls more : List (Event P)}
    {copied released copies releases : Nat} (hfirst : Counted first second calls copied released)
    (hsecond : Counted second third more copies releases) :
    Counted first third (calls ++ more) (copied + copies) (released + releases) where
  programmed_eq := by
    rw [hsecond.programmed_eq, hfirst.programmed_eq, programs_append, List.length_append,
      Nat.add_assoc]
  flushes_eq := by
    rw [hsecond.flushes_eq, hfirst.flushes_eq, doorbells_append, Nat.add_assoc]
  bounceSuccess_eq := by rw [hsecond.bounceSuccess_eq, hfirst.bounceSuccess_eq, Nat.add_assoc]
  completed_eq := by rw [hsecond.completed_eq, hfirst.completed_eq, Nat.add_assoc]

variable [Packet P] [Device P H] {queue next : Queue P H D} {packet : P}
  {admission : Admission} {calls : List (Event P)}

theorem doorbells_consult (queue : Queue P H D) (packet : P) :
    doorbells (queue.consult packet).events = 0 := by
  unfold consult decideBounce
  split <;> rfl

variable [Adapter D]

omit [Device P H] in
theorem doorbells_mapping (queue : Queue P H D) (packet : P) :
    doorbells (queue.mapping packet).events = 0 := by
  unfold mapping
  cases hmapper : queue.mapper with
  | direct scratch => rfl
  | delegated contexts =>
      cases hblock : contexts.block? queue.admitPosition with
      | none =>
          simp only [Mapper.map, hblock]
          rfl
      | some context =>
          rw [Mapper.map_delegated _ _ _ _ hblock]
          rfl

section Attempt

variable (hattempted : Attempted queue packet admission calls next)
include hattempted

theorem Attempted.doorbells_eq_zero : doorbells calls = 0 := by
  have hconsult := queue.doorbells_consult packet
  have hmapping := queue.doorbells_mapping packet
  cases hattempted with
  | skip => rfl
  | refuse | bounce | bounceStall | bounceFail =>
      rw [doorbells_append, hconsult]
      rfl
  | map | mapStall | mapFail =>
      rw [doorbells_append, doorbells_append, hconsult, hmapping]
      rfl

/-- An attempt counts its packet as programmed where it hands it over. -/
theorem Attempted.programmed_eq :
    next.statistics.programmed = queue.statistics.programmed + (programs calls).length := by
  obtain ⟨_, hunsent, hsent⟩ := hattempted.calls
  cases hattempted with
  | bounce | map =>
      obtain ⟨list, hprograms⟩ := hsent rfl
      rw [hprograms]
      rfl
  | skip | refuse | bounceStall | bounceFail | mapStall | mapFail =>
      rw [hunsent nofun]
      rfl

/-- An attempt counts its packet as copied where the copy is what it hands over. -/
theorem Attempted.bounceSuccess_eq (hcalls : Step.calls ⟨queue, .attempt⟩ = calls) :
    next.statistics.bounceSuccess =
      queue.statistics.bounceSuccess + (Step.copied? ⟨queue, .attempt⟩).toList.length := by
  have huncopied := hattempted.copied?_eq_none hcalls
  obtain ⟨_, hunsent, hsent⟩ := hattempted.calls
  cases hattempted with
  | bounce list pool _ hdecision =>
      rw [consult_decision] at hdecision
      obtain ⟨sent, hprograms⟩ := hsent rfl
      rw [copied?_attempt hcalls hprograms hdecision]
      rfl
  | map list _ hdecision =>
      rw [consult_decision] at hdecision
      rw [huncopied (Or.inr (by rw [hdecision]; nofun))]
      rfl
  | skip | refuse | bounceStall | bounceFail | mapStall | mapFail =>
      rw [huncopied (Or.inl (hunsent nofun))]
      rfl

theorem Attempted.counted (hcalls : Step.calls ⟨queue, .attempt⟩ = calls) :
    Counted queue.statistics next.statistics calls
      (Step.copied? ⟨queue, .attempt⟩).toList.length 0 where
  programmed_eq := hattempted.programmed_eq
  flushes_eq := by
    rw [hattempted.doorbells_eq_zero]
    cases hattempted <;> rfl
  bounceSuccess_eq := hattempted.bounceSuccess_eq hcalls
  completed_eq := by cases hattempted <;> rfl

/-- An attempt counts a failure where it leaves its packet failed. -/
theorem Attempted.failures_eq (failure : Failure) : next.statistics.failures failure =
    queue.statistics.failures failure + (admission.state.hasFailed failure).toNat := by
  cases hattempted <;> cases failure <;> rfl

/-- An attempt that does not stall counts its packet once. -/
theorem Attempted.admitted_eq :
    next.statistics.skipped + next.statistics.cannotTransmit + next.statistics.otherDmaErrors +
        next.statistics.programmed + queue.ring.admitted =
      queue.statistics.skipped + queue.statistics.cannotTransmit +
        queue.statistics.otherDmaErrors + queue.statistics.programmed + next.ring.admitted := by
  rw [hattempted.ring_eq]
  cases hattempted <;> simp only [PacketRing.concluded, PacketRing.admitNext,
    PacketRing.admitted_setState] <;> omega

/-- A packet that an attempt settles has failed or is on the device. -/
theorem Attempted.settled_eq :
    queue.ring.admitted + next.statistics.totalFailures +
        admission.state.hasSucceeded.toNat + admission.state.isOnDevice.toNat =
      next.ring.admitted + queue.statistics.totalFailures := by
  rw [hattempted.ring_eq]
  unfold Statistics.totalFailures
  cases hattempted <;> simp only [PacketRing.concluded, PacketRing.admitNext,
    PacketRing.admitted_setState, Admission.state, PacketState.hasSucceeded,
    PacketState.isOnDevice, Bool.toNat_true, Bool.toNat_false] <;> omega

end Attempt

omit [Packet P] [Device P H] in
theorem Returned.doorbells_eq_zero {position : Nat}
    (hreturned : Returned queue position calls next) : doorbells calls = 0 := by
  rw [hreturned.calls_eq]
  rcases queue.returnCalls_or (P := P) position with hnone | ⟨_, _, hcall⟩
  · rw [hnone]
    rfl
  · rw [hcall]
    rfl

omit [Packet P] [Device P H] in
theorem Returned.statistics_eq {position : Nat}
    (hreturned : Returned queue position calls next) : next.statistics = queue.statistics := by
  cases hreturned <;> rfl

section Scan

variable {outcome : Option Completion} (hscanned : Scanned queue packet outcome calls next)
include hscanned

omit [Packet P] in
theorem Scanned.doorbells_eq_zero : doorbells calls = 0 := by
  cases hscanned with
  | pending => rfl
  | released completion calls returns settled returned hsettled hreturned =>
      rw [doorbells_append, hreturned.doorbells_eq_zero]
      cases hsettled <;> rfl

omit [Packet P] in
/-- Every look counts what it finds. -/
theorem Scanned.lookCounted : LookCounted (queue.ring.slot queue.ring.released).state
    queue.statistics next.statistics outcome := by
  cases hscanned with
  | pending _ hstate => exact .pending hstate rfl
  | released completion calls returns settled returned hsettled hreturned =>
      rw [hreturned.statistics_eq]
      cases hsettled with
      | known _ hstate => exact .known hstate rfl
      | success _ hstate => exact .success hstate rfl
      | error _ hstate => exact .error hstate rfl

omit [Packet P] in
/-- A look counts its packet as completed where it releases it. -/
theorem Scanned.counted :
    Counted queue.statistics next.statistics calls 0 outcome.isSome.toNat := by
  have hprograms := hscanned.programs_eq_nil
  have hrings := hscanned.doorbells_eq_zero
  cases hscanned.lookCounted with
  | pending _ hafter | known _ hafter | success _ hafter | error _ hafter =>
      rw [hafter]
      refine ⟨?_, ?_, rfl, rfl⟩
      · rw [hprograms]
        rfl
      · rw [hrings]
        rfl

variable (hstaged : queue.ring.Staged) (hbusy : queue.ring.released < queue.ring.admitted)
include hstaged hbusy

omit [Packet P] in
/-- A look counts a failure where it is the first to know of it. -/
theorem Scanned.failures_eq (failure : Failure) :
    next.statistics.failures failure +
        ((queue.ring.slot queue.ring.released).state.hasFailed failure).toNat =
      queue.statistics.failures failure +
        ((PacketState.afterScan outcome).hasFailed failure).toNat := by
  have hflight := hstaged.inFlight queue.ring.released (Nat.le_refl _) hbusy
  cases hscanned.lookCounted with
  | @known completion hstate hafter =>
      rw [hafter, hstate]
      cases completion <;> cases failure <;> rfl
  | pending hstate hafter | success hstate hafter | error hstate hafter =>
      rw [hafter, PacketState.hasFailed_of_isOnDevice
        (PacketState.isOnDevice_of_isInFlight hflight hstate)]
      cases failure <;> rfl

omit [Packet P] in
/-- A packet that a look releases was on the device, or had failed before. -/
theorem Scanned.settled_eq :
    next.statistics.totalFailures + (PacketState.afterScan outcome).hasSucceeded.toNat +
        (PacketState.afterScan outcome).isOnDevice.toNat =
      queue.statistics.totalFailures +
        (queue.ring.slot queue.ring.released).state.hasSucceeded.toNat +
        (queue.ring.slot queue.ring.released).state.isOnDevice.toNat := by
  have hflight := hstaged.inFlight queue.ring.released (Nat.le_refl _) hbusy
  unfold Statistics.totalFailures
  cases hscanned.lookCounted with
  | @known completion hstate hafter =>
      rw [hstate] at hflight ⊢
      rw [hafter]
      cases completion with
      | success => cases hflight
      | failed failure => rfl
  | pending hstate hafter | success hstate hafter =>
      have hdevice := PacketState.isOnDevice_of_isInFlight hflight hstate
      rw [hafter, hdevice, PacketState.hasSucceeded_of_isOnDevice hdevice]
      rfl
  | error hstate hafter =>
      have hdevice := PacketState.isOnDevice_of_isInFlight hflight hstate
      rw [hafter, hdevice, PacketState.hasSucceeded_of_isOnDevice hdevice]
      simp only [PacketState.afterScan, PacketState.hasSucceeded, PacketState.isOnDevice,
        Bool.toNat_true, Bool.toNat_false]
      omega

end Scan

namespace Accounts

variable {made : List (Event P)} {copied : Nat} {popped : List (CompletedPacket P)}
  (haccounted : Accounts made copied (queue.census popped) queue)
include haccounted

theorem attempted (hattempted : Attempted queue packet admission calls next)
    (hcalls : Step.calls ⟨queue, .attempt⟩ = calls) (hstaged : queue.ring.Staged)
    (hlength : popped.length = queue.ring.taken)
    (hready : queue.ring.admitted < queue.ring.posted) :
    Accounts (made ++ calls) (copied + (Step.copied? ⟨queue, .attempt⟩).toList.length)
      (next.census popped) next := by
  obtain ⟨hwaiting, hcensus⟩ := hattempted.census_eq hstaged hlength hready
  have hcount : ∀ choose : PacketState → Bool, choose .unposted = false →
      (next.census popped).countP choose =
        (queue.census popped).countP choose + (choose admission.state).toNat := by
    intro choose hunposted
    rw [hcensus, ← countP_set_add hwaiting, hunposted]
    rfl
  have hcounted := haccounted.counted.append (hattempted.counted hcalls)
  rw [Nat.add_zero, ← queue.ring.released_concluded admission, ← hattempted.ring_eq] at hcounted
  refine ⟨hcounted, fun failure => ?_, ?_, ?_⟩
  · rw [hcount _ rfl, hattempted.failures_eq failure, haccounted.failures_eq failure]
  · have hbefore := haccounted.admitted_eq
    have hadmitted := hattempted.admitted_eq
    omega
  · have hbefore := haccounted.settled_eq
    have hsettled := hattempted.settled_eq
    rw [hcount _ rfl, hcount _ rfl]
    omega

omit [Packet P] in
theorem scanned {outcome : Option Completion}
    (hscanned : Scanned queue packet outcome calls next) (hstaged : queue.ring.Staged)
    (hlength : popped.length = queue.ring.taken)
    (hbusy : queue.ring.released < queue.ring.admitted) :
    Accounts (made ++ calls) copied (next.census popped) next := by
  obtain ⟨hflight, hcensus⟩ := hscanned.census_eq hstaged hlength hbusy
  have hcount : ∀ choose : PacketState → Bool, (next.census popped).countP choose +
      (choose (queue.ring.slot queue.ring.released).state).toNat =
        (queue.census popped).countP choose + (choose (.afterScan outcome)).toNat := by
    intro choose
    rw [hcensus]
    exact countP_set_add hflight
  have hring := hscanned.ring_eq
  have hreleased : next.ring.released = queue.ring.released + outcome.isSome.toNat := by
    rw [hring]
    cases outcome <;> rfl
  have hadmitted : next.ring.admitted = queue.ring.admitted := by
    rw [hring]
    cases outcome <;> rfl
  have hcounted := haccounted.counted.append hscanned.counted
  rw [Nat.add_zero, ← hreleased] at hcounted
  refine ⟨hcounted, fun failure => ?_, ?_, ?_⟩
  · have hbefore := haccounted.failures_eq failure
    have hfailures := hscanned.failures_eq hstaged hbusy failure
    have hfailed := hcount (PacketState.hasFailed failure)
    omega
  · rw [hadmitted]
    cases hscanned.lookCounted with
    | pending _ hafter | known _ hafter | success _ hafter | error _ hafter =>
        rw [hafter]
        exact haccounted.admitted_eq
  · have hbefore := haccounted.settled_eq
    have hsettled := hscanned.settled_eq hstaged hbusy
    have hsucceeded := hcount PacketState.hasSucceeded
    have hdevice := hcount PacketState.isOnDevice
    omega

omit [Packet P] [Device P H] [Adapter D] in
/-- What leaves the packets admitted and the counters as they are, but for the doorbell. -/
theorem untouched (hsame : Untouched queue next) (hprograms : programs calls = [])
    (hstatistics : next.statistics = { queue.statistics with
      flushes := queue.statistics.flushes + doorbells calls })
    {states : List PacketState} (hstates : states = queue.census popped ∨
      states = queue.census popped ++ [.unposted]) :
    Accounts (made ++ calls) copied states next := by
  have hcount : ∀ choose : PacketState → Bool, choose .unposted = false →
      states.countP choose = (queue.census popped).countP choose := by
    intro choose hunposted
    rcases hstates with rfl | rfl
    · rfl
    · rw [List.countP_append, List.countP_singleton, hunposted]
      rfl
  have hcounted : Counted queue.statistics next.statistics calls 0 0 := by
    rw [hstatistics]
    exact ⟨by rw [hprograms]; rfl, rfl, rfl, rfl⟩
  have hcounted := haccounted.counted.append hcounted
  rw [Nat.add_zero, Nat.add_zero, ← hsame.released_eq] at hcounted
  refine ⟨hcounted, fun failure => ?_, ?_, ?_⟩
  · rw [hcount _ rfl, hstatistics]
    have hbefore := haccounted.failures_eq failure
    cases failure <;> exact hbefore
  · rw [hsame.admitted_eq, hstatistics]
    exact haccounted.admitted_eq
  · rw [hsame.admitted_eq, hstatistics, hcount _ rfl, hcount _ rfl]
    exact haccounted.settled_eq

end Accounts

/-- A move that deals with no packet hands none over, and counts only its doorbell. -/
theorem statistics_move (queue : Queue P H D) {move : Move P H D}
    (hmove : move.isDealing = false) (hkept : move ≠ .resetStatistics) :
    programs (queue.move move).events = [] ∧ (queue.move move).value.statistics =
      { queue.statistics with
        flushes := queue.statistics.flushes + doorbells (queue.move move).events } := by
  cases move with
  | post packet =>
      simp only [Queue.move, post]
      cases queue.ring.post packet <;> exact ⟨rfl, rfl⟩
  | pop =>
      simp only [Queue.move, pop?]
      cases queue.ring.pop? <;> exact ⟨rfl, rfl⟩
  | cancel | flush | pause | giveUp | changeDevice | changeAdapter => exact ⟨rfl, rfl⟩
  | resetStatistics => exact absurd rfl hkept
  | attempt | scan => cases hmove

/-- Every move but setting the counters back keeps them accounted for. -/
theorem Accounts.moved {made : List (Event P)} {copied : Nat}
    {popped : List (CompletedPacket P)} {move : Move P H D}
    (haccounted : Accounts made copied (queue.census popped) queue)
    (hmoved : Moved queue move next) (hnext : (queue.move move).value = next)
    (hstaged : queue.ring.Staged) (hlength : popped.length = queue.ring.taken)
    (hkept : move ≠ .resetStatistics) :
    Accounts (made ++ Step.calls ⟨queue, move⟩)
      (copied + (Step.copied? ⟨queue, move⟩).toList.length)
      (next.census (popped ++ (Step.popped? ⟨queue, move⟩).toList)) next := by
  cases hmove : move.isDealing with
  | false =>
      have hcopied : Step.copied? ⟨queue, move⟩ = none := by
        unfold Step.copied?
        cases move <;> first | rfl | cases hmove
      obtain ⟨hprograms, hstatistics⟩ := queue.statistics_move hmove hkept
      rw [hcopied]
      refine haccounted.untouched (hmoved.untouched hstaged hmove) hprograms ?_
        (hmoved.census_or hstaged hmove)
      rw [← hnext]
      exact hstatistics
  | true =>
      cases move with
      | attempt =>
          obtain ⟨packet, admission, hready, _, hattempted⟩ := hmoved.of_attempt
          have hattempted := haccounted.attempted hattempted rfl hstaged hlength hready
          rwa [← List.append_nil popped] at hattempted
      | scan =>
          obtain ⟨packet, outcome, hbusy, _, hscanned⟩ := hmoved.of_scan
          have hscanned := haccounted.scanned hscanned hstaged hlength hbusy
          rwa [← List.append_nil popped] at hscanned
      | _ => cases hmove

variable {start last : Queue P H D} {config : Config} {steps : List (Step P H D)}

omit [Packet P] [Device P H] [Adapter D] in
theorem Built.accounts (hbuilt : Built config queue) (hzero : queue.statistics = {}) :
    Accounts [] 0 (queue.census []) queue := by
  have hring := hbuilt.ring_eq
  have hcensus : queue.census [] = [] := by
    unfold census
    rw [hring]
    rfl
  rw [hcensus]
  refine ⟨?_, fun failure => ?_, ?_, ?_⟩
  · rw [hzero, hring]
    exact ⟨rfl, rfl, rfl, rfl⟩
  · rw [hzero]
    cases failure <;> rfl
  · rw [hzero, hring]
    rfl
  · rw [hzero, hring]
    rfl

/-- Along every course that does not set them back, the counters account for the calls, the
copies and the states of the packets. -/
theorem Course.accounts (hcourse : Course start steps last) (hbuilt : Built config start)
    (hzero : start.statistics = {}) (hkept : ∀ step ∈ steps, step.move ≠ .resetStatistics) :
    Accounts (steps.flatMap Step.calls) (copies steps).length
      (last.census (poppedPackets steps)) last := by
  suffices hall : (∀ step ∈ steps, step.move ≠ .resetStatistics) →
      Accounts (steps.flatMap Step.calls) (copies steps).length
        (last.census (poppedPackets steps)) last from hall hkept
  refine hcourse.invariant (fun steps queue => (∀ step ∈ steps, step.move ≠ .resetStatistics) →
    Accounts (steps.flatMap Step.calls) (copies steps).length
      (queue.census (poppedPackets steps)) queue) hbuilt.sound
    (fun _ => hbuilt.accounts hzero) ?_
  intro steps queue move next hfirst hstaged hnext hmoved hbefore hkept
  have haccounted := hbefore fun step hstep => hkept step (List.mem_append_left _ hstep)
  have hlength := (hfirst.holds hbuilt).length_popped hstaged.ordered
  have hmoved := haccounted.moved hmoved hnext hstaged hlength
    (hkept ⟨queue, move⟩ List.mem_concat_self)
  rw [List.flatMap_append, List.flatMap_singleton, copies, filterMap_concat, List.length_append,
    poppedPackets, filterMap_concat]
  exact hmoved

end Queue

end TransmitQueue
