import TransmitQueue.Proofs.Queue.Verdict
import TransmitQueue.Proofs.Story

/-!
# Outcomes

The completion that a packet is handed back with is the one that its history calls for:
whether it was cancelled in time, what was decided on it at the attempt that did not
stall, and what the device said of it at last.
-/

namespace TransmitQueue

variable {P H D : Type} [Packet P] [Device P H] [Adapter D]

namespace Step

/-- Whether an attempt at admission leaves its packet waiting. -/
def Stalls (step : Step P H D) : Prop := step.after.ring.admitted = step.before.ring.admitted

theorem Attempts.stalls_iff {step : Step P H D} {packet : P} {admission : Queue.Admission}
    (hstep : step.Attempts packet admission) : step.Stalls ↔ admission = .stalled := by
  unfold Stalls
  rw [hstep.attempted.ring_eq]
  cases admission with
  | stalled => exact ⟨fun _ => rfl, fun _ => rfl⟩
  | programmed => exact ⟨fun hsame => absurd hsame (Nat.succ_ne_self _), nofun⟩
  | failed failure => exact ⟨fun hsame => absurd hsame (Nat.succ_ne_self _), nofun⟩

end Step

/-- The calls made about the packet of a cursor. -/
def callsAbout (steps : List (Step P H D)) (cursor : Nat) : List (Event P) :=
  (dealings steps cursor).flatMap Step.calls

section Calls

variable {steps : List (Step P H D)} {packet : P}

theorem programs_flatMap_calls (steps : List (Step P H D)) :
    programs (steps.flatMap Step.calls) = steps.flatMap fun step => programs step.calls :=
  List.filterMap_flatMap

theorem statuses_flatMap_calls (steps : List (Step P H D)) :
    statuses (steps.flatMap Step.calls) = steps.flatMap fun step => statuses step.calls :=
  List.filterMap_flatMap

/-- Looks that find the device busy ask it once each. -/
theorem statuses_of_polls (hsteps : ∀ step ∈ steps, step.Scans packet none) :
    (steps.flatMap fun step => statuses step.calls) =
      List.replicate steps.length (packet, .pending) := by
  induction steps with
  | nil => rfl
  | cons step rest ih =>
      rw [List.flatMap_cons, (hsteps step List.mem_cons_self).scanned.of_none.1,
        List.length_cons, List.replicate_succ]
      exact congrArg _ (ih fun other hother => hsteps other (List.mem_cons_of_mem step hother))

end Calls

/-- The story of a packet that was released, in its parts: attempts that stalled, the one
that did not, looks that found the device busy, and the look that released the packet. -/
structure Ending (packet : P) (cancelled : Bool) (completion : Completion)
    (steps stalls polls : List (Step P H D)) (last look : Step P H D)
    (admission : Queue.Admission) : Prop where
  steps_eq : steps = stalls ++ [last] ++ polls ++ [look]
  stalls_stalled : ∀ step ∈ stalls, step.Attempts packet .stalled
  last_attempts : last.Attempts packet admission
  cancelled_eq : (last.before.ring.slot last.before.ring.admitted).cancelled = cancelled
  polls_busy : ∀ step ∈ polls, step.Scans packet none
  look_scans : look.Scans packet (some completion)
  outcome : (∃ failure, admission = .failed failure ∧ completion = .failed failure ∧
      polls = [] ∧ statuses look.calls = []) ∨
    admission = .programmed ∧
      (statuses look.calls = [(packet, .success)] ∧ completion = .success ∨
        statuses look.calls = [(packet, .error)] ∧ completion = .failed .hardware)

theorem Story.ending {packet : P} {cancelled : Bool} {steps : List (Step P H D)}
    {completion : Completion} (hstory : Story packet cancelled steps (.released completion)) :
    ∃ stalls polls last look admission,
      Ending packet cancelled completion steps stalls polls last look admission := by
  cases hstory with
  | sent _ _ _ _ hstate => rcases hstate with hstate | hstate <;> cases hstate
  | @returned earlier state look _ hstory hflight hstate hlook =>
      have hfound := hlook.scanned.of_some
      cases hstory with
      | waiting => cases hflight
      | returned => cases hflight
      | @failed stalls last failure hstalls hlast hcancelled =>
          -- A packet that failed is completed already, so the device is not asked.
          rcases hfound with ⟨hknown, hsilent⟩ | ⟨hunknown, _⟩
          · rw [hstate] at hknown
            cases hknown
            exact ⟨stalls, [], last, look, _, by rw [List.append_nil], hstalls, hlast, hcancelled,
              nofun, hlook, Or.inl ⟨failure, rfl, rfl, rfl, hsilent⟩⟩
          · exact False.elim (hunknown _ hstate)
      | @sent stalls polls last _ hstalls hlast hcancelled hpolls hsent =>
          rcases hfound with ⟨hknown, _⟩ | ⟨_, hanswer⟩
          · rw [hstate] at hknown
            subst hknown
            rcases hsent with hsent | hsent <;> cases hsent
          · exact ⟨stalls, polls, last, look, _, rfl, hstalls, hlast, hcancelled, hpolls, hlook,
              Or.inr ⟨rfl, hanswer⟩⟩

namespace Ending

variable {packet : P} {cancelled : Bool} {completion : Completion}
  {steps stalls polls : List (Step P H D)} {last look : Step P H D}
  {admission : Queue.Admission}
  (hending : Ending packet cancelled completion steps stalls polls last look admission)
include hending

theorem not_stalled : admission ≠ .stalled := by
  rintro rfl
  rcases hending.outcome with ⟨failure, hadmission, _⟩ | ⟨hadmission, _⟩ <;> cases hadmission

/-- A packet is handed to the device at the attempt that decided on it, or never. -/
theorem programs_eq : programs (steps.flatMap Step.calls) = programs last.calls := by
  have hstalls : (stalls.flatMap fun step => programs step.calls) = [] :=
    List.flatMap_eq_nil_iff.mpr fun step hstep =>
      (hending.stalls_stalled step hstep).attempted.calls.2.1 nofun
  have hpolls : (polls.flatMap fun step => programs step.calls) = [] :=
    List.flatMap_eq_nil_iff.mpr fun step hstep =>
      (hending.polls_busy step hstep).scanned.programs_eq_nil
  rw [hending.steps_eq, programs_flatMap_calls]
  simp only [List.flatMap_append, List.flatMap_cons, List.flatMap_nil, List.append_nil,
    hstalls, hpolls, hending.look_scans.scanned.programs_eq_nil, List.nil_append]

/-- The device is asked about a packet until it is done with it. -/
theorem statuses_eq : statuses (steps.flatMap Step.calls) =
    List.replicate polls.length (packet, .pending) ++ statuses look.calls := by
  have hstalls : (stalls.flatMap fun step => statuses step.calls) = [] :=
    List.flatMap_eq_nil_iff.mpr fun step hstep =>
      (hending.stalls_stalled step hstep).attempted.calls.1
  rw [hending.steps_eq, statuses_flatMap_calls]
  simp only [List.flatMap_append, List.flatMap_cons, List.flatMap_nil, List.append_nil,
    hstalls, statuses_of_polls hending.polls_busy, hending.last_attempts.attempted.calls.1,
    List.nil_append]

/-- The attempts among the steps that deal with a packet. -/
theorem filter_attempts {cursor : Nat} (hconcerns : ∀ step ∈ steps, step.concerns cursor = true) :
    (steps.filter fun step => step.attempts cursor) = stalls ++ [last] := by
  have hattempts : ∀ step ∈ steps, step.move = .attempt → step.attempts cursor = true := by
    intro step hstep hmove
    have hconcern := hconcerns step hstep
    unfold Step.concerns at hconcern
    unfold Step.attempts
    rw [hmove] at hconcern ⊢
    exact hconcern
  have hscan : ∀ step : Step P H D, step.move = .scan → step.attempts cursor = false := by
    intro step hmove
    unfold Step.attempts
    rw [hmove]
  have hsteps := hending.steps_eq
  subst hsteps
  have hstalls : (stalls.filter fun step => step.attempts cursor) = stalls :=
    List.filter_eq_self.mpr fun step hstep =>
      hattempts step (by simp [hstep]) (hending.stalls_stalled step hstep).move_eq
  have hlast : last.attempts cursor = true :=
    hattempts last (by simp) hending.last_attempts.move_eq
  have hpolls : (polls.filter fun step => step.attempts cursor) = [] :=
    List.filter_eq_nil_iff.mpr fun step hstep => by
      rw [hscan step (hending.polls_busy step hstep).move_eq]
      exact Bool.false_ne_true
  simp only [List.filter_append, hstalls, hpolls, List.filter_cons, List.filter_nil, hlast,
    hscan look hending.look_scans.move_eq, if_true, Bool.false_eq_true, if_false, List.append_nil]

end Ending

/-- Whether a packet was cancelled in time: before it was posted, or while it waited. -/
def Withdrawn (steps : List (Step P H D)) (cursor : Nat) (packet : P) : Prop :=
  Packet.ignored packet = true ∨ CancelledWaiting steps cursor

/-- The completion that a packet's history calls for, where `last` is the attempt at its
admission that did not stall. -/
structure Outcome (backend : Backend) (steps : List (Step P H D)) (cursor : Nat)
    (last : Step P H D) (packet : P) (completion : Completion) : Prop where
  skipped_iff : completion = .failed .skipped ↔ Withdrawn steps cursor packet
  cannotTransmit_iff : ¬ Withdrawn steps cursor packet →
    (completion = .failed .cannotTransmit ↔ last.before.decision packet = .cannotTransmit)
  mapping_iff : ¬ Withdrawn steps cursor packet → ∀ error,
    (completion = .failed (.mapping error) ↔
      last.before.decision packet = .transmitInPlace ∧ backend = .delegated ∧
        mapAnswers last.calls = [(packet, .error error)] ∧ error.isExhaustion = false)
  unsent : ∀ failure, failure ≠ .hardware → completion = .failed failure →
    programs (callsAbout steps cursor) = []
  sent : ¬ Withdrawn steps cursor packet → last.before.decision packet ≠ .cannotTransmit →
    (∀ error, completion ≠ .failed (.mapping error)) →
    ∃ list polls, programs (callsAbout steps cursor) = [(packet, list)] ∧
      (statuses (callsAbout steps cursor) =
          List.replicate polls (packet, .pending) ++ [(packet, .success)] ∧
          completion = .success ∨
        statuses (callsAbout steps cursor) =
          List.replicate polls (packet, .pending) ++ [(packet, .error)] ∧
          completion = .failed .hardware)

omit [Packet P] [Device P H] [Adapter D] in
theorem concerns_of_mem_dealings {steps : List (Step P H D)} {cursor : Nat} {step : Step P H D}
    (hstep : step ∈ dealings steps cursor) : step ∈ steps ∧ step.concerns cursor = true :=
  List.mem_filter.mp hstep

namespace Queue

variable {start last : Queue P H D} {config : Config} {steps : List (Step P H D)}

/-- A story that ended gives the outcome that it calls for. -/
theorem Course.outcome (hcourse : Course start steps last) (hbuilt : Built config start)
    {cursor : Nat} {packet : P} {cancelled : Bool} {completion : Completion}
    (hmarked : cancelled = true ↔ CancelledWaiting steps cursor)
    {stalls polls : List (Step P H D)} {decided look : Step P H D} {admission : Admission}
    (hending : Ending packet cancelled completion (dealings steps cursor) stalls polls decided look
      admission) : Outcome start.backend steps cursor decided packet completion := by
  have hmember : decided ∈ dealings steps cursor := by
    rw [hending.steps_eq]
    simp
  obtain ⟨_, _, _, hfirst, _, _⟩ :=
    hcourse.exists_of_mem (concerns_of_mem_dealings hmember).1
  have hattempted := hending.last_attempts.attempted
  have hlaid := hfirst.laidOut hbuilt
  have hwithdrawn : decided.before.withdrawn packet = true ↔ Withdrawn steps cursor packet := by
    unfold withdrawn Withdrawn
    rw [hending.cancelled_eq, Bool.or_eq_true, hmarked]
    exact or_comm
  have hspared : ¬ Withdrawn steps cursor packet → decided.before.withdrawn packet = false := by
    intro hnone
    rw [← hwithdrawn, Bool.not_eq_true] at hnone
    exact hnone
  -- Completions that stem from the attempt itself, and not from the device.
  have hsame : ∀ failure, failure ≠ .hardware →
      (completion = .failed failure ↔ admission = .failed failure) := by
    intro failure hfailure
    rcases hending.outcome with ⟨other, hadmission, hcompletion, _⟩ | ⟨hadmission, hanswer⟩
    · rw [hadmission, hcompletion]
      constructor <;> (intro heq; cases heq; rfl)
    · rw [hadmission]
      refine ⟨fun heq => ?_, nofun⟩
      rcases hanswer with ⟨_, hcompletion⟩ | ⟨_, hcompletion⟩
      · rw [heq] at hcompletion
        cases hcompletion
      · rw [heq] at hcompletion
        cases hcompletion
        exact False.elim (hfailure rfl)
  refine ⟨?_, ?_, ?_, ?_, ?_⟩
  · rw [hsame .skipped nofun, hattempted.skipped_iff, hwithdrawn]
  · intro hnone
    rw [hsame .cannotTransmit nofun]
    exact hattempted.cannotTransmit_iff (hspared hnone)
  · intro hnone error
    rw [hsame (.mapping error) nofun]
    exact hattempted.mapping_iff hbuilt hlaid (hspared hnone) error
  · intro failure hfailure hcompletion
    have hadmission := (hsame failure hfailure).mp hcompletion
    refine hending.programs_eq.trans (hattempted.calls.2.1 ?_)
    rw [hadmission]
    nofun
  · intro hnone hallowed hmapped
    rcases hending.outcome with ⟨failure, hadmission, hcompletion, _⟩ | ⟨hadmission, hanswer⟩
    · -- The attempt failed for none of the reasons that are left.
      exfalso
      cases failure with
      | skipped => exact hnone (hwithdrawn.mp (hattempted.skipped_iff.mp hadmission))
      | cannotTransmit =>
          exact hallowed ((hattempted.cannotTransmit_iff (hspared hnone)).mp hadmission)
      | mapping error => exact hmapped error hcompletion
      | hardware => exact hattempted.ne_hardware hadmission
    · obtain ⟨list, hlist⟩ := hattempted.calls.2.2 hadmission
      refine ⟨list, polls.length, hending.programs_eq.trans hlist, ?_⟩
      unfold callsAbout
      rw [hending.statuses_eq]
      rcases hanswer with ⟨hanswer, hcompletion⟩ | ⟨hanswer, hcompletion⟩
      · exact Or.inl ⟨by rw [hanswer], hcompletion⟩
      · exact Or.inr ⟨by rw [hanswer], hcompletion⟩

/-- In every run each packet handed back is the one posted in its turn, and carries the
completion that its history calls for. -/
theorem popped_outcome {device : H} {adapter : D} {queue : Queue P H D}
    (hbuild : (build config device adapter).value = .ok queue)
    (operations : List (Operation P H D)) {cursor : Nat} {completed : CompletedPacket P}
    (hpopped : (queue.transcript operations).popped[cursor]? = some completed) :
    (queue.transcript operations).accepted[cursor]? = some completed.packet ∧
      (queue.run operations).events = (queue.course operations).flatMap Step.calls ∧
      (∀ step ∈ queue.course operations, ∀ packet list, .program packet list ∈ step.calls →
        (queue.transcript operations).accepted[step.before.ring.admitted]? = some packet) ∧
      ∃ stalls last, attemptsOf (queue.course operations) cursor = stalls ++ [last] ∧
        (∀ step ∈ stalls, step.Stalls) ∧ ¬ last.Stalls ∧
        Outcome queue.backend (queue.course operations) cursor last completed.packet
          completed.completion := by
  have hbuilt := built_of_build hbuild
  have hcourse := queue.course_run operations
  have hholds := hcourse.holds hbuilt
  rw [popped_transcript] at hpopped
  rw [accepted_transcript]
  refine ⟨?_, queue.events_run operations,
    fun step hstep packet list => hcourse.accepted_of_program hbuilt hstep, ?_⟩
  · have hpacket : ((poppedPackets (queue.course operations)).map
        CompletedPacket.packet)[cursor]? = some completed.packet := by
      rw [List.getElem?_map, hpopped]
      rfl
    obtain ⟨hbound, _⟩ := List.getElem?_eq_some_iff.mp hpopped
    rw [hholds.length_popped (hcourse.staged hbuilt.sound).ordered] at hbound
    rw [hholds.popped_eq, List.getElem?_take_of_lt hbound] at hpacket
    exact hpacket
  · obtain ⟨cancelled, hstory, hmarked⟩ := (hcourse.records hbuilt).popped cursor completed hpopped
    obtain ⟨stalls, polls, last, look, admission, hending⟩ := hstory.ending
    refine ⟨stalls, last, ?_, ?_, ?_, hcourse.outcome hbuilt hmarked hending⟩
    · rw [attemptsOf_eq_filter]
      exact hending.filter_attempts fun step hstep => (concerns_of_mem_dealings hstep).2
    · intro step hstep
      exact (hending.stalls_stalled step hstep).stalls_iff.mpr rfl
    · rw [hending.last_attempts.stalls_iff]
      exact hending.not_stalled

theorem sample_popped_outcome :
    (build sampleConfig ({} : ScriptedDevice) ({} : ScriptedAdapter)).value =
        .ok (sampleQueue {}) ∧
      ((sampleQueue {}).transcript sampleRun).popped[0]? = some ⟨samplePacket, .success⟩ ∧
      ∃ last, Outcome .delegated ((sampleQueue {}).course sampleRun) 0 last samplePacket
        .success := by
  have hbuild : (build sampleConfig ({} : ScriptedDevice) ({} : ScriptedAdapter)).value =
      .ok (sampleQueue {}) := rfl
  have hpopped : ((sampleQueue {}).transcript sampleRun).popped[0]? =
      some ⟨samplePacket, .success⟩ := rfl
  obtain ⟨_, _, _, _, last, _, _, _, houtcome⟩ := popped_outcome hbuild sampleRun hpopped
  exact ⟨hbuild, hpopped, last, houtcome⟩

end Queue

end TransmitQueue
