import TransmitQueue.Proofs.Queue.Move
import TransmitQueue.Proofs.Run

/-!
# The course of a run

The course of a run lists its indivisible steps, each with the queue before it. The
steps follow each other without a gap, from the first queue of the run to the last, and
their calls put together are the calls of the run.
-/

namespace TransmitQueue

/-- A move and the queue that makes it. -/
structure Step (P H D : Type) where
  before : Queue P H D
  move : Move P H D

variable {P H D : Type} [Packet P] [Device P H] [Adapter D]

namespace Step

def after (step : Step P H D) : Queue P H D := (step.before.move step.move).value

/-- The calls that a step makes, and the records that it logs. -/
def calls (step : Step P H D) : List (Event P) := (step.before.move step.move).events

end Step

namespace Queue

/-- Steps that lead from one queue to another without a gap. -/
inductive Course (start : Queue P H D) : List (Step P H D) → Queue P H D → Prop where
  | refl : Course start [] start
  | snoc {steps : List (Step P H D)} {queue : Queue P H D} {move : Move P H D}
      (before : Course start steps queue) (ready : queue.Ready move) :
      Course start (steps ++ [⟨queue, move⟩]) (queue.move move).value

theorem Course.single {queue : Queue P H D} {move : Move P H D} (ready : queue.Ready move) :
    Course queue [⟨queue, move⟩] (queue.move move).value := .snoc .refl ready

theorem Course.append {first middle last : Queue P H D} {steps more : List (Step P H D)}
    (hfirst : Course first steps middle) (hsecond : Course middle more last) :
    Course first (steps ++ more) last := by
  induction hsecond with
  | refl => rwa [List.append_nil]
  | snoc _ ready ih =>
      rw [← List.append_assoc]
      exact .snoc ih ready

/-- The steps of a transmit phase. -/
def transmitSteps : Nat → Queue P H D → List (Step P H D)
  | 0, _ => []
  | count + 1, queue =>
      ⟨queue, .attempt⟩ ::
        match queue.admitOldest.value with
        | (.stalled, _) => []
        | (.failed _, next) => transmitSteps count next
        | (.programmed, next) => transmitSteps count next

/-- The steps of a completion phase. -/
def completeSteps : Nat → Queue P H D → List (Step P H D)
  | 0, _ => []
  | count + 1, queue =>
      ⟨queue, .scan⟩ ::
        match queue.releaseOldest.value with
        | (none, _) => []
        | (some _, next) => completeSteps count next

/-- The queue between the two phases of an advance. -/
def flushed (queue : Queue P H D) : Queue P H D :=
  let transmission := (transmit queue.unposted queue).value
  if transmission.programmed = 0 then transmission.queue else transmission.queue.flush.value

/-- The steps of an advance. -/
def advanceSteps (queue : Queue P H D) : List (Step P H D) :=
  let transmission := (transmit queue.unposted queue).value
  transmitSteps queue.unposted queue ++
    (if transmission.programmed = 0 then [] else [⟨transmission.queue, .flush⟩]) ++
    completeSteps queue.flushed.inFlight queue.flushed

/-- The steps of a drain. -/
def drainSteps (pause : Nat) (budget : Nat) (queue : Queue P H D) : List (Step P H D) :=
  let next := queue.advance.value.2
  queue.advanceSteps ++
    if next.isIdle then []
    else if h : budget = 0 then [⟨next, .giveUp⟩]
    else ⟨next, .pause (pause + 1)⟩ :: drainSteps pause (budget - (pause + 1)) next
termination_by budget
decreasing_by omega

/-- The steps of an operation. -/
def steps (queue : Queue P H D) : Operation P H D → List (Step P H D)
  | .post packet => [⟨queue, .post packet⟩]
  | .pop => [⟨queue, .pop⟩]
  | .cancel => [⟨queue, .cancel⟩]
  | .advance => queue.advanceSteps
  | .drain interval timeout => queue.drainSteps (max interval 1 - 1) timeout
  | .resetStatistics => [⟨queue, .resetStatistics⟩]
  | .changeDevice change => [⟨queue, .changeDevice change⟩]
  | .changeAdapter change => [⟨queue, .changeAdapter change⟩]

/-- The steps of a run. -/
def course (queue : Queue P H D) : List (Operation P H D) → List (Step P H D)
  | [] => []
  | operation :: rest =>
      queue.steps operation ++ (queue.perform operation).value.2.course rest

omit [Packet P] [Device P H] [Adapter D] in
theorem ready_attempt_iff (queue : Queue P H D) : queue.Ready .attempt ↔ 0 < queue.unposted := by
  simp only [Ready, unposted, PacketRing.unposted]
  omega

omit [Packet P] [Device P H] [Adapter D] in
theorem ready_scan_iff (queue : Queue P H D) : queue.Ready .scan ↔ 0 < queue.inFlight := by
  simp only [Ready, inFlight, PacketRing.inFlight]
  omega

/-- An attempt that did not stall leaves one waiting packet less. -/
theorem unposted_admitOldest (queue : Queue P H D) (hready : queue.Ready .attempt) :
    queue.admitOldest.value.1 = .stalled ∨
      queue.admitOldest.value.2.unposted + 1 = queue.unposted := by
  have hring := queue.ring_admitOldest
  have hready : queue.ring.admitted < queue.ring.posted := hready
  cases hadmission : queue.admitOldest.value.1 with
  | stalled => exact Or.inl rfl
  | _ =>
      refine Or.inr ?_
      simp only [unposted, PacketRing.unposted, hring, hadmission, PacketRing.concluded,
        PacketRing.admitNext, PacketRing.posted_setState]
      omega

theorem course_transmit (count : Nat) (queue : Queue P H D) (hcount : count ≤ queue.unposted) :
    Course queue (transmitSteps count queue) (transmit count queue).value.queue := by
  induction count generalizing queue with
  | zero => exact .refl
  | succ count ih =>
      -- The phase tries no more packets than wait, so each attempt has one to try.
      have hready : queue.Ready .attempt :=
        queue.ready_attempt_iff.mpr (Nat.zero_lt_of_lt hcount)
      have hstep : Course queue [⟨queue, .attempt⟩] queue.admitOldest.value.2 := .single hready
      have hless := queue.unposted_admitOldest hready
      rw [transmit_succ, transmitSteps]
      rcases hanswered : queue.admitOldest with ⟨⟨admission, next⟩, calls⟩
      rw [hanswered] at hstep hless
      cases admission with
      | stalled => exact hstep
      | failed failure =>
          have hnext := hless.resolve_left Admission.noConfusion
          exact hstep.append (ih next (by dsimp only at hnext; omega))
      | programmed =>
          have hnext := hless.resolve_left Admission.noConfusion
          exact hstep.append (ih next (by dsimp only at hnext; omega))

theorem events_transmit (count : Nat) (queue : Queue P H D) :
    (transmit count queue).events = (transmitSteps count queue).flatMap Step.calls := by
  induction count generalizing queue with
  | zero => rfl
  | succ count ih =>
      have hcalls : Step.calls ⟨queue, .attempt⟩ = queue.admitOldest.events :=
        queue.events_move_attempt
      rw [transmit_succ, transmitSteps, List.flatMap_cons, hcalls]
      rcases queue.admitOldest with ⟨⟨admission, next⟩, calls⟩
      cases admission with
      | stalled => rfl
      | failed failure => rw [Traced.mk_bind, ← ih next]
      | programmed =>
          rw [Traced.mk_bind, ← ih next]
          simp only [Traced.events_bind, Traced.events_pure, List.append_nil]

omit [Packet P] in
/-- A look that released a packet leaves one packet less in flight. -/
theorem inFlight_releaseOldest (queue : Queue P H D) (hready : queue.Ready .scan) :
    queue.releaseOldest.value.1 = none ∨
      queue.releaseOldest.value.2.inFlight + 1 = queue.inFlight := by
  have hready : queue.ring.released < queue.ring.admitted := hready
  cases houtcome : queue.releaseOldest.value.1 with
  | none => exact Or.inl rfl
  | some completion =>
      refine Or.inr ?_
      simp only [inFlight, PacketRing.inFlight, queue.ring_releaseOldest houtcome,
        PacketRing.release, PacketRing.admitted_setState]
      omega

theorem course_complete (count : Nat) (queue : Queue P H D) (hcount : count ≤ queue.inFlight) :
    Course queue (completeSteps count queue) (complete count queue).value.2 := by
  induction count generalizing queue with
  | zero => exact .refl
  | succ count ih =>
      have hready : queue.Ready .scan := queue.ready_scan_iff.mpr (Nat.zero_lt_of_lt hcount)
      have hstep : Course queue [⟨queue, .scan⟩] queue.releaseOldest.value.2 := .single hready
      have hless := queue.inFlight_releaseOldest hready
      rw [complete_succ, completeSteps]
      rcases hrelease : queue.releaseOldest with ⟨⟨outcome, next⟩, calls⟩
      rw [hrelease] at hstep hless
      cases outcome with
      | none => exact hstep
      | some completion =>
          have hnext := hless.resolve_left (Option.some_ne_none _)
          exact hstep.append (ih next (by dsimp only at hnext; omega))

theorem events_complete (count : Nat) (queue : Queue P H D) :
    (complete count queue).events = (completeSteps count queue).flatMap Step.calls := by
  induction count generalizing queue with
  | zero => rfl
  | succ count ih =>
      have hcalls : Step.calls ⟨queue, .scan⟩ = queue.releaseOldest.events :=
        queue.events_move_scan
      rw [complete_succ, completeSteps, List.flatMap_cons, hcalls]
      rcases queue.releaseOldest with ⟨⟨outcome, next⟩, calls⟩
      cases outcome with
      | none => rfl
      | some completion =>
          rw [Traced.mk_bind, ← ih next]
          simp only [Traced.events_bind, Traced.events_pure, List.append_nil]

theorem value_advance (queue : Queue P H D) :
    queue.advance.value.2 = (complete queue.flushed.inFlight queue.flushed).value.2 := by
  unfold advance flushed
  dsimp only [Traced.value_bind]
  split <;> rfl

theorem course_flushed (queue : Queue P H D) :
    Course queue (transmitSteps queue.unposted queue ++
      if (transmit queue.unposted queue).value.programmed = 0 then []
        else [⟨(transmit queue.unposted queue).value.queue, .flush⟩]) queue.flushed := by
  refine (course_transmit queue.unposted queue (Nat.le_refl _)).append ?_
  unfold flushed
  dsimp only
  split
  next => exact .refl
  next =>
    have hready : (transmit queue.unposted queue).value.queue.Ready .flush := trivial
    exact .single hready

theorem course_advance (queue : Queue P H D) :
    Course queue queue.advanceSteps queue.advance.value.2 := by
  have hcompleted := course_complete queue.flushed.inFlight queue.flushed (Nat.le_refl _)
  rw [value_advance]
  exact queue.course_flushed.append hcompleted

theorem events_advance (queue : Queue P H D) :
    queue.advance.events = queue.advanceSteps.flatMap Step.calls := by
  unfold advanceSteps
  rw [List.flatMap_append, List.flatMap_append, ← events_transmit, ← events_complete]
  unfold advance flushed
  dsimp only [Traced.value_bind, Traced.events_bind]
  split
  next => simp
  next => simp [Step.calls, move]

/-- An advance with packets waiting begins with an attempt. -/
theorem attempt_mem_advanceSteps (queue : Queue P H D) (hwaiting : 0 < queue.unposted) :
    ⟨queue, .attempt⟩ ∈ queue.advanceSteps := by
  obtain ⟨count, hcount⟩ := Nat.exists_eq_add_one.mpr hwaiting
  unfold advanceSteps
  rw [hcount, List.append_assoc]
  exact .head _

theorem course_drain (pause budget : Nat) (queue : Queue P H D) :
    Course queue (drainSteps pause budget queue) (drainWithin pause budget queue).value.2 ∧
      (drainWithin pause budget queue).events =
        (drainSteps pause budget queue).flatMap Step.calls := by
  induction budget using Nat.strongRecOn generalizing queue with
  | ind budget ih =>
      have hcourse := queue.course_advance
      have hcalls := queue.events_advance
      rw [drainWithin, drainSteps]
      rcases hadvance : queue.advance with ⟨⟨summary, next⟩, calls⟩
      rw [hadvance] at hcourse hcalls
      change calls = _ at hcalls
      rw [Traced.mk_bind]
      dsimp only
      cases hidle : next.isIdle with
      | true =>
          simp only [if_true, List.append_nil, Traced.value_pure, Traced.events_pure]
          exact ⟨hcourse, hcalls⟩
      | false =>
          simp only [Bool.false_eq_true, if_false]
          -- A pause takes at least one from the budget, on which the induction is.
          split
          next hbudget =>
            have hready : next.Ready .giveUp := trivial
            refine ⟨hcourse.append (.single hready), ?_⟩
            rw [List.flatMap_append, ← hcalls]
            rfl
          next hbudget =>
            have hready : next.Ready (.pause (pause + 1)) := trivial
            obtain ⟨hrest, hmore⟩ := ih (budget - (pause + 1)) (by omega) next
            refine ⟨hcourse.append ((Course.single hready).append hrest), ?_⟩
            rw [List.flatMap_append, List.flatMap_cons, ← hcalls, ← hmore]
            rfl

theorem course_perform (queue : Queue P H D) (operation : Operation P H D) :
    Course queue (queue.steps operation) (queue.perform operation).value.2 ∧
      (queue.perform operation).events = (queue.steps operation).flatMap Step.calls := by
  have hsingle : ∀ move, queue.Ready move → queue.steps operation = [⟨queue, move⟩] →
      (queue.perform operation).value.2 = (queue.move move).value →
      (queue.perform operation).events = (queue.move move).events →
      Course queue (queue.steps operation) (queue.perform operation).value.2 ∧
        (queue.perform operation).events = (queue.steps operation).flatMap Step.calls := by
    intro move hready hsteps hvalue hcalls
    rw [hsteps, hvalue, hcalls]
    exact ⟨.single hready, (List.append_nil _).symm⟩
  cases operation with
  | post packet =>
      apply hsingle (.post packet) trivial rfl
      all_goals
        simp only [perform, move]
        cases queue.post packet <;> rfl
  | pop =>
      apply hsingle .pop trivial rfl
      all_goals
        simp only [perform, move]
        cases queue.pop? <;> rfl
  | cancel => exact hsingle .cancel trivial rfl rfl rfl
  | advance =>
      exact ⟨queue.course_advance, (List.append_nil _).trans queue.events_advance⟩
  | drain interval timeout =>
      have hdrain := course_drain (max interval 1 - 1) timeout queue
      exact ⟨hdrain.1, (List.append_nil _).trans hdrain.2⟩
  | resetStatistics => exact hsingle .resetStatistics trivial rfl rfl rfl
  | changeDevice change => exact hsingle (.changeDevice change) trivial rfl rfl rfl
  | changeAdapter change => exact hsingle (.changeAdapter change) trivial rfl rfl rfl

/-- The steps of a run lead from its first queue to its last. -/
theorem course_run (queue : Queue P H D) (operations : List (Operation P H D)) :
    Course queue (queue.course operations) (queue.after operations) := by
  induction operations generalizing queue with
  | nil => exact .refl
  | cons operation rest ih => exact (queue.course_perform operation).1.append (ih _)

/-- The steps of a run come before those of the operations that follow it. -/
theorem course_append (queue : Queue P H D) (operations more : List (Operation P H D)) :
    queue.course (operations ++ more) =
      queue.course operations ++ (queue.after operations).course more := by
  induction operations generalizing queue with
  | nil => rfl
  | cons operation rest ih =>
      rw [List.cons_append, course, course, ih, List.append_assoc]
      rfl

/-- The calls of a run are the calls of its steps. -/
theorem events_run (queue : Queue P H D) (operations : List (Operation P H D)) :
    (queue.run operations).events = (queue.course operations).flatMap Step.calls := by
  induction operations generalizing queue with
  | nil => rfl
  | cons operation rest ih =>
      rw [events_run_cons, course, List.flatMap_append, ← ih, (queue.course_perform operation).2]

end Queue

end TransmitQueue
