import TransmitQueue.Proofs.Course
import TransmitQueue.Proofs.Queue.Layout

/-!
# Invariants of a course

Every queue that a course passes through holds packets in the stages of its ring, with a
context for every slot, and is laid out as the first one. With these facts a further
invariant needs one case for each way in which a move goes.
-/

namespace TransmitQueue

/-- The state that an attempt leaves its packet in. -/
def Queue.Admission.state : Queue.Admission → PacketState
  | programmed => .programmed
  | failed failure => .completed (.failed failure)
  | stalled => .unposted

/-- The state that a look leaves its packet in. -/
def PacketState.afterScan : Option Completion → PacketState
  | none => completionPending
  | some completion => released completion

namespace PacketRing

variable {P : Type} (ring : PacketRing P) (admission : Queue.Admission)

@[simp] theorem taken_concluded : (ring.concluded admission).taken = ring.taken := by
  cases admission <;> rfl

@[simp] theorem released_concluded : (ring.concluded admission).released = ring.released := by
  cases admission <;> rfl

@[simp] theorem posted_concluded : (ring.concluded admission).posted = ring.posted := by
  cases admission <;> rfl

theorem admitted_concluded (hpassed : admission ≠ .stalled) :
    (ring.concluded admission).admitted = ring.admitted + 1 := by
  cases admission with
  | stalled => exact False.elim (hpassed rfl)
  | _ => rfl

theorem admitted_le_concluded : ring.admitted ≤ (ring.concluded admission).admitted := by
  cases admission with
  | stalled => exact Nat.le_refl _
  | _ => exact Nat.le_succ _

theorem concluded_admitted_le : (ring.concluded admission).admitted ≤ ring.admitted + 1 := by
  cases admission with
  | stalled => exact Nat.le_succ _
  | _ => exact Nat.le_refl _

/-- The ring after a look at the oldest packet in flight. -/
def scanned : Option Completion → PacketRing P
  | none => ring.setState ring.released .completionPending
  | some completion => ring.release completion

variable (outcome : Option Completion)

@[simp] theorem capacity_scanned : (ring.scanned outcome).capacity = ring.capacity := by
  cases outcome with
  | none => exact ring.capacity_setState _ _
  | some completion => exact ring.capacity_release completion

@[simp] theorem taken_scanned : (ring.scanned outcome).taken = ring.taken := by
  cases outcome <;> rfl

@[simp] theorem posted_scanned : (ring.scanned outcome).posted = ring.posted := by
  cases outcome <;> rfl

end PacketRing

namespace PacketRing.Staged

variable {P : Type} {ring : PacketRing P} (hring : ring.Staged)
include hring

/-- A stalled packet is left as it was found. -/
theorem concluded_stalled (hready : ring.admitted < ring.posted) : ring.concluded .stalled = ring :=
  setState_self (hring.waiting ring.admitted (Nat.le_refl _) hready)

/-- An attempt changes the state of its packet, and nothing else in the window. -/
theorem slot_concluded (hready : ring.admitted < ring.posted) (admission : Queue.Admission)
    {other : Nat} (hlow : ring.taken ≤ other) (hhigh : other < ring.posted) :
    (ring.concluded admission).slot other =
      if other = ring.admitted then { ring.slot other with state := admission.state }
      else ring.slot other := by
  cases admission with
  | programmed => exact hring.ordered.slot_admitNext _ hready ⟨hlow, hhigh⟩
  | failed failure => exact hring.ordered.slot_admitNext _ hready ⟨hlow, hhigh⟩
  | stalled =>
      have hfirst := Nat.le_trans hring.ordered.taken_le hring.ordered.released_le
      exact hring.ordered.slot_setState _ ⟨hfirst, hready⟩ ⟨hlow, hhigh⟩

theorem concluded (hready : ring.admitted < ring.posted) (admission : Queue.Admission) :
    (ring.concluded admission).Staged := by
  cases admission with
  | programmed => exact hring.admitNext hready rfl
  | failed failure => exact hring.admitNext hready rfl
  | stalled =>
      rw [hring.concluded_stalled hready]
      exact hring

/-- A look changes the state of its packet, and nothing else in the window. -/
theorem slot_scanned (hbusy : ring.released < ring.admitted) (outcome : Option Completion)
    {other : Nat} (hlow : ring.taken ≤ other) (hhigh : other < ring.posted) :
    (ring.scanned outcome).slot other =
      if other = ring.released then { ring.slot other with state := .afterScan outcome }
      else ring.slot other := by
  have hadmitted := hring.ordered.admitted_le
  cases outcome with
  | none =>
      exact hring.ordered.slot_setState _ ⟨hring.ordered.taken_le, by omega⟩ ⟨hlow, hhigh⟩
  | some completion => exact hring.ordered.slot_release completion hbusy ⟨hlow, hhigh⟩

theorem scanned (hbusy : ring.released < ring.admitted) (outcome : Option Completion) :
    (ring.scanned outcome).Staged := by
  cases outcome with
  | none => exact hring.setPending hbusy
  | some completion => exact hring.release completion hbusy

end PacketRing.Staged

namespace Queue

variable {P H D : Type} [Packet P] [Device P H] [Adapter D] {start queue next last : Queue P H D}

theorem Attempted.ring_eq {packet : P} {admission : Admission} {calls : List (Event P)}
    (hattempted : Attempted queue packet admission calls next) :
    next.ring = queue.ring.concluded admission := by
  cases hattempted <;> rfl

omit [Packet P] in
theorem Scanned.ring_eq {packet : P} {outcome : Option Completion} {calls : List (Event P)}
    (hscanned : Scanned queue packet outcome calls next) :
    next.ring = queue.ring.scanned outcome := by
  cases outcome with
  | none =>
      cases hscanned
      rfl
  | some completion => exact hscanned.ring_of_released

/-- The stages of a ring outlive every move. -/
theorem Moved.staged {move : Move P H D} (hmoved : Moved queue move next)
    (hstaged : queue.ring.Staged) : next.ring.Staged := by
  cases hmoved with
  | posted packet ring hpost => exact hstaged.post hpost
  | rejected => exact hstaged
  | popped completed ring hpop => exact hstaged.pop hpop
  | nothingPopped => exact hstaged
  | cancelled => exact hstaged.cancelUnposted
  | admitted packet admission calls _ hready _ _ hattempted =>
      rw [hattempted.ring_eq]
      exact hstaged.concluded hready admission
  | scanned packet outcome calls _ hready _ _ hscanned =>
      rw [hscanned.ring_eq]
      exact hstaged.scanned hready outcome
  | quiet => exact hstaged

namespace Sound

variable (hsound : queue.Sound)
include hsound

theorem moved {move : Move P H D} (hready : queue.Ready move) :
    Moved queue move (queue.move move).value := by
  have hordered := hsound.staged.ordered
  refine queue.moved_move hready hsound.exists_awaits fun hbusy => ?_
  exact hsound.staged.occupied _ hordered.taken_le (Nat.lt_of_lt_of_le hbusy hordered.admitted_le)

theorem of_moved {move : Move P H D} (hmoved : Moved queue move next) : next.Sound :=
  hsound.of_sameSize (hmoved.staged hsound.staged) hmoved.sameSize

end Sound

namespace Course

variable {steps : List (Step P H D)}

theorem sound (hcourse : Course start steps last) (hstart : start.Sound) : last.Sound := by
  induction hcourse with
  | refl => exact hstart
  | snoc before ready ih => exact ih.of_moved (ih.moved ready)

theorem staged (hcourse : Course start steps last) (hstart : start.Sound) : last.ring.Staged :=
  (hcourse.sound hstart).staged

/-- What holds at the start and outlives every move holds along a course. -/
theorem invariant (hcourse : Course start steps last)
    (Holds : List (Step P H D) → Queue P H D → Prop) (hstart : start.Sound)
    (hrefl : Holds [] start)
    (hstep : ∀ steps queue move next, Course start steps queue → queue.ring.Staged →
      Step.after ⟨queue, move⟩ = next → Moved queue move next → Holds steps queue →
      Holds (steps ++ [⟨queue, move⟩]) next) : Holds steps last := by
  induction hcourse with
  | refl => exact hrefl
  | snoc before ready ih =>
      have hsound := before.sound hstart
      exact hstep _ _ _ _ before hsound.staged rfl (hsound.moved ready) ih

theorem laidOut {config : Config} (hcourse : Course start steps last)
    (hbuilt : Built config start) : LaidOut start last :=
  hcourse.invariant (fun _ queue => LaidOut start queue) hbuilt.sound hbuilt.laidOut
    fun _ _ _ _ _ _ _ hmoved hlaid => hlaid.moved hmoved

/-- A step of a course comes after a course and before another one. -/
theorem split (hcourse : Course start steps last) {earlier later : List (Step P H D)}
    {step : Step P H D} (hsteps : steps = earlier ++ step :: later) :
    Course start earlier step.before ∧ step.before.Ready step.move ∧
      Course step.after later last := by
  induction hcourse generalizing later with
  | refl =>
      have hlength := congrArg List.length hsteps
      rw [List.length_append, List.length_cons] at hlength
      exact absurd hlength.symm (Nat.succ_ne_zero _)
  | @snoc steps queue move before ready ih =>
      -- The last step of the course is the one sought, or the last of those after it.
      rcases List.eq_nil_or_concat later with rfl | ⟨rest, final, rfl⟩
      · obtain ⟨rfl, hlast⟩ := List.append_inj' hsteps rfl
        obtain rfl := List.head_eq_of_cons_eq hlast
        exact ⟨before, ready, .refl⟩
      · rw [List.concat_eq_append, ← List.cons_append, ← List.append_assoc] at hsteps
        obtain ⟨hfirst, hlast⟩ := List.append_inj' hsteps rfl
        obtain rfl := List.head_eq_of_cons_eq hlast
        obtain ⟨hearlier, hready, hmore⟩ := ih hfirst
        rw [List.concat_eq_append]
        exact ⟨hearlier, hready, hmore.snoc ready⟩

theorem exists_of_mem (hcourse : Course start steps last) {step : Step P H D}
    (hstep : step ∈ steps) : ∃ earlier later, steps = earlier ++ step :: later ∧
      Course start earlier step.before ∧ step.before.Ready step.move ∧
      Course step.after later last := by
  obtain ⟨earlier, later, hsteps⟩ := List.append_of_mem hstep
  exact ⟨earlier, later, hsteps, hcourse.split hsteps⟩

end Course

end Queue

end TransmitQueue
