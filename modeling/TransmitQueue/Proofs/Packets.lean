import TransmitQueue.Proofs.Course

/-!
# The packets of a course

Which packets the steps of a course add to the queue and which they hand back. A caller
is told of exactly these: an advance and a drain neither take nor give a packet.
-/

namespace TransmitQueue

/-- Moves that an advance or a drain makes. -/
def Move.isInternal {P H D : Type} : Move P H D → Bool
  | attempt | flush | scan | pause _ | giveUp => true
  | post _ | pop | cancel | resetStatistics | changeDevice _ | changeAdapter _ => false

/-- The operation that consists of a move. -/
def Move.operation? {P H D : Type} : Move P H D → Option (Operation P H D)
  | post packet => some (.post packet)
  | pop => some .pop
  | cancel => some .cancel
  | resetStatistics => some .resetStatistics
  | changeDevice change => some (.changeDevice change)
  | changeAdapter change => some (.changeAdapter change)
  | attempt | flush | scan | pause _ | giveUp => none

theorem Move.operation?_of_internal {P H D : Type} {move : Move P H D}
    (hmove : move.isInternal = true) : move.operation? = none := by
  cases move with
  | attempt | flush | scan | pause | giveUp => rfl
  | post | pop | cancel | resetStatistics | changeDevice | changeAdapter => cases hmove

namespace Step

variable {P H D : Type}

/-- The packet that a step adds to the queue. -/
def accepted? (step : Step P H D) : Option P :=
  match step.move with
  | .post packet => if step.before.ring.isFull then none else some packet
  | _ => none

/-- The packet that a step hands back. -/
def popped? (step : Step P H D) : Option (CompletedPacket P) :=
  match step.move with
  | .pop => step.before.ring.pop?.map Prod.fst
  | _ => none

theorem accepted?_of_internal {step : Step P H D} (hmove : step.move.isInternal = true) :
    step.accepted? = none := by
  unfold accepted?
  split
  next heq =>
    rw [heq] at hmove
    cases hmove
  next => rfl

theorem popped?_of_internal {step : Step P H D} (hmove : step.move.isInternal = true) :
    step.popped? = none := by
  unfold popped?
  split
  next heq =>
    rw [heq] at hmove
    cases hmove
  next => rfl

end Step

section Concat

variable {α β : Type} {choose : α → Option β} {items : List α} {last : α}

theorem filterMap_concat_of_none (hlast : choose last = none) :
    (items ++ [last]).filterMap choose = items.filterMap choose := by
  rw [List.filterMap_append, List.filterMap_cons_none hlast, List.filterMap_nil, List.append_nil]

theorem filterMap_concat_of_some {chosen : β} (hlast : choose last = some chosen) :
    (items ++ [last]).filterMap choose = items.filterMap choose ++ [chosen] := by
  rw [List.filterMap_append, List.filterMap_cons_some hlast, List.filterMap_nil]

theorem filterMap_concat :
    (items ++ [last]).filterMap choose = items.filterMap choose ++ (choose last).toList := by
  cases hlast : choose last with
  | none => rw [filterMap_concat_of_none hlast, Option.toList_none, List.append_nil]
  | some chosen => rw [filterMap_concat_of_some hlast, Option.toList_some]

end Concat

variable {P H D : Type}

/-- The packets that steps add to the queue, in order. -/
def acceptedPackets (steps : List (Step P H D)) : List P := steps.filterMap Step.accepted?

/-- The packets that steps hand back, in order. -/
def poppedPackets (steps : List (Step P H D)) : List (CompletedPacket P) :=
  steps.filterMap Step.popped?

theorem acceptedPackets_append (first second : List (Step P H D)) :
    acceptedPackets (first ++ second) = acceptedPackets first ++ acceptedPackets second :=
  List.filterMap_append

theorem poppedPackets_append (first second : List (Step P H D)) :
    poppedPackets (first ++ second) = poppedPackets first ++ poppedPackets second :=
  List.filterMap_append

namespace Queue

variable [Packet P] [Device P H] [Adapter D]

theorem internal_transmitSteps (count : Nat) (queue : Queue P H D) :
    ∀ step ∈ transmitSteps count queue, step.move.isInternal = true := by
  induction count generalizing queue with
  | zero => exact nofun
  | succ count ih =>
      intro step hstep
      unfold transmitSteps at hstep
      rcases List.mem_cons.mp hstep with rfl | hrest
      · rfl
      · split at hrest
        next => cases hrest
        next => exact ih _ step hrest
        next => exact ih _ step hrest

omit [Packet P] in
theorem internal_completeSteps (count : Nat) (queue : Queue P H D) :
    ∀ step ∈ completeSteps count queue, step.move.isInternal = true := by
  induction count generalizing queue with
  | zero => exact nofun
  | succ count ih =>
      intro step hstep
      unfold completeSteps at hstep
      rcases List.mem_cons.mp hstep with rfl | hrest
      · rfl
      · split at hrest
        next => cases hrest
        next => exact ih _ step hrest

theorem internal_advanceSteps (queue : Queue P H D) :
    ∀ step ∈ queue.advanceSteps, step.move.isInternal = true := by
  intro step hstep
  unfold advanceSteps at hstep
  rcases List.mem_append.mp hstep with hfirst | hcompleted
  · rcases List.mem_append.mp hfirst with hsent | hflushed
    · exact internal_transmitSteps _ _ step hsent
    · split at hflushed
      next => cases hflushed
      next =>
        obtain rfl := List.mem_singleton.mp hflushed
        rfl
  · exact internal_completeSteps _ _ step hcompleted

theorem internal_drainSteps (pause budget : Nat) (queue : Queue P H D) :
    ∀ step ∈ drainSteps pause budget queue, step.move.isInternal = true := by
  induction budget using Nat.strongRecOn generalizing queue with
  | ind budget ih =>
      intro step hstep
      unfold drainSteps at hstep
      rcases List.mem_append.mp hstep with hadvanced | hrest
      · exact queue.internal_advanceSteps step hadvanced
      · split at hrest
        next => cases hrest
        next =>
          split at hrest
          next =>
            obtain rfl := List.mem_singleton.mp hrest
            rfl
          next =>
            rcases List.mem_cons.mp hrest with rfl | hlater
            · rfl
            · exact ih _ (by omega) _ step hlater

/-- What an advance or a drain does not do by itself was done by the caller of the run. -/
theorem operation_mem_of_mem_course {queue : Queue P H D} {operations : List (Operation P H D)}
    {step : Step P H D} {operation : Operation P H D} (hstep : step ∈ queue.course operations)
    (hmove : step.move.operation? = some operation) : operation ∈ operations := by
  have hnot : ∀ steps : List (Step P H D), (∀ other ∈ steps, other.move.isInternal = true) →
      step ∉ steps := by
    intro steps hinternal hmember
    rw [Move.operation?_of_internal (hinternal step hmember)] at hmove
    cases hmove
  induction operations generalizing queue with
  | nil => cases hstep
  | cons first rest ih =>
      rcases List.mem_append.mp hstep with hfirst | hrest
      · cases first with
        | advance => exact absurd hfirst (hnot _ queue.internal_advanceSteps)
        | drain interval timeout => exact absurd hfirst (hnot _ (internal_drainSteps _ _ queue))
        | _ =>
            obtain rfl := List.mem_singleton.mp hfirst
            obtain rfl := Option.some.inj hmove
            exact List.mem_cons_self
      · exact List.mem_cons_of_mem _ (ih hrest)

omit [Packet P] [Device P H] [Adapter D] in
theorem packets_of_internal {steps : List (Step P H D)}
    (hinternal : ∀ step ∈ steps, step.move.isInternal = true) :
    acceptedPackets steps = [] ∧ poppedPackets steps = [] :=
  ⟨List.filterMap_eq_nil_iff.mpr fun step hstep =>
      Step.accepted?_of_internal (hinternal step hstep),
    List.filterMap_eq_nil_iff.mpr fun step hstep =>
      Step.popped?_of_internal (hinternal step hstep)⟩

/-- What a caller is told of one operation is what its steps did. -/
theorem transcript_perform (queue : Queue P H D) (operation : Operation P H D) :
    Transcript.accepted [(operation, (queue.perform operation).value.1)] =
        acceptedPackets (queue.steps operation) ∧
      Transcript.popped [(operation, (queue.perform operation).value.1)] =
        poppedPackets (queue.steps operation) := by
  cases operation with
  | post packet =>
      simp only [perform, post, steps, PacketRing.post, Transcript.accepted, Transcript.popped,
        acceptedPackets, poppedPackets, List.filterMap_cons, List.filterMap_nil, Step.accepted?,
        Step.popped?]
      cases queue.ring.isFull <;> exact ⟨rfl, rfl⟩
  | pop =>
      simp only [perform, pop?, steps, Transcript.accepted, Transcript.popped, acceptedPackets,
        poppedPackets, List.filterMap_cons, List.filterMap_nil, Step.accepted?, Step.popped?]
      cases queue.ring.pop? <;> exact ⟨trivial, rfl⟩
  | advance =>
      obtain ⟨haccepted, hpopped⟩ := packets_of_internal queue.internal_advanceSteps
      exact ⟨haccepted.symm, hpopped.symm⟩
  | drain interval timeout =>
      obtain ⟨haccepted, hpopped⟩ :=
        packets_of_internal (internal_drainSteps (max interval 1 - 1) timeout queue)
      exact ⟨haccepted.symm, hpopped.symm⟩
  | cancel | resetStatistics | changeDevice | changeAdapter => exact ⟨rfl, rfl⟩

theorem accepted_transcript (queue : Queue P H D) (operations : List (Operation P H D)) :
    (queue.transcript operations).accepted = acceptedPackets (queue.course operations) := by
  induction operations generalizing queue with
  | nil => rfl
  | cons operation rest ih =>
      rw [course, acceptedPackets_append, ← ih, ← (queue.transcript_perform operation).1,
        transcript_cons]
      exact List.filterMap_append (l := [(operation, (queue.perform operation).value.1)])

theorem popped_transcript (queue : Queue P H D) (operations : List (Operation P H D)) :
    (queue.transcript operations).popped = poppedPackets (queue.course operations) := by
  induction operations generalizing queue with
  | nil => rfl
  | cons operation rest ih =>
      rw [course, poppedPackets_append, ← ih, ← (queue.transcript_perform operation).2,
        transcript_cons]
      exact List.filterMap_append (l := [(operation, (queue.perform operation).value.1)])

end Queue

end TransmitQueue
