import TransmitQueue.Queue.Drain

/-!
# Runs

A run is a sequence of operations that a caller performs on a queue. Between two
operations the device and the adapter may change in any way, so a run covers
every script of the collaborators and every change to it.
-/

namespace TransmitQueue

/-- What a caller does with a queue. -/
inductive Operation (P H D : Type) where
  | post (packet : P)
  | pop
  | cancel
  | advance
  | drain (interval timeout : Nat)
  | resetStatistics
  | changeDevice (change : H → H)
  | changeAdapter (change : D → D)

/-- What the caller is told. -/
inductive Answer (P : Type) where
  /-- The packet that a full ring handed back, if the ring was full. -/
  | posted (rejected : Option P)
  | popped (packet : Option (CompletedPacket P))
  | cancelled (count : Nat)
  | advanced (summary : AdvanceSummary)
  | drained (outcome : Except IoError Unit)
  | done

/-- The operations of a run in order, each with its answer. -/
abbrev Transcript (P H D : Type) := List (Operation P H D × Answer P)

namespace Transcript

variable {P H D : Type}

/-- The packets that were accepted, in the order of posting. -/
def accepted (transcript : Transcript P H D) : List P :=
  transcript.filterMap fun
    | (.post packet, .posted none) => some packet
    | _ => none

/-- The packets that were handed back after their release, in the order of popping. -/
def popped (transcript : Transcript P H D) : List (CompletedPacket P) :=
  transcript.filterMap fun
    | (_, .popped packet) => packet
    | _ => none

end Transcript

namespace Queue

variable {P H D : Type} [Packet P] [Device P H] [Adapter D]

/-- Performs one operation. -/
def perform (queue : Queue P H D) : Operation P H D → Traced P (Answer P × Queue P H D)
  | .post packet =>
      match queue.post packet with
      | .ok next => pure (.posted none, next)
      | .error packet => pure (.posted (some packet), queue)
  | .pop =>
      match queue.pop? with
      | some (packet, next) => pure (.popped (some packet), next)
      | none => pure (.popped none, queue)
  | .cancel => pure (.cancelled queue.cancel.1, queue.cancel.2)
  | .advance => do
      let (summary, next) ← queue.advance
      pure (.advanced summary, next)
  | .drain interval timeout => do
      let (outcome, next) ← queue.drain interval timeout
      pure (.drained outcome, next)
  | .resetStatistics => pure (.done, queue.resetStatistics)
  | .changeDevice change => pure (.done, queue.mapDevice change)
  | .changeAdapter change => pure (.done, queue.mapAdapter change)

/-- Performs operations one after another. -/
def run (queue : Queue P H D) :
    List (Operation P H D) → Traced P (Transcript P H D × Queue P H D)
  | [] => pure ([], queue)
  | operation :: rest => do
      let (answer, next) ← queue.perform operation
      let (transcript, last) ← next.run rest
      pure ((operation, answer) :: transcript, last)

/-- The queue at the end of a run. -/
def after (queue : Queue P H D) (operations : List (Operation P H D)) : Queue P H D :=
  (queue.run operations).value.2

/-- What a caller sees of a run. -/
def transcript (queue : Queue P H D) (operations : List (Operation P H D)) :
    Transcript P H D :=
  (queue.run operations).value.1

@[simp] theorem transcript_cons (queue : Queue P H D) (operation : Operation P H D)
    (rest : List (Operation P H D)) :
    queue.transcript (operation :: rest) =
      (operation, (queue.perform operation).value.1) ::
        (queue.perform operation).value.2.transcript rest := rfl

@[simp] theorem after_cons (queue : Queue P H D) (operation : Operation P H D)
    (rest : List (Operation P H D)) :
    queue.after (operation :: rest) = (queue.perform operation).value.2.after rest := rfl

theorem operation_mem_of_mem_transcript {queue : Queue P H D} {operations : List (Operation P H D)}
    {entry : Operation P H D × Answer P} (hentry : entry ∈ queue.transcript operations) :
    entry.1 ∈ operations := by
  induction operations generalizing queue with
  | nil => exact absurd hentry List.not_mem_nil
  | cons operation rest ih =>
      rw [transcript_cons] at hentry
      rcases List.mem_cons.mp hentry with rfl | hlater
      · exact List.mem_cons_self
      · exact List.mem_cons_of_mem _ (ih hlater)

@[simp] theorem events_run_cons (queue : Queue P H D) (operation : Operation P H D)
    (rest : List (Operation P H D)) :
    (queue.run (operation :: rest)).events =
      (queue.perform operation).events ++
        ((queue.perform operation).value.2.run rest).events := by
  simp [run]

section Append

variable (queue : Queue P H D) (operations more : List (Operation P H D))

theorem after_append :
    queue.after (operations ++ more) = (queue.after operations).after more := by
  induction operations generalizing queue with
  | nil => rfl
  | cons operation rest ih => exact ih (queue.perform operation).value.2

theorem transcript_append :
    queue.transcript (operations ++ more) =
      queue.transcript operations ++ (queue.after operations).transcript more := by
  induction operations generalizing queue with
  | nil => rfl
  | cons operation rest ih => exact congrArg _ (ih (queue.perform operation).value.2)

theorem events_run_append :
    (queue.run (operations ++ more)).events =
      (queue.run operations).events ++ ((queue.after operations).run more).events := by
  induction operations generalizing queue with
  | nil => rfl
  | cons operation rest ih =>
      rw [List.cons_append, events_run_cons, events_run_cons, ih, List.append_assoc]
      rfl

end Append

end Queue

end TransmitQueue
