import TransmitQueue.Proofs.Queue.Attempt
import TransmitQueue.Proofs.Queue.Scan

/-!
# Moves

The indivisible moves of a queue: one post, one pop, one attempt at admission, one look
at the oldest packet in flight. The two phases of an advance are attempts and looks one
after another.
-/

namespace TransmitQueue

/-- What a queue does in one step. -/
inductive Move (P H D : Type) where
  | post (packet : P)
  | pop
  | cancel
  /-- An attempt to admit the oldest waiting packet. -/
  | attempt
  | flush
  /-- A look at the oldest packet in flight. -/
  | scan
  | pause (microseconds : Nat)
  | giveUp
  | resetStatistics
  | changeDevice (change : H → H)
  | changeAdapter (change : D → D)

/-- Moves that concern only the collaborators, the clock and the counters. -/
def Move.isQuiet {P H D : Type} : Move P H D → Bool
  | post _ | pop | cancel | attempt | scan => false
  | flush | pause _ | giveUp | resetStatistics | changeDevice _ | changeAdapter _ => true

namespace Queue

variable {P H D : Type} [Packet P] [Device P H] [Adapter D]

/-- Makes one move. -/
def move (queue : Queue P H D) : Move P H D → Traced P (Queue P H D)
  | .post packet =>
      match queue.post packet with
      | .ok next => pure next
      | .error _ => pure queue
  | .pop =>
      match queue.pop? with
      | some (_, next) => pure next
      | none => pure queue
  | .cancel => pure queue.cancel.2
  | .attempt => do
      let (_, next) ← queue.admitOldest
      pure next
  | .flush => queue.flush
  | .scan => do
      let (_, next) ← queue.releaseOldest
      pure next
  | .pause microseconds => do
      Traced.record (.wait microseconds)
      pure queue
  | .giveUp => do
      Traced.record (.notice (.drainTimedOut queue.outstanding))
      pure queue
  | .resetStatistics => pure queue.resetStatistics
  | .changeDevice change => pure (queue.mapDevice change)
  | .changeAdapter change => pure (queue.mapAdapter change)

/-- An attempt makes the calls of its admission, and no others. -/
theorem events_move_attempt (queue : Queue P H D) :
    (queue.move .attempt).events = queue.admitOldest.events := List.append_nil _

/-- A look makes the calls of its release, and no others. -/
theorem events_move_scan (queue : Queue P H D) :
    (queue.move .scan).events = queue.releaseOldest.events := List.append_nil _

theorem transmit_succ (count : Nat) (queue : Queue P H D) :
    transmit (count + 1) queue = (do
      let (admission, next) ← queue.admitOldest
      match admission with
      | .stalled => pure ⟨next, 0, true⟩
      | .failed _ => transmit count next
      | .programmed =>
          let rest ← transmit count next
          pure { rest with programmed := rest.programmed + 1 }) := by
  have hring := queue.ring_attempt
  rcases hattempt : queue.attempt with ⟨⟨admission, next⟩, calls⟩
  rw [hattempt] at hring
  -- A stalled attempt marks its packet under the cursor that the packet still has.
  have hadmitted : next.ring.admitted = queue.ring.admitted :=
    (congrArg PacketRing.admitted hring).trans (PacketRing.admitted_setState _ _ _)
  rw [transmit, queue.admitOldest_of_attempt hattempt, hattempt, Traced.mk_bind, Traced.mk_bind]
  cases admission with
  | programmed => rfl
  | failed failure => rfl
  | stalled =>
      simp only [conclude, PacketRing.concluded, hadmitted]

omit [Packet P] in
theorem complete_succ (count : Nat) (queue : Queue P H D) :
    complete (count + 1) queue = (do
      let (outcome, next) ← queue.releaseOldest
      match outcome with
      | none => pure (0, next)
      | some _ =>
          let (released, last) ← complete count next
          pure (released + 1, last)) := by
  unfold releaseOldest
  rw [complete]
  rcases queue.settle with ⟨⟨outcome, next⟩, calls⟩
  cases outcome with
  | none => apply Traced.ext <;> simp
  | some completion =>
      apply Traced.ext
      · rfl
      · simp only [Traced.events_bind, Traced.value_bind, Traced.events_pure, Traced.value_pure,
          List.append_nil, List.append_assoc]
        rfl

theorem ring_admitOldest (queue : Queue P H D) :
    queue.admitOldest.value.2.ring = queue.ring.concluded queue.admitOldest.value.1 := by
  have hring := queue.ring_attempt
  rcases hattempt : queue.attempt with ⟨⟨admission, next⟩, calls⟩
  rw [hattempt] at hring
  rw [queue.admitOldest_of_attempt hattempt]
  change next.ring.concluded admission = queue.ring.concluded admission
  rw [show next.ring = queue.ring.setState queue.ring.admitted .admitted from hring]
  exact queue.ring.concluded_setState _ _

/-- Whether a queue has what a move needs: a packet to admit, or one in flight. -/
def Ready (queue : Queue P H D) : Move P H D → Prop
  | .attempt => queue.ring.admitted < queue.ring.posted
  | .scan => queue.ring.released < queue.ring.admitted
  | _ => True

/-- The ways in which a move goes on a queue whose window holds packets. Moves that
concern only the collaborators, the clock and the counters are not told apart. -/
inductive Moved (queue : Queue P H D) : Move P H D → Queue P H D → Prop where
  | posted (packet : P) (ring : PacketRing P) (hpost : queue.ring.post packet = .ok ring) :
      Moved queue (.post packet) { queue with ring := ring }
  | rejected (packet : P) (hfull : queue.ring.isFull = true) :
      Moved queue (.post packet) queue
  | popped (completed : CompletedPacket P) (ring : PacketRing P)
      (hpop : queue.ring.pop? = some (completed, ring)) :
      Moved queue .pop { queue with ring := ring }
  | nothingPopped (hpop : queue.ring.pop? = none) : Moved queue .pop queue
  | cancelled : Moved queue .cancel { queue with ring := queue.ring.cancelUnposted.2 }
  | admitted (packet : P) (admission : Admission) (calls : List (Event P)) (next : Queue P H D)
      (hready : queue.ring.admitted < queue.ring.posted)
      (hpacket : (queue.ring.slot queue.ring.admitted).packet = some packet)
      (hanswered : queue.admitOldest = ⟨(admission, next), calls⟩)
      (hattempted : Attempted queue packet admission calls next) :
      Moved queue .attempt next
  | scanned (packet : P) (outcome : Option Completion) (calls : List (Event P))
      (next : Queue P H D) (hready : queue.ring.released < queue.ring.admitted)
      (hpacket : (queue.ring.slot queue.ring.released).packet = some packet)
      (hrelease : queue.releaseOldest = ⟨(outcome, next), calls⟩)
      (hscanned : Scanned queue packet outcome calls next) :
      Moved queue .scan next
  | quiet (move : Move P H D) (device : H) (adapter : D) (statistics : Statistics)
      (hquiet : move.isQuiet = true) :
      Moved queue move
        { queue with device := device, adapter := adapter, statistics := statistics }

theorem moved_post (queue : Queue P H D) (packet : P) :
    Moved queue (.post packet) (queue.move (.post packet)).value := by
  simp only [move, post]
  cases hpost : queue.ring.post packet with
  | ok ring => exact .posted packet ring hpost
  | error rejected =>
      refine .rejected packet ?_
      unfold PacketRing.post at hpost
      split at hpost
      next hfull => exact hfull
      next => cases hpost

theorem moved_pop (queue : Queue P H D) : Moved queue .pop (queue.move .pop).value := by
  simp only [move, pop?]
  cases hpop : queue.ring.pop? with
  | none => exact .nothingPopped hpop
  | some popped => exact .popped popped.1 popped.2 hpop

/-- Every move goes one of the ways listed. -/
theorem moved_move (queue : Queue P H D) {move : Move P H D} (hready : queue.Ready move)
    (hawaits : queue.Ready .attempt → ∃ packet, queue.Awaits packet)
    (hheld : queue.Ready .scan →
      ∃ packet, (queue.ring.slot queue.ring.released).packet = some packet) :
    Moved queue move (queue.move move).value := by
  cases move with
  | post packet => exact queue.moved_post packet
  | pop => exact queue.moved_pop
  | cancel => exact .cancelled
  | attempt =>
      obtain ⟨packet, hawaits⟩ := hawaits hready
      exact .admitted packet _ _ _ hready hawaits.packet_eq rfl
        (queue.attempted_admitOldest hawaits)
  | scan =>
      obtain ⟨packet, hpacket⟩ := hheld hready
      exact .scanned packet _ _ _ hready hpacket rfl (queue.scanned_releaseOldest hpacket)
  | flush => exact .quiet .flush _ _ _ rfl
  | pause microseconds => exact .quiet (.pause microseconds) _ _ _ rfl
  | giveUp => exact .quiet .giveUp _ _ _ rfl
  | resetStatistics => exact .quiet .resetStatistics _ _ _ rfl
  | changeDevice change => exact .quiet (.changeDevice change) _ _ _ rfl
  | changeAdapter change => exact .quiet (.changeAdapter change) _ _ _ rfl

end Queue

end TransmitQueue
