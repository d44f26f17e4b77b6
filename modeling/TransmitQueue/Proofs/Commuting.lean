import TransmitQueue.Proofs.Queue.Layout
import TransmitQueue.Proofs.Simulation
import TransmitQueue.Proofs.Vacating

/-!
# Pops commute with everything else

A caller can take a released packet back now or later. The moves of the queue read nothing of
the ring but the slot under their own cursor, which is not the slot of a released packet, so
they answer alike, make the same calls, and leave the same queue.
-/

namespace TransmitQueue.Queue

variable {P H D : Type}

section Blind

/-- A queue that differs from another one in its ring. -/
def Reringed (ring : PacketRing P) (queue other : Queue P H D) : Prop :=
  other = { queue with ring := ring }

/-- Two looks at a packet whose outcomes agree, each on its own ring. -/
inductive SettledAlike (queue : Queue P H D) (ring : PacketRing P) :
    Option Completion × Queue P H D → Option Completion × Queue P H D → Prop where
  | pending (next : Queue P H D) :
      SettledAlike queue ring (none, next) (none, { next with ring := ring.scanned none })
  | settled (completion : Completion) (next : Queue P H D) (hring : next.ring = queue.ring) :
      SettledAlike queue ring (some completion, next) (some completion, { next with ring := ring })

/-- The mark of an attempt in progress is gone from both rings when the attempt has ended. -/
theorem Agreed.conclude {ring : PacketRing P} {left right : Admission × Queue P H D}
    (hagreed : Agreed (Reringed (ring.setState ring.admitted .admitted)) left right) :
    (right.1, right.2.conclude right.1) =
      (left.1, { left.2.conclude left.1 with ring := ring.concluded left.1 }) := by
  obtain ⟨admission, next⟩ := left
  obtain ⟨answer, follower⟩ := right
  obtain ⟨hanswer, hnext⟩ := hagreed
  obtain rfl : answer = admission := hanswer
  obtain rfl : follower = _ := hnext
  unfold Queue.conclude
  dsimp only
  rw [ring.concluded_setState]

variable [Packet P] [Device P H] [Adapter D] (queue : Queue P H D) (ring : PacketRing P)

/-- The way that a decision names does not lead through the ring. -/
theorem similar_pursue (position : Nat) (packet : P) (decision : BounceDecision) :
    Traced.Similar (fun _ => true) (Agreed (Reringed ring))
      (queue.pursue position packet decision)
      (({ queue with ring := ring } : Queue P H D).pursue position packet decision) := by
  let other : Queue P H D := { queue with ring := ring }
  cases decision with
  | cannotTransmit => exact ⟨⟨rfl, rfl⟩, rfl⟩
  | transmitAfterBouncing =>
      change Traced.Similar _ _ (queue.admitBounced position packet)
        (other.admitBounced position packet)
      rcases hbounce : queue.pool.bounce packet with ⟨error | list, pool⟩
      · cases hexhausted : error.isExhaustion with
        | true =>
            rw [queue.admitBounced_of_exhausted position hbounce hexhausted,
              other.admitBounced_of_exhausted position hbounce hexhausted]
            exact ⟨⟨rfl, rfl⟩, rfl⟩
        | false =>
            rw [queue.admitBounced_of_failed position hbounce hexhausted,
              other.admitBounced_of_failed position hbounce hexhausted]
            exact ⟨⟨rfl, rfl⟩, rfl⟩
      · rw [queue.admitBounced_of_ok position hbounce, other.admitBounced_of_ok position hbounce]
        exact ⟨⟨rfl, rfl⟩, rfl⟩
  | transmitInPlace =>
      change Traced.Similar _ _ (queue.admitInPlace position packet)
        (other.admitInPlace position packet)
      rcases hmapping : queue.mapper.map position packet (queue.context position).list
        queue.adapter with ⟨mapping, calls⟩
      cases hanswer : mapping.answer with
      | ok list =>
          rw [queue.admitInPlace_of_ok position hmapping hanswer,
            other.admitInPlace_of_ok position hmapping hanswer]
          exact ⟨⟨rfl, rfl⟩, rfl⟩
      | error error =>
          cases hexhausted : error.isExhaustion with
          | true =>
              rw [queue.admitInPlace_of_exhausted position hmapping hanswer hexhausted,
                other.admitInPlace_of_exhausted position hmapping hanswer hexhausted]
              exact ⟨⟨rfl, rfl⟩, rfl⟩
          | false =>
              rw [queue.admitInPlace_of_failed position hmapping hanswer hexhausted,
                other.admitInPlace_of_failed position hmapping hanswer hexhausted]
              exact ⟨⟨rfl, rfl⟩, rfl⟩

omit [Packet P] [Device P H] in
theorem similar_returnResources (position : Nat) :
    Traced.Similar (fun _ => true) (Reringed ring)
      (queue.returnResources position : Traced P _)
      (({ queue with ring := ring } : Queue P H D).returnResources position) := by
  let other : Queue P H D := { queue with ring := ring }
  change Traced.Similar _ _ _ (other.returnResources position)
  cases hmapped : (queue.context position).dmaMapped with
  | false =>
      rw [queue.returnResources_of_unmapped hmapped, other.returnResources_of_unmapped hmapped,
        queue.returnBuffer_of_unmapped hmapped, other.returnBuffer_of_unmapped hmapped]
      exact .pure rfl
  | true =>
      rcases hunmap : (queue.mapper.unmap position (queue.context position).list queue.adapter :
        Traced P _) with ⟨⟨mapper, list, adapter⟩, calls⟩
      rw [queue.returnResources_of_mapped hmapped hunmap,
        other.returnResources_of_mapped hmapped hunmap]
      exact ⟨rfl, rfl⟩

/-- An attempt reads nothing of the ring but the slot of its packet. -/
theorem similar_admitOldest {packet : P}
    (hpacket : (queue.ring.slot queue.ring.admitted).packet = some packet)
    (hcapacity : ring.capacity = queue.ring.capacity)
    (hadmitted : ring.admitted = queue.ring.admitted)
    (hslot : ring.slot queue.ring.admitted = queue.ring.slot queue.ring.admitted) :
    Traced.Similar (fun _ => true)
      (fun left right => right = (left.1, { left.2 with ring := ring.concluded left.1 }))
      queue.admitOldest ({ queue with ring := ring } : Queue P H D).admitOldest := by
  let other : Queue P H D := { queue with ring := ring }
  have hslot : other.ring.slot other.ring.admitted = queue.ring.slot queue.ring.admitted :=
    (congrArg ring.slot hadmitted).trans hslot
  have hother : (other.ring.slot other.ring.admitted).packet = some packet := by
    rw [hslot, hpacket]
  have hposition : other.admitPosition = queue.admitPosition :=
    (congrArg ring.position hadmitted).trans (PacketRing.position_congr hcapacity _)
  have hattempt : Traced.Similar (fun _ => true)
      (Agreed (Reringed (ring.setState ring.admitted .admitted))) queue.attempt other.attempt := by
    rcases Nat.lt_or_ge queue.admitPosition queue.contexts.length with hinside | hout
    · have hawaits : queue.Awaits packet := ⟨hpacket, hinside⟩
      have hfollows : other.Awaits packet := ⟨hother, hposition.symm ▸ hinside⟩
      have hsame : other.withdrawn packet = queue.withdrawn packet := by
        unfold withdrawn
        rw [hslot]
      cases hwithdrawn : queue.withdrawn packet with
      | true =>
          rw [queue.attempt_of_withdrawn hawaits hwithdrawn,
            other.attempt_of_withdrawn hfollows (hsame.trans hwithdrawn)]
          exact .pure ⟨rfl, rfl⟩
      | false =>
          have hpursued := (queue.asked packet).similar_pursue
            (ring.setState ring.admitted .admitted) queue.admitPosition packet
            (queue.consult packet).value.1
          rw [queue.attempt_of_kept hawaits hwithdrawn _ rfl,
            other.attempt_of_kept hfollows (hsame.trans hwithdrawn) _ rfl, hposition]
          refine ⟨hpursued.related, ?_⟩
          have hasked : (other.consult packet).events = (queue.consult packet).events := rfl
          rw [List.filter_append, List.filter_append, hasked]
          exact congrArg _ hpursued.inView_eq
    · rw [queue.attempt_of_no_context hpacket hout,
        other.attempt_of_no_context hother (hposition.symm ▸ hout)]
      exact .pure ⟨rfl, rfl⟩
  exact hattempt.bind fun hagreed => .pure hagreed.conclude

omit [Packet P] [Adapter D] in
theorem similar_settle {packet : P}
    (hpacket : (queue.ring.slot queue.ring.released).packet = some packet)
    (hreleased : ring.released = queue.ring.released)
    (hslot : ring.slot queue.ring.released = queue.ring.slot queue.ring.released) :
    Traced.Similar (fun _ => true) (SettledAlike queue ring) queue.settle
      ({ queue with ring := ring } : Queue P H D).settle := by
  let other : Queue P H D := { queue with ring := ring }
  have hslot : other.ring.slot other.ring.released = queue.ring.slot queue.ring.released :=
    (congrArg ring.slot hreleased).trans hslot
  by_cases hknown : ∃ completion,
      (queue.ring.slot queue.ring.released).state = .completed completion
  · obtain ⟨completion, hstate⟩ := hknown
    rw [queue.settle_of_known hstate, other.settle_of_known (by rw [hslot, hstate])]
    exact .pure (.settled completion queue rfl)
  · have hstate : ∀ completion,
        (queue.ring.slot queue.ring.released).state ≠ .completed completion :=
      fun completion heq => hknown ⟨completion, heq⟩
    rcases hstatus : Device.status queue.device packet with ⟨status, device⟩
    rw [queue.settle_of_asked hstate hpacket hstatus,
      other.settle_of_asked (by rw [hslot]; exact hstate) (by rw [hslot, hpacket]) hstatus]
    refine (Traced.Similar.record _).bind fun _ => ?_
    cases status with
    | pending => exact .pure (.pending _)
    | success => exact .pure (.settled _ _ rfl)
    | error => exact (Traced.Similar.record _).bind fun _ => .pure (.settled _ _ rfl)

omit [Packet P] in
/-- A look reads nothing of the ring but the slot of its packet. -/
theorem similar_releaseOldest {packet : P}
    (hpacket : (queue.ring.slot queue.ring.released).packet = some packet)
    (hcapacity : ring.capacity = queue.ring.capacity)
    (hreleased : ring.released = queue.ring.released)
    (hslot : ring.slot queue.ring.released = queue.ring.slot queue.ring.released) :
    Traced.Similar (fun _ => true)
      (fun left right => right = (left.1, { left.2 with ring := ring.scanned left.1 }))
      queue.releaseOldest ({ queue with ring := ring } : Queue P H D).releaseOldest := by
  refine (queue.similar_settle ring hpacket hreleased hslot).bind fun hsettled => ?_
  generalize queue.settle.value = left at hsettled ⊢
  generalize (settle ({ queue with ring := ring } : Queue P H D)).value = right at hsettled ⊢
  cases hsettled with
  | pending next => exact .pure rfl
  | settled completion next hring =>
      have hposition : ({ next with ring := ring } : Queue P H D).releasePosition =
          next.releasePosition := by
        unfold releasePosition
        rw [hring]
        exact (congrArg ring.position hreleased).trans (PacketRing.position_congr hcapacity _)
      dsimp only
      rw [hposition]
      refine (next.similar_returnResources ring next.releasePosition).bind fun hreturned => .pure ?_
      unfold Reringed at hreturned
      rw [hreturned]
      rfl

end Blind

/-- A queue with a released packet, and the same queue after that packet was popped. -/
structure Relieved (completed : CompletedPacket P) (queue popped : Queue P H D) : Prop where
  ripe : queue.ring.Ripe completed
  popped_eq : popped = { queue with ring := queue.ring.vacated }

section Commute

variable [Packet P] [Device P H] [Adapter D] {completed : CompletedPacket P}

theorem Relieved.perform_pop {queue popped : Queue P H D}
    (hrelieved : Relieved completed queue popped) :
    queue.perform .pop = pure (.popped (some completed), popped) := by
  obtain ⟨hripe, rfl⟩ := hrelieved
  simp only [Queue.perform, pop?, hripe.pop?_eq, Option.map_some]

/-- An early pop goes unnoticed by the moves of an advance. -/
theorem relieved_simulation :
    Simulation (fun _ => true) (Relieved (P := P) (H := H) (D := D) completed) where
  unposted_eq hrelieved := by
    rw [hrelieved.popped_eq]
    rfl
  inFlight_eq hrelieved := by
    rw [hrelieved.popped_eq]
    rfl
  outstanding_eq hrelieved := by
    rw [hrelieved.popped_eq]
    rfl
  admitOldest := by
    rintro queue _ ⟨hripe, rfl⟩ hready
    have hordered := hripe.staged.ordered
    have hroom : queue.ring.admitted < queue.ring.posted := hready
    obtain ⟨packet, hpacket⟩ := hripe.staged.occupied queue.ring.admitted
      (Nat.le_trans hordered.taken_le hordered.released_le) hroom
    have happart := hripe.position_ne hordered.released_le
      (Nat.lt_of_lt_of_le hroom hordered.posted_le)
    have hsimilar := queue.similar_admitOldest queue.ring.vacated hpacket
      queue.ring.capacity_vacated rfl (PacketRing.slot_vacated happart)
    have hring := queue.ring_admitOldest
    refine hsimilar.imp fun heq => ?_
    rw [heq, hripe.vacated_concluded hroom, ← hring]
    exact ⟨rfl, hring ▸ hripe.concluded hroom _, rfl⟩
  flush := by
    rintro queue _ ⟨hripe, rfl⟩
    exact ⟨⟨hripe, rfl⟩, rfl⟩
  releaseOldest := by
    rintro queue _ ⟨hripe, rfl⟩ hready
    have hordered := hripe.staged.ordered
    have hbusy : queue.ring.released < queue.ring.admitted := hready
    have hroom := Nat.lt_of_lt_of_le hbusy hordered.admitted_le
    obtain ⟨packet, hpacket⟩ := hripe.staged.occupied queue.ring.released hordered.taken_le hroom
    have happart := hripe.position_ne (Nat.le_refl _) (Nat.lt_of_lt_of_le hroom hordered.posted_le)
    have hsimilar := queue.similar_releaseOldest queue.ring.vacated hpacket
      queue.ring.capacity_vacated rfl (PacketRing.slot_vacated happart)
    have hring := (queue.scanned_releaseOldest hpacket).ring_eq
    refine hsimilar.imp fun heq => ?_
    rw [heq, hripe.vacated_scanned hbusy, ← hring]
    exact ⟨rfl, hring ▸ hripe.scanned hbusy _, rfl⟩

/-- An answer that an early pop cannot change: a pop would take the next packet, and a post that
was turned away might find room. -/
def Unaffected (entry : Operation P H D × Answer P) : Prop :=
  entry.1 ≠ .pop ∧ ∀ packet rejected, entry ≠ (.post packet, .posted (some rejected))

theorem Relieved.perform {queue popped : Queue P H D} {operation : Operation P H D}
    (hrelieved : Relieved completed queue popped)
    (hunaffected : Unaffected (operation, (queue.perform operation).value.1)) :
    Traced.Similar (fun _ => true) (Agreed (Relieved completed)) (queue.perform operation)
      (popped.perform operation) := by
  obtain ⟨hpop, haccepted⟩ := hunaffected
  cases operation with
  | pop => exact False.elim (hpop rfl)
  | advance => exact relieved_simulation.performAdvance hrelieved
  | drain interval timeout => exact relieved_simulation.performDrain hrelieved interval timeout
  | post packet =>
      obtain ⟨hripe, rfl⟩ := hrelieved
      simp only [Queue.perform, Queue.post] at haccepted ⊢
      cases hpost : queue.ring.post packet with
      | error rejected =>
          rw [hpost] at haccepted
          exact False.elim (haccepted packet rejected rfl)
      | ok ring =>
          rw [hripe.vacated_post hpost]
          exact .pure ⟨rfl, hripe.post hpost, rfl⟩
  | cancel =>
      obtain ⟨hripe, rfl⟩ := hrelieved
      obtain ⟨hcount, hring⟩ := hripe.vacated_cancelUnposted
      refine .pure ⟨congrArg Answer.cancelled hcount, hripe.cancelUnposted, ?_⟩
      exact congrArg (fun ring => ({ queue with ring := ring } : Queue P H D)) hring
  | resetStatistics =>
      obtain ⟨hripe, rfl⟩ := hrelieved
      exact .pure ⟨rfl, hripe, rfl⟩
  | changeDevice change =>
      obtain ⟨hripe, rfl⟩ := hrelieved
      exact .pure ⟨rfl, hripe, rfl⟩
  | changeAdapter change =>
      obtain ⟨hripe, rfl⟩ := hrelieved
      exact .pure ⟨rfl, hripe, rfl⟩

theorem Relieved.run {queue popped : Queue P H D} (hrelieved : Relieved completed queue popped)
    (operations : List (Operation P H D))
    (hunaffected : ∀ entry ∈ queue.transcript operations, Unaffected entry) :
    Traced.Similar (fun _ => true) (Agreed (Relieved completed)) (queue.run operations)
      (popped.run operations) :=
  similar_run Unaffected Relieved.perform hrelieved operations hunaffected

end Commute

/-- In every state with a released packet a pop commutes with whatever is done next, whether by
the caller, the device or the adapter, short of another pop and of posts that a full ring turns
away: the answers, the calls and the queue that is left are the same in either order. -/
theorem pop_commutes [Packet P] [Device P H] [Adapter D] {config : Config} {device : H}
    {adapter : D} {queue : Queue P H D} (hbuild : (build config device adapter).value = .ok queue)
    (operations more : List (Operation P H D)) :
    let last := queue.after operations
    0 < last.completed → .pop ∉ more →
      (∀ packet rejected, (.post packet, .posted (some rejected)) ∉ last.transcript more) →
      ∃ completed,
        last.transcript (.pop :: more) =
            (.pop, .popped (some completed)) :: last.transcript more ∧
          last.transcript (more ++ [.pop]) =
            last.transcript more ++ [(.pop, .popped (some completed))] ∧
          (last.run (.pop :: more)).events = (last.run (more ++ [.pop])).events ∧
          last.after (.pop :: more) = last.after (more ++ [.pop]) := by
  intro last hcompleted hpop haccepted
  have hstaged := (queue.course_run operations).staged (built_of_build hbuild).sound
  obtain ⟨completed, hripe⟩ := hstaged.exists_ripe hcompleted
  have hrelieved : Relieved completed last { last with ring := last.ring.vacated } := ⟨hripe, rfl⟩
  have hsimilar := hrelieved.run more fun entry hentry =>
    ⟨fun heq => hpop (heq ▸ operation_mem_of_mem_transcript hentry),
      fun packet rejected heq => haccepted packet rejected (heq ▸ hentry)⟩
  -- The queue after the run is relieved by the same packet, so the late pop finds it too.
  have hlast : (last.after more).perform .pop = _ := hsimilar.related.related.perform_pop
  refine ⟨completed, ?_, ?_, ?_, ?_⟩
  · rw [transcript_cons, hrelieved.perform_pop]
    exact congrArg _ hsimilar.related.answer_eq
  · rw [transcript_append, transcript_cons, hlast]
    rfl
  · rw [events_run_cons, events_run_append, events_run_cons, hrelieved.perform_pop, hlast]
    exact hsimilar.events_eq.trans (List.append_nil _).symm
  · rw [after_append, after_cons, after_cons, hrelieved.perform_pop, hlast]
    rfl

/-- Two packets posted and sent, of which the first was taken back. -/
def samplePoppedRun : List (Operation ScriptedPacket ScriptedDevice ScriptedAdapter) :=
  [.post samplePacket, .advance, .pop, .post samplePacket, .advance]

/-- A packet posted into the slot of the first, and sent. -/
def sampleWrappedRun : List (Operation ScriptedPacket ScriptedDevice ScriptedAdapter) :=
  [.post sampleMappedPacket, .advance, .cancel]

theorem sample_pop_commutes :
    (build sampleConfig ({} : ScriptedDevice) ({} : ScriptedAdapter)).value =
        .ok (sampleQueue {}) ∧
      0 < ((sampleQueue {}).after samplePoppedRun).completed ∧
      ((sampleQueue {}).after samplePoppedRun).after (.pop :: sampleWrappedRun) =
        ((sampleQueue {}).after samplePoppedRun).after (sampleWrappedRun ++ [.pop]) := by
  have hbuild : (build sampleConfig ({} : ScriptedDevice) ({} : ScriptedAdapter)).value =
      .ok (sampleQueue {}) := rfl
  have hcompleted : 0 < ((sampleQueue {}).after samplePoppedRun).completed := by decide +kernel
  have hanswers : ((sampleQueue {}).after samplePoppedRun).transcript sampleWrappedRun =
      [(.post sampleMappedPacket, .posted none), (.advance, .advanced ⟨1, 1, false⟩),
        (.cancel, .cancelled 0)] := rfl
  obtain ⟨_, _, _, _, hsame⟩ := pop_commutes hbuild samplePoppedRun sampleWrappedRun hcompleted
    (by simp [sampleWrappedRun]) (by simp [hanswers])
  exact ⟨hbuild, hcompleted, hsame⟩

end TransmitQueue.Queue
