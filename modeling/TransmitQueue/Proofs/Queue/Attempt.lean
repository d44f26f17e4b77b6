import TransmitQueue.Proofs.Mapping.Shape
import TransmitQueue.Proofs.Ring.Operations
import TransmitQueue.Queue.Advance

/-!
# One attempt at admission

Everything that an attempt to admit the oldest waiting packet can do: its outcome,
the calls that it makes, and the queue that it leaves. All later facts about
admission are read off these cases.
-/

namespace TransmitQueue

namespace PacketRing

variable {P : Type}

/-- The ring after an attempt ended. A stalled packet waits again; any other has
left the waiting packets. -/
def concluded (ring : PacketRing P) : Queue.Admission → PacketRing P
  | .programmed => ring.admitNext .programmed
  | .failed failure => ring.admitNext (.completed (.failed failure))
  | .stalled => ring.setState ring.admitted .unposted

/-- The mark of an attempt in progress does not outlive the attempt. -/
theorem concluded_setState (ring : PacketRing P) (state : PacketState)
    (admission : Queue.Admission) :
    (ring.setState ring.admitted state).concluded admission = ring.concluded admission := by
  cases admission with
  | programmed =>
      simp only [concluded, admitNext, admitted_setState, setState_setState]
  | failed failure =>
      simp only [concluded, admitNext, admitted_setState, setState_setState]
  | stalled => simp only [concluded, admitted_setState, setState_setState]

end PacketRing

namespace Queue

variable {P H D : Type}

/-- A slot's context that was just written is read back and written again in one step. A
position outside the contexts is never written. -/
theorem setContext_setContext (queue : Queue P H D) (position : Nat) (context : SlotContext)
    (update : SlotContext → SlotContext) :
    (queue.setContext position context).setContext position
        (update ((queue.setContext position context).context position)) =
      queue.setContext position (update context) := by
  by_cases hposition : position < queue.contexts.length
  · rw [queue.context_setContext hposition]
    simp only [setContext, List.set_set]
  · have hout := Nat.le_of_not_lt hposition
    simp only [setContext, List.set_eq_of_length_le hout]

variable [Packet P] [Device P H]

theorem admitBounced_of_ok (queue : Queue P H D) (position : Nat) {packet : P} {list : SgList}
    {pool : BouncePool} (hbounce : queue.pool.bounce packet = (.ok list, pool)) :
    queue.admitBounced position packet =
      ⟨(.programmed,
        { queue with
          device := Device.program queue.device packet list
          pool := pool
          contexts :=
            queue.contexts.set position { queue.context position with bounced := true }
          statistics :=
            { queue.statistics with bounceSuccess := queue.statistics.bounceSuccess + 1 } }),
        [.program packet list]⟩ := by
  unfold admitBounced
  rw [hbounce]
  rfl

theorem admitBounced_of_exhausted (queue : Queue P H D) (position : Nat) {packet : P}
    {error : DmaError} {pool : BouncePool}
    (hbounce : queue.pool.bounce packet = (.error error, pool))
    (hexhausted : error.isExhaustion = true) :
    queue.admitBounced position packet =
      ⟨(.stalled,
        { queue with
          pool := pool
          statistics :=
            { queue.statistics with bounceFailure := queue.statistics.bounceFailure + 1 } }),
        [.notice .poolExhausted]⟩ := by
  unfold admitBounced
  rw [hbounce]
  simp only [hexhausted, if_true]
  rfl

theorem admitBounced_of_failed (queue : Queue P H D) (position : Nat) {packet : P}
    {error : DmaError} {pool : BouncePool}
    (hbounce : queue.pool.bounce packet = (.error error, pool))
    (hfailed : error.isExhaustion = false) :
    queue.admitBounced position packet =
      ⟨({ queue with pool := pool } : Queue P H D).failMapping error,
        [.notice (.bounceFailed error)]⟩ := by
  unfold admitBounced
  rw [hbounce]
  simp only [hfailed, Bool.false_eq_true, if_false]
  rfl

/-- The queue after a mapping was asked for, whatever the answer. -/
def absorb (queue : Queue P H D) (position : Nat) (mapping : Mapping D) : Queue P H D :=
  { queue with
    mapper := mapping.mapper
    adapter := mapping.adapter
    contexts :=
      queue.contexts.set position { queue.context position with list := mapping.slotList } }

variable [Adapter D]

section InPlace

variable (queue : Queue P H D) (position : Nat) {packet : P} {mapping : Mapping D}
  {calls : List (Event P)}

theorem admitInPlace_of_ok {list : SgList}
    (hmapping : queue.mapper.map position packet (queue.context position).list queue.adapter =
      ⟨mapping, calls⟩) (hanswer : mapping.answer = .ok list) :
    queue.admitInPlace position packet =
      ⟨(.programmed,
        { queue.absorb position mapping with
          device := Device.program queue.device packet list
          contexts := queue.contexts.set position
            { queue.context position with
              list := mapping.slotList
              dmaMapped := queue.backend == .delegated } }),
        calls ++ [.program packet list]⟩ := by
  unfold admitInPlace
  rw [hmapping]
  obtain ⟨answer, mapper, slotList, adapter⟩ := mapping
  subst hanswer
  have hmarked := ({ queue with
      mapper := mapper
      adapter := adapter
      device := Device.program queue.device packet list } : Queue P H D).setContext_setContext
    position { queue.context position with list := slotList }
    fun context => { context with dmaMapped := queue.backend == .delegated }
  exact Traced.ext (Prod.ext rfl hmarked) rfl

theorem admitInPlace_of_exhausted {error : DmaError}
    (hmapping : queue.mapper.map position packet (queue.context position).list queue.adapter =
      ⟨mapping, calls⟩) (hanswer : mapping.answer = .error error)
    (hexhausted : error.isExhaustion = true) :
    queue.admitInPlace position packet =
      ⟨(.stalled,
        { queue.absorb position mapping with
          statistics :=
            { queue.statistics with
              dmaInsufficientResources := queue.statistics.dmaInsufficientResources + 1 } }),
        calls ++ [.notice .adapterExhausted]⟩ := by
  unfold admitInPlace
  rw [hmapping, Traced.mk_bind]
  simp only [hanswer, hexhausted, if_true]
  rfl

theorem admitInPlace_of_failed {error : DmaError}
    (hmapping : queue.mapper.map position packet (queue.context position).list queue.adapter =
      ⟨mapping, calls⟩) (hanswer : mapping.answer = .error error)
    (hfailed : error.isExhaustion = false) :
    queue.admitInPlace position packet =
      ⟨(queue.absorb position mapping).failMapping error,
        calls ++ [.notice (.mappingFailed error)]⟩ := by
  unfold admitInPlace
  rw [hmapping, Traced.mk_bind]
  simp only [hanswer, hfailed, Bool.false_eq_true, if_false]
  rfl

end InPlace

/-- The queue after an attempt ended: the packet's state is settled, and a programmed
packet is counted. -/
def conclude (queue : Queue P H D) (admission : Admission) : Queue P H D :=
  { queue with
    ring := queue.ring.concluded admission
    statistics := match admission with
      | .programmed => { queue.statistics with programmed := queue.statistics.programmed + 1 }
      | .failed _ | .stalled => queue.statistics }

/-- Attempts to admit the oldest waiting packet, and moves the admission cursor
unless the attempt stalled. -/
def admitOldest (queue : Queue P H D) : Traced P (Admission × Queue P H D) := do
  let (admission, next) ← queue.attempt
  pure (admission, next.conclude admission)

/-- Whether the packet at the admission cursor was cancelled, through the queue or
before it was posted. -/
def withdrawn (queue : Queue P H D) (packet : P) : Bool :=
  (queue.ring.slot queue.ring.admitted).cancelled || Packet.ignored packet

/-- The decision on a packet and the device after its policy had its say. -/
def consult (queue : Queue P H D) (packet : P) : Traced P (BounceDecision × H) :=
  decideBounce queue.device packet (BounceAnalysis.ofPacket queue.limits packet).decision

/-- The slot number of the admission cursor. -/
def admitPosition (queue : Queue P H D) : Nat := queue.ring.position queue.ring.admitted

/-- A packet waits at the admission cursor, and its slot has a context. -/
structure Awaits (queue : Queue P H D) (packet : P) : Prop where
  packet_eq : (queue.ring.slot queue.ring.admitted).packet = some packet
  position_lt : queue.admitPosition < queue.contexts.length

/-- The mapping of a packet for the slot of the admission cursor. -/
def mapping (queue : Queue P H D) (packet : P) : Traced P (Mapping D) :=
  queue.mapper.map queue.admitPosition packet (queue.context queue.admitPosition).list
    queue.adapter

/-- The ways in which an attempt on a packet can end: the outcome, the calls that
were made, and the queue that is left. -/
inductive Attempted (queue : Queue P H D) (packet : P) :
    Admission → List (Event P) → Queue P H D → Prop where
  | skip (hwithdrawn : queue.withdrawn packet = true) :
      Attempted queue packet (.failed .skipped) []
        { queue with
          ring := queue.ring.concluded (.failed .skipped)
          statistics := { queue.statistics with skipped := queue.statistics.skipped + 1 } }
  | refuse (hkept : queue.withdrawn packet = false)
      (hdecision : (queue.consult packet).value.1 = .cannotTransmit) :
      Attempted queue packet (.failed .cannotTransmit)
        ((queue.consult packet).events ++
          [.notice (.cannotTransmit (BounceAnalysis.ofPacket queue.limits packet).totalLength
            (BounceAnalysis.ofPacket queue.limits packet).descriptorCount)])
        { queue with
          ring := queue.ring.concluded (.failed .cannotTransmit)
          device := (queue.consult packet).value.2
          statistics :=
            { queue.statistics with cannotTransmit := queue.statistics.cannotTransmit + 1 } }
  | bounce (list : SgList) (pool : BouncePool) (hkept : queue.withdrawn packet = false)
      (hdecision : (queue.consult packet).value.1 = .transmitAfterBouncing)
      (hbounce : queue.pool.bounce packet = (.ok list, pool)) :
      Attempted queue packet .programmed
        ((queue.consult packet).events ++ [.program packet list])
        { queue with
          ring := queue.ring.concluded .programmed
          device := Device.program (queue.consult packet).value.2 packet list
          pool := pool
          contexts := queue.contexts.set queue.admitPosition
            { queue.context queue.admitPosition with bounced := true }
          statistics :=
            { queue.statistics with
              bounceSuccess := queue.statistics.bounceSuccess + 1
              programmed := queue.statistics.programmed + 1 } }
  | bounceStall (error : DmaError) (pool : BouncePool)
      (hkept : queue.withdrawn packet = false)
      (hdecision : (queue.consult packet).value.1 = .transmitAfterBouncing)
      (hbounce : queue.pool.bounce packet = (.error error, pool))
      (hexhausted : error.isExhaustion = true) :
      Attempted queue packet .stalled
        ((queue.consult packet).events ++ [.notice .poolExhausted])
        { queue with
          ring := queue.ring.concluded .stalled
          device := (queue.consult packet).value.2
          pool := pool
          statistics :=
            { queue.statistics with bounceFailure := queue.statistics.bounceFailure + 1 } }
  | bounceFail (error : DmaError) (pool : BouncePool)
      (hkept : queue.withdrawn packet = false)
      (hdecision : (queue.consult packet).value.1 = .transmitAfterBouncing)
      (hbounce : queue.pool.bounce packet = (.error error, pool))
      (hfailed : error.isExhaustion = false) :
      Attempted queue packet (.failed (.mapping error))
        ((queue.consult packet).events ++ [.notice (.bounceFailed error)])
        { queue with
          ring := queue.ring.concluded (.failed (.mapping error))
          device := (queue.consult packet).value.2
          pool := pool
          statistics :=
            { queue.statistics with otherDmaErrors := queue.statistics.otherDmaErrors + 1 } }
  | map (list : SgList) (hkept : queue.withdrawn packet = false)
      (hdecision : (queue.consult packet).value.1 = .transmitInPlace)
      (hmapping : (queue.mapping packet).value.answer = .ok list) :
      Attempted queue packet .programmed
        ((queue.consult packet).events ++ (queue.mapping packet).events ++
          [.program packet list])
        { queue with
          ring := queue.ring.concluded .programmed
          device := Device.program (queue.consult packet).value.2 packet list
          mapper := (queue.mapping packet).value.mapper
          adapter := (queue.mapping packet).value.adapter
          contexts := queue.contexts.set queue.admitPosition
            { queue.context queue.admitPosition with
              list := (queue.mapping packet).value.slotList
              dmaMapped := queue.backend == .delegated }
          statistics :=
            { queue.statistics with programmed := queue.statistics.programmed + 1 } }
  | mapStall (error : DmaError) (hkept : queue.withdrawn packet = false)
      (hdecision : (queue.consult packet).value.1 = .transmitInPlace)
      (hmapping : (queue.mapping packet).value.answer = .error error)
      (hexhausted : error.isExhaustion = true) :
      Attempted queue packet .stalled
        ((queue.consult packet).events ++ (queue.mapping packet).events ++
          [.notice .adapterExhausted])
        { queue with
          ring := queue.ring.concluded .stalled
          device := (queue.consult packet).value.2
          mapper := (queue.mapping packet).value.mapper
          adapter := (queue.mapping packet).value.adapter
          contexts := queue.contexts.set queue.admitPosition
            { queue.context queue.admitPosition with
              list := (queue.mapping packet).value.slotList }
          statistics :=
            { queue.statistics with
              dmaInsufficientResources := queue.statistics.dmaInsufficientResources + 1 } }
  | mapFail (error : DmaError) (hkept : queue.withdrawn packet = false)
      (hdecision : (queue.consult packet).value.1 = .transmitInPlace)
      (hmapping : (queue.mapping packet).value.answer = .error error)
      (hfailed : error.isExhaustion = false) :
      Attempted queue packet (.failed (.mapping error))
        ((queue.consult packet).events ++ (queue.mapping packet).events ++
          [.notice (.mappingFailed error)])
        { queue with
          ring := queue.ring.concluded (.failed (.mapping error))
          device := (queue.consult packet).value.2
          mapper := (queue.mapping packet).value.mapper
          adapter := (queue.mapping packet).value.adapter
          contexts := queue.contexts.set queue.admitPosition
            { queue.context queue.admitPosition with
              list := (queue.mapping packet).value.slotList }
          statistics :=
            { queue.statistics with otherDmaErrors := queue.statistics.otherDmaErrors + 1 } }

/-- The queue while its oldest waiting packet is looked at, after the device's policy
was asked about the packet. -/
def asked (queue : Queue P H D) (packet : P) : Queue P H D :=
  { queue with
    ring := queue.ring.setState queue.ring.admitted .admitted
    device := (queue.consult packet).value.2 }

/-- The way that a decision names. -/
def pursue (queue : Queue P H D) (position : Nat) (packet : P) :
    BounceDecision → Traced P (Admission × Queue P H D)
  | .cannotTransmit => queue.refuse (BounceAnalysis.ofPacket queue.limits packet)
  | .transmitAfterBouncing => queue.admitBounced position packet
  | .transmitInPlace => queue.admitInPlace position packet

theorem ring_pursue (queue : Queue P H D) (position : Nat) (packet : P)
    (decision : BounceDecision) :
    (queue.pursue position packet decision).value.2.ring = queue.ring := by
  cases decision with
  | cannotTransmit => rfl
  | transmitAfterBouncing =>
      rcases hbounce : queue.pool.bounce packet with ⟨error | list, pool⟩
      · cases hexhausted : error.isExhaustion with
        | true => rw [pursue, queue.admitBounced_of_exhausted position hbounce hexhausted]
        | false =>
            rw [pursue, queue.admitBounced_of_failed position hbounce hexhausted]
            rfl
      · rw [pursue, queue.admitBounced_of_ok position hbounce]
  | transmitInPlace =>
      rcases hmapping : queue.mapper.map position packet (queue.context position).list
        queue.adapter with ⟨mapping, calls⟩
      cases hanswer : mapping.answer with
      | ok list =>
          rw [pursue, queue.admitInPlace_of_ok position hmapping hanswer]
          rfl
      | error error =>
          cases hexhausted : error.isExhaustion with
          | true =>
              rw [pursue, queue.admitInPlace_of_exhausted position hmapping hanswer hexhausted]
              rfl
          | false =>
              rw [pursue, queue.admitInPlace_of_failed position hmapping hanswer hexhausted]
              rfl

/-- An attempt on a waiting packet skips it or admits it. -/
theorem attempt_of_awaits (queue : Queue P H D) {packet : P} (hawaits : queue.Awaits packet) :
    queue.attempt =
      let marked : Queue P H D :=
        { queue with ring := queue.ring.setState queue.ring.admitted .admitted }
      if queue.withdrawn packet then
        pure (.failed .skipped,
          marked.count fun counters => { counters with skipped := counters.skipped + 1 })
      else marked.admitPacket queue.admitPosition packet := by
  have hcontext := List.getElem?_eq_getElem hawaits.position_lt
  unfold admitPosition at hcontext
  simp only [attempt, hawaits.packet_eq, hcontext]
  rfl

theorem attempt_of_withdrawn (queue : Queue P H D) {packet : P} (hawaits : queue.Awaits packet)
    (hwithdrawn : queue.withdrawn packet = true) :
    queue.attempt = pure (.failed .skipped,
      { queue with
        ring := queue.ring.setState queue.ring.admitted .admitted
        statistics := { queue.statistics with skipped := queue.statistics.skipped + 1 } }) := by
  rw [queue.attempt_of_awaits hawaits, hwithdrawn]
  rfl

theorem attempt_of_kept (queue : Queue P H D) {packet : P} (hawaits : queue.Awaits packet)
    (hkept : queue.withdrawn packet = false) (decision : BounceDecision)
    (hdecision : (queue.consult packet).value.1 = decision) :
    queue.attempt =
      ⟨((queue.asked packet).pursue queue.admitPosition packet decision).value,
        (queue.consult packet).events ++
          ((queue.asked packet).pursue queue.admitPosition packet decision).events⟩ := by
  rw [queue.attempt_of_awaits hawaits, hkept]
  subst hdecision
  unfold asked
  change (queue.consult packet >>= _) = _
  obtain ⟨⟨decision, device⟩, calls⟩ := queue.consult packet
  cases decision <;> rfl

/-- A packet whose slot has no context is left waiting. -/
theorem attempt_of_no_context (queue : Queue P H D) {packet : P}
    (hpacket : (queue.ring.slot queue.ring.admitted).packet = some packet)
    (hposition : queue.contexts.length ≤ queue.admitPosition) :
    queue.attempt = pure (.stalled,
      { queue with ring := queue.ring.setState queue.ring.admitted .admitted }) := by
  have hcontext := List.getElem?_eq_none hposition
  unfold admitPosition at hcontext
  simp only [attempt, hpacket, hcontext]

/-- An attempt touches the ring only to mark its packet. -/
theorem ring_attempt (queue : Queue P H D) :
    queue.attempt.value.2.ring = queue.ring.setState queue.ring.admitted .admitted := by
  cases hpacket : (queue.ring.slot queue.ring.admitted).packet with
  | none =>
      simp only [attempt, hpacket]
      rfl
  | some packet =>
      by_cases hposition : queue.admitPosition < queue.contexts.length
      · have hawaits : queue.Awaits packet := ⟨hpacket, hposition⟩
        cases hwithdrawn : queue.withdrawn packet with
        | true => rw [queue.attempt_of_withdrawn hawaits hwithdrawn]; rfl
        | false =>
            rw [queue.attempt_of_kept hawaits hwithdrawn _ rfl]
            exact (queue.asked packet).ring_pursue _ _ _
      · rw [queue.attempt_of_no_context hpacket (Nat.le_of_not_lt hposition)]
        rfl

theorem admitOldest_of_attempt (queue : Queue P H D) {admission : Admission}
    {next : Queue P H D} {calls : List (Event P)}
    (hattempt : queue.attempt = ⟨(admission, next), calls⟩) :
    queue.admitOldest = ⟨(admission, next.conclude admission), calls⟩ := by
  unfold admitOldest
  rw [hattempt, Traced.mk_bind]
  simp only [Traced.value_pure, Traced.events_pure, List.append_nil]

section Cases

variable (queue : Queue P H D) {packet : P} (hawaits : queue.Awaits packet)
  (hkept : queue.withdrawn packet = false)
include hawaits hkept

theorem attempted_of_bounced
    (hdecision : (queue.consult packet).value.1 = .transmitAfterBouncing) :
    Attempted queue packet queue.admitOldest.value.1 queue.admitOldest.events
      queue.admitOldest.value.2 := by
  have hattempt := queue.attempt_of_kept hawaits hkept _ hdecision
  rcases hbounce : queue.pool.bounce packet with ⟨error | list, pool⟩
  · cases hexhausted : error.isExhaustion with
    | true =>
        have hway := (queue.asked packet).admitBounced_of_exhausted queue.admitPosition
          hbounce hexhausted
        rw [pursue, hway] at hattempt
        have hcase := Attempted.bounceStall (H := H) (D := D) error pool hkept hdecision
          hbounce hexhausted
        rw [← queue.ring.concluded_setState .admitted] at hcase
        rw [queue.admitOldest_of_attempt hattempt]
        exact hcase
    | false =>
        have hway := (queue.asked packet).admitBounced_of_failed queue.admitPosition
          hbounce hexhausted
        rw [pursue, hway] at hattempt
        have hcase := Attempted.bounceFail (H := H) (D := D) error pool hkept hdecision
          hbounce hexhausted
        rw [← queue.ring.concluded_setState .admitted] at hcase
        rw [queue.admitOldest_of_attempt hattempt]
        exact hcase
  · have hway := (queue.asked packet).admitBounced_of_ok queue.admitPosition hbounce
    rw [pursue, hway] at hattempt
    have hcase := Attempted.bounce (H := H) (D := D) list pool hkept hdecision hbounce
    rw [← queue.ring.concluded_setState .admitted] at hcase
    rw [queue.admitOldest_of_attempt hattempt]
    exact hcase

theorem attempted_of_inPlace (hdecision : (queue.consult packet).value.1 = .transmitInPlace) :
    Attempted queue packet queue.admitOldest.value.1 queue.admitOldest.events
      queue.admitOldest.value.2 := by
  have hattempt := queue.attempt_of_kept hawaits hkept _ hdecision
  have hmapping : (queue.asked packet).mapper.map queue.admitPosition packet
      ((queue.asked packet).context queue.admitPosition).list
      (queue.asked packet).adapter =
        ⟨(queue.mapping packet).value, (queue.mapping packet).events⟩ := rfl
  cases hanswer : (queue.mapping packet).value.answer with
  | ok list =>
      have hway := (queue.asked packet).admitInPlace_of_ok queue.admitPosition hmapping hanswer
      rw [pursue, hway, ← List.append_assoc] at hattempt
      have hcase := Attempted.map (H := H) (D := D) list hkept hdecision hanswer
      rw [← queue.ring.concluded_setState .admitted] at hcase
      rw [queue.admitOldest_of_attempt hattempt]
      exact hcase
  | error error =>
      cases hexhausted : error.isExhaustion with
      | true =>
          have hway := (queue.asked packet).admitInPlace_of_exhausted queue.admitPosition
            hmapping hanswer hexhausted
          rw [pursue, hway, ← List.append_assoc] at hattempt
          have hcase := Attempted.mapStall (H := H) (D := D) error hkept hdecision hanswer
            hexhausted
          rw [← queue.ring.concluded_setState .admitted] at hcase
          rw [queue.admitOldest_of_attempt hattempt]
          exact hcase
      | false =>
          have hway := (queue.asked packet).admitInPlace_of_failed queue.admitPosition
            hmapping hanswer hexhausted
          rw [pursue, hway, ← List.append_assoc] at hattempt
          have hcase := Attempted.mapFail (H := H) (D := D) error hkept hdecision hanswer
            hexhausted
          rw [← queue.ring.concluded_setState .admitted] at hcase
          rw [queue.admitOldest_of_attempt hattempt]
          exact hcase

end Cases

/-- Every attempt on a packet ends in one of the ways listed. -/
theorem attempted_admitOldest (queue : Queue P H D) {packet : P}
    (hawaits : queue.Awaits packet) :
    Attempted queue packet queue.admitOldest.value.1 queue.admitOldest.events
      queue.admitOldest.value.2 := by
  cases hwithdrawn : queue.withdrawn packet with
  | true =>
      have hcase := Attempted.skip (H := H) (D := D) hwithdrawn
      rw [← queue.ring.concluded_setState .admitted] at hcase
      rw [queue.admitOldest_of_attempt (queue.attempt_of_withdrawn hawaits hwithdrawn)]
      exact hcase
  | false =>
      cases hdecision : (queue.consult packet).value.1 with
      | cannotTransmit =>
          have hattempt := queue.attempt_of_kept hawaits hwithdrawn _ hdecision
          have hcase := Attempted.refuse (H := H) (D := D) hwithdrawn hdecision
          rw [← queue.ring.concluded_setState .admitted] at hcase
          rw [queue.admitOldest_of_attempt hattempt]
          exact hcase
      | transmitAfterBouncing => exact queue.attempted_of_bounced hawaits hwithdrawn hdecision
      | transmitInPlace => exact queue.attempted_of_inPlace hawaits hwithdrawn hdecision

end Queue

end TransmitQueue
