import TransmitQueue.Queue.Basic

/-!
# Admission

One attempt to bring the oldest unposted packet onto the device. A packet is
skipped, refused, copied into a bounce buffer or mapped in place. Where a resource
is exhausted the attempt stalls, and the packet is tried again by a later advance.
-/

namespace TransmitQueue.Queue

variable {P H D : Type} [Packet P] [Device P H] [Adapter D]

/-- How an attempt to admit a packet ended. -/
inductive Admission where
  | programmed
  | failed (failure : Failure)
  | stalled
  deriving DecidableEq

/-- The decision on a packet, after the device's own policy was asked if the
analysis leaves it a say. -/
def decideBounce (device : H) (packet : P) (decision : BounceDecision) :
    Traced P (BounceDecision × H) :=
  if decision.isNegotiable then do
    let (answer, device) := Device.bouncePolicy device packet
    Traced.record (.policy packet answer)
    pure (decision.overriddenBy answer, device)
  else pure (decision, device)

/-- Refuses a packet that can never be sent. -/
def refuse (queue : Queue P H D) (analysis : BounceAnalysis) :
    Traced P (Admission × Queue P H D) := do
  Traced.record (.notice (.cannotTransmit analysis.totalLength analysis.descriptorCount))
  pure (.failed .cannotTransmit,
    queue.count fun counters => { counters with cannotTransmit := counters.cannotTransmit + 1 })

/-- Hands a packet and its list to the device. -/
def program (queue : Queue P H D) (packet : P) (list : SgList) : Traced P (Queue P H D) := do
  Traced.record (.program packet list)
  pure { queue with device := Device.program queue.device packet list }

/-- Fails a packet whose mapping failed for good. -/
def failMapping (queue : Queue P H D) (error : DmaError) : Admission × Queue P H D :=
  (.failed (.mapping error),
    queue.count fun counters => { counters with otherDmaErrors := counters.otherDmaErrors + 1 })

/-- Copies a packet into a bounce buffer and sends the copy. -/
def admitBounced (queue : Queue P H D) (position : Nat) (packet : P) :
    Traced P (Admission × Queue P H D) := do
  let (answer, pool) := queue.pool.bounce packet
  let queue := { queue with pool }
  match answer with
  | .ok list =>
      let queue ← program queue packet list
      let context := { queue.context position with bounced := true }
      pure (.programmed, (queue.setContext position context).count fun counters =>
        { counters with bounceSuccess := counters.bounceSuccess + 1 })
  | .error error =>
      if error.isExhaustion then
        Traced.record (.notice .poolExhausted)
        pure (.stalled, queue.count fun counters =>
          { counters with bounceFailure := counters.bounceFailure + 1 })
      else
        Traced.record (.notice (.bounceFailed error))
        pure (failMapping queue error)

/-- Maps a packet where it lies and sends it. Only a delegated mapping is held
until the packet is released. -/
def admitInPlace (queue : Queue P H D) (position : Nat) (packet : P) :
    Traced P (Admission × Queue P H D) := do
  let delegated := queue.backend == .delegated
  let mapping ← queue.mapper.map position packet (queue.context position).list queue.adapter
  let queue :=
    { queue with mapper := mapping.mapper, adapter := mapping.adapter }.setContext position
      { queue.context position with list := mapping.slotList }
  match mapping.answer with
  | .ok list =>
      let queue ← program queue packet list
      let context := { queue.context position with dmaMapped := delegated }
      pure (.programmed, queue.setContext position context)
  | .error error =>
      if error.isExhaustion then
        Traced.record (.notice .adapterExhausted)
        pure (.stalled, queue.count fun counters =>
          { counters with dmaInsufficientResources := counters.dmaInsufficientResources + 1 })
      else
        Traced.record (.notice (.mappingFailed error))
        pure (failMapping queue error)

/-- Admits a packet that was not cancelled: analysis, the device's policy, and then
the way that the decision names. -/
def admitPacket (queue : Queue P H D) (position : Nat) (packet : P) :
    Traced P (Admission × Queue P H D) := do
  let analysis := BounceAnalysis.ofPacket queue.limits packet
  let (decision, device) ← decideBounce queue.device packet analysis.decision
  let queue := { queue with device }
  match decision with
  | .cannotTransmit => refuse queue analysis
  | .transmitAfterBouncing => admitBounced queue position packet
  | .transmitInPlace => admitInPlace queue position packet

/-- One attempt to admit the packet at the admission cursor. A cancelled packet is
skipped before anything is asked about it. -/
def attempt (queue : Queue P H D) : Traced P (Admission × Queue P H D) :=
  let cursor := queue.ring.admitted
  let position := queue.ring.position cursor
  let slot := queue.ring.slot cursor
  let queue := { queue with ring := queue.ring.setState cursor .admitted }
  -- The slots from the admission cursor on hold packets, and every slot has a context, so
  -- neither is ever found missing.
  match slot.packet with
  | none => pure (.failed .skipped, queue)
  | some packet =>
      match queue.contexts[position]? with
      | none => pure (.stalled, queue)
      | some _ =>
          if slot.cancelled || Packet.ignored packet then
            pure (.failed .skipped,
              queue.count fun counters => { counters with skipped := counters.skipped + 1 })
          else admitPacket queue position packet

end TransmitQueue.Queue
