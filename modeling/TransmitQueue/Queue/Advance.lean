import TransmitQueue.Queue.Admission

/-!
# Advancing a queue

One cycle of the queue. The transmit phase admits packets in order until none is
left or one stalls; the doorbell rings once if a packet was programmed; and the
completion phase releases packets in order, up to the first that the device still
holds.
-/

namespace TransmitQueue

/-- What one advance did. -/
structure AdvanceSummary where
  /-- Packets handed to the device. -/
  programmed : Nat
  /-- Packets released. -/
  completed : Nat
  /-- Whether admission stopped for want of a resource. -/
  stalled : Bool
  deriving DecidableEq

namespace Queue

variable {P H D : Type} [Packet P] [Device P H] [Adapter D]

/-- The outcome of a transmit phase. -/
structure Transmission (P H D : Type) where
  queue : Queue P H D
  programmed : Nat
  stalled : Bool

/-- Admits up to `count` packets. -/
def transmit : (count : Nat) → Queue P H D → Traced P (Transmission P H D)
  | 0, queue => pure ⟨queue, 0, false⟩
  | count + 1, queue => do
      let cursor := queue.ring.admitted
      let (admission, queue) ← queue.attempt
      match admission with
      -- The packet waits where it was; those behind it wait with it.
      | .stalled => pure ⟨{ queue with ring := queue.ring.setState cursor .unposted }, 0, true⟩
      | .failed failure =>
          transmit count { queue with ring := queue.ring.admitNext (.completed (.failed failure)) }
      | .programmed =>
          let queue := queue.count fun counters =>
            { counters with programmed := counters.programmed + 1 }
          let rest ← transmit count { queue with ring := queue.ring.admitNext .programmed }
          pure { rest with programmed := rest.programmed + 1 }

/-- Rings the doorbell. -/
def flush (queue : Queue P H D) : Traced P (Queue P H D) := do
  Traced.record .flush
  pure ({ queue with device := Device.flush queue.device }.count fun counters =>
    { counters with flushes := counters.flushes + 1 })

/-- Finds out how the oldest packet in flight ended. A packet that never reached
the device has its outcome; of any other the device is asked. -/
def settle (queue : Queue P H D) : Traced P (Option Completion × Queue P H D) :=
  let cursor := queue.ring.released
  let slot := queue.ring.slot cursor
  match slot.state with
  | .completed completion => pure (some completion, queue)
  | _ =>
      match slot.packet with
      | none => pure (none, queue)
      | some packet => do
          let (status, device) := Device.status queue.device packet
          let queue := { queue with device }
          Traced.record (.status packet status)
          match status with
          | .pending =>
              pure (none, { queue with ring := queue.ring.setState cursor .completionPending })
          | .success => pure (some .success, queue)
          | .error =>
              Traced.record (.notice .transmitError)
              pure (some (.failed .hardware), queue.count fun counters =>
                { counters with completedWithError := counters.completedWithError + 1 })

/-- Returns the adapter mapping that a ring slot holds, if it holds one. -/
def returnMapping (queue : Queue P H D) (position : Nat) : Traced P (Queue P H D) := do
  let context := queue.context position
  if context.dmaMapped then
    let (mapper, list, adapter) ← queue.mapper.unmap position context.list queue.adapter
    pure ({ queue with mapper, adapter }.setContext position
      { context with list, dmaMapped := false })
  else pure queue

/-- Returns the bounce buffer that a ring slot holds, if it holds one. -/
def returnBuffer (queue : Queue P H D) (position : Nat) : Queue P H D :=
  let context := queue.context position
  if context.bounced then
    { queue with pool := queue.pool.release.2 }.setContext position
      { context with bounced := false }
  else queue

/-- Returns the mapping resources that a ring slot holds. -/
def returnResources (queue : Queue P H D) (position : Nat) : Traced P (Queue P H D) := do
  let queue ← queue.returnMapping position
  pure (queue.returnBuffer position)

/-- Releases up to `count` packets in order, and counts them. -/
def complete : (count : Nat) → Queue P H D → Traced P (Nat × Queue P H D)
  | 0, queue => pure (0, queue)
  | count + 1, queue => do
      let (outcome, queue) ← queue.settle
      match outcome with
      | none => pure (0, queue)
      | some completion =>
          let queue ← queue.returnResources (queue.ring.position queue.ring.released)
          let queue := { queue with ring := queue.ring.release completion }.count fun counters =>
            { counters with completed := counters.completed + 1 }
          let (released, queue) ← complete count queue
          pure (released + 1, queue)

/-- Runs one transmit phase, at most one flush, and one completion phase. -/
def advance (queue : Queue P H D) : Traced P (AdvanceSummary × Queue P H D) := do
  let transmission ← transmit queue.unposted queue
  let queue ←
    if transmission.programmed = 0 then pure transmission.queue
    else transmission.queue.flush
  let (completed, queue) ← complete queue.inFlight queue
  pure (⟨transmission.programmed, completed, transmission.stalled⟩, queue)

end Queue

end TransmitQueue
