/-!
# Statistics

Counters of what a queue did with its packets. They only grow, until a caller
sets them back to zero.
-/

namespace TransmitQueue

/-- The counters of a queue. -/
structure Statistics where
  /-- Packets completed without mapping because they were cancelled. -/
  skipped : Nat := 0
  /-- Packets copied into a bounce buffer. -/
  bounceSuccess : Nat := 0
  /-- Admission stalls for want of a bounce buffer. -/
  bounceFailure : Nat := 0
  /-- Packets refused by the analysis or the device's policy. -/
  cannotTransmit : Nat := 0
  /-- Packets that the device reported as failed. -/
  completedWithError : Nat := 0
  /-- Admission stalls because the adapter was out of resources. -/
  dmaInsufficientResources : Nat := 0
  /-- Packets failed by a mapping error that does not pass. -/
  otherDmaErrors : Nat := 0
  /-- Packets handed to the device. -/
  programmed : Nat := 0
  /-- Packets released, whatever their outcome. -/
  completed : Nat := 0
  /-- Doorbell flushes. -/
  flushes : Nat := 0
  deriving DecidableEq

namespace Statistics

instance : Inhabited Statistics := ⟨{}⟩

variable (statistics : Statistics)

/-- Packets that ended in a failure of any kind. -/
def totalFailures : Nat :=
  statistics.skipped + statistics.cannotTransmit + statistics.completedWithError +
    statistics.otherDmaErrors

/-- The counters by name, in their documented order. -/
def entries : List (String × Nat) :=
  [("skipped", statistics.skipped),
    ("bounce_success", statistics.bounceSuccess),
    ("bounce_failure", statistics.bounceFailure),
    ("cannot_transmit", statistics.cannotTransmit),
    ("completed_with_error", statistics.completedWithError),
    ("dma_insufficient_resources", statistics.dmaInsufficientResources),
    ("other_dma_errors", statistics.otherDmaErrors),
    ("programmed", statistics.programmed),
    ("completed", statistics.completed),
    ("flushes", statistics.flushes)]

end Statistics

end TransmitQueue
