import TransmitQueue.Error

/-!
# The life of a packet

A posted packet is unposted, then admitted, then programmed, perhaps found
pending, and in the end released with its completion. A packet that fails before
it reaches the device is completed at once and released in its turn.
-/

namespace TransmitQueue

/-- Why a packet completed without being sent. -/
inductive Failure where
  /-- Cancelled before admission. -/
  | skipped
  /-- Oversize, empty, or refused by the bounce policy. -/
  | cannotTransmit
  /-- Mapping failed for a reason other than exhaustion. -/
  | mapping (error : DmaError)
  /-- The device reported an error. -/
  | hardware
  deriving DecidableEq

/-- The final outcome of a packet. -/
inductive Completion where
  | success
  | failed (failure : Failure)
  deriving DecidableEq

/-- Where a packet is in the queue. -/
inductive PacketState where
  /-- Posted by the caller and not yet looked at. -/
  | unposted
  /-- Being analyzed and mapped. -/
  | admitted
  /-- Handed to the device. -/
  | programmed
  /-- Found busy by the last scan. -/
  | completionPending
  /-- Outcome known, resources still held. -/
  | completed (completion : Completion)
  /-- Waiting for the caller to take it back. -/
  | released (completion : Completion)
  deriving DecidableEq

/-- A packet handed back to the caller, and how it ended. -/
structure CompletedPacket (P : Type) where
  packet : P
  completion : Completion

def Failure.text : Failure → String
  | skipped => "Skipped"
  | cannotTransmit => "CannotTransmit"
  | mapping error => "Mapping(" ++ error.name ++ ")"
  | hardware => "Hardware"

namespace Completion

def isSuccess : Completion → Bool
  | success => true
  | failed _ => false

def text : Completion → String
  | success => "Success"
  | failed failure => "Failed(" ++ failure.text ++ ")"

end Completion

namespace PacketState

instance : Inhabited PacketState := ⟨unposted⟩

def text : PacketState → String
  | unposted => "Unposted"
  | admitted => "Admitted"
  | programmed => "Programmed"
  | completionPending => "CompletionPending"
  | completed completion => "Completed(" ++ completion.text ++ ")"
  | released completion => "Released(" ++ completion.text ++ ")"

end PacketState

end TransmitQueue
