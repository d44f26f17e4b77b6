import TransmitQueue.Bounce.Analysis
import TransmitQueue.ScatterGather

/-!
# Devices

What a queue asks of the device it feeds: to take a packet's descriptors, to say
whether it is done with a packet, and to start on everything it was given. A
device may have a bounce policy of its own. Each call answers and yields the
device as it is afterwards.
-/

namespace TransmitQueue

/-- What a device reports about a packet it was given. -/
inductive DeviceStatus where
  | pending
  | success
  | error
  deriving DecidableEq

def DeviceStatus.text : DeviceStatus → String
  | pending => "Pending"
  | success => "Success"
  | error => "Error"

/-- The devices of type `H`, which transmit packets of type `P`. -/
class Device (P : outParam Type) (H : Type) where
  /-- Hands over a packet and the list that describes it. -/
  program : H → P → SgList → H
  /-- Asks whether the device is done with a packet. -/
  status : H → P → DeviceStatus × H
  /-- Rings the doorbell for everything handed over since the last ring. -/
  flush : H → H
  /-- Asks for the device's own decision on a packet. A device without a bounce
  policy has no opinion, and no answer of the policy can loosen a decision. -/
  bouncePolicy : H → P → Option BounceDecision × H := fun device _ => (none, device)

end TransmitQueue
