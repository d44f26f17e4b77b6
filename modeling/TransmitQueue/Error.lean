/-!
# Errors

Three families of failure, one for each stage at which a queue can fail: while
it is configured, while a packet is mapped for the device, and while a caller
waits for it. Each error has a name and a message; `QueueError` joins the three.
-/

namespace TransmitQueue

/-- Why no queue can be built from a configuration. -/
inductive ConfigError where
  | zeroMaximumPacketSize
  | invalidAlignment
  | invalidAddressWidth
  | zeroRingCapacity
  | scatterGatherLimitTooLarge
  | maximumPacketSizeTooLarge
  | bounceAllocationFailed
  | bounceBufferUnreachable
  | bounceBufferMisaligned
  deriving DecidableEq

namespace ConfigError

/-- Every configuration error, in the order in which they are documented. -/
def all : List ConfigError :=
  [zeroMaximumPacketSize, invalidAlignment, invalidAddressWidth, zeroRingCapacity,
    scatterGatherLimitTooLarge, maximumPacketSizeTooLarge, bounceAllocationFailed,
    bounceBufferUnreachable, bounceBufferMisaligned]

def name : ConfigError → String
  | zeroMaximumPacketSize => "ZeroMaximumPacketSize"
  | invalidAlignment => "InvalidAlignment"
  | invalidAddressWidth => "InvalidAddressWidth"
  | zeroRingCapacity => "ZeroRingCapacity"
  | scatterGatherLimitTooLarge => "ScatterGatherLimitTooLarge"
  | maximumPacketSizeTooLarge => "MaximumPacketSizeTooLarge"
  | bounceAllocationFailed => "BounceAllocationFailed"
  | bounceBufferUnreachable => "BounceBufferUnreachable"
  | bounceBufferMisaligned => "BounceBufferMisaligned"

def message : ConfigError → String
  | zeroMaximumPacketSize => "maximum packet size is zero"
  | invalidAlignment => "invalid alignment mask"
  | invalidAddressWidth => "invalid address width"
  | zeroRingCapacity => "ring capacity is zero"
  | scatterGatherLimitTooLarge => "scatter/gather limit too large"
  | maximumPacketSizeTooLarge => "maximum packet size too large"
  | bounceAllocationFailed => "bounce buffer allocation failed"
  | bounceBufferUnreachable => "bounce buffer beyond device reach"
  | bounceBufferMisaligned => "bounce buffer misaligned"

def ofName? (text : String) : Option ConfigError :=
  all.find? fun error => error.name == text

end ConfigError

/-- Why a packet could not be mapped for the device. -/
inductive DmaError where
  | insufficientResources
  | scatterGatherOverflow
  | addressUnreachable
  | transferFailed
  deriving DecidableEq

namespace DmaError

/-- Every mapping error, in the order in which they are documented. -/
def all : List DmaError :=
  [insufficientResources, scatterGatherOverflow, addressUnreachable, transferFailed]

def name : DmaError → String
  | insufficientResources => "InsufficientResources"
  | scatterGatherOverflow => "ScatterGatherOverflow"
  | addressUnreachable => "AddressUnreachable"
  | transferFailed => "TransferFailed"

def message : DmaError → String
  | insufficientResources => "insufficient mapping resources"
  | scatterGatherOverflow => "scatter/gather list overflow"
  | addressUnreachable => "address beyond device reach"
  | transferFailed => "DMA transfer rejected"

/-- Exhaustion passes: the packet waits and is tried again. Every other error
fails the packet it was raised for. -/
def isExhaustion : DmaError → Bool
  | insufficientResources => true
  | _ => false

def ofName? (text : String) : Option DmaError :=
  all.find? fun error => error.name == text

theorem isExhaustion_iff (error : DmaError) :
    error.isExhaustion = true ↔ error = insufficientResources := by
  cases error <;> simp [isExhaustion]

end DmaError

/-- Why a call on a running queue was refused or given up. -/
inductive IoError where
  | timeout
  | invalidState
  deriving DecidableEq

namespace IoError

/-- Every runtime error, in the order in which they are documented. -/
def all : List IoError := [timeout, invalidState]

def name : IoError → String
  | timeout => "Timeout"
  | invalidState => "InvalidState"

def message : IoError → String
  | timeout => "operation timed out"
  | invalidState => "invalid state for operation"

def ofName? (text : String) : Option IoError :=
  all.find? fun error => error.name == text

end IoError

/-- An error of any family. -/
inductive QueueError where
  | config (error : ConfigError)
  | dma (error : DmaError)
  | io (error : IoError)
  deriving DecidableEq

namespace QueueError

/-- The family's name around the error's own. -/
def name : QueueError → String
  | config error => "Config(" ++ error.name ++ ")"
  | dma error => "Dma(" ++ error.name ++ ")"
  | io error => "Io(" ++ error.name ++ ")"

/-- The error's own message behind the name of its family. -/
def message : QueueError → String
  | config error => "config: " ++ error.message
  | dma error => "dma: " ++ error.message
  | io error => "io: " ++ error.message

end QueueError

end TransmitQueue
