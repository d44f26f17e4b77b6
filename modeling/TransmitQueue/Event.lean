import TransmitQueue.Adapter
import TransmitQueue.Device
import TransmitQueue.Lifecycle

/-!
# Events

A queue acts on the world through its device, its adapter, a clock and a log.
`Event` lists these actions with what was answered, and `Traced` is a computation
together with the events it caused, in order.
-/

namespace TransmitQueue

/-- The severities of a log record. -/
inductive Level where
  | trace
  | debug
  | warn
  deriving DecidableEq

def Level.text : Level → String
  | trace => "TRACE"
  | debug => "DEBUG"
  | warn => "WARN"

/-- What a queue tells its log. -/
inductive Notice where
  | directMapping (elements : Nat)
  | delegatedMapping (slots contextSize : Nat)
  | ready (slots buffers bufferSize : Nat)
  | cannotTransmit (length descriptors : Nat)
  | poolExhausted
  | bounceFailed (error : DmaError)
  | adapterExhausted
  | mappingFailed (error : DmaError)
  | transmitError
  | drainTimedOut (outstanding : Nat)
  deriving DecidableEq

namespace Notice

def level : Notice → Level
  | directMapping .. | delegatedMapping .. | ready .. => .debug
  | poolExhausted | adapterExhausted => .trace
  | cannotTransmit .. | bounceFailed _ | mappingFailed _ | transmitError | drainTimedOut _ => .warn

def message : Notice → String
  | directMapping elements => s!"txdma: direct mapping, {elements} elements"
  | delegatedMapping slots contextSize =>
      s!"txdma: delegated mapping, {slots} slots x {contextSize} context bytes"
  | ready slots buffers bufferSize =>
      s!"txdma: {slots} slots, {buffers} bounce buffers of {bufferSize} bytes"
  | cannotTransmit length descriptors =>
      s!"txdma: cannot transmit {length} byte packet in {descriptors} descriptors"
  | poolExhausted => "txdma: bounce pool exhausted, stalling"
  | bounceFailed error => "txdma: bounce failed: " ++ error.message
  | adapterExhausted => "txdma: adapter out of mapping resources, stalling"
  | mappingFailed error => "txdma: mapping failed: " ++ error.message
  | transmitError => "txdma: device reported transmit error"
  | drainTimedOut outstanding => s!"txdma: drain timed out, {outstanding} outstanding"

end Notice

/-- One action of a queue on the world around it. -/
inductive Event (P : Type) where
  /-- The device took a packet. -/
  | program (packet : P) (list : SgList)
  /-- The device was asked about a packet. -/
  | status (packet : P) (answer : DeviceStatus)
  /-- The device's doorbell was rung. -/
  | flush
  /-- The device's bounce policy was asked about a packet. -/
  | policy (packet : P) (answer : Option BounceDecision)
  /-- The adapter was asked whether it can be bypassed. -/
  | bypassCapable (answer : Bool)
  /-- The adapter was asked for the size of a context block. -/
  | contextSize (answer : Nat)
  /-- The adapter was asked for memory. -/
  | allocate (length alignment : Nat) (limit : Option Nat)
  /-- The adapter was asked to map a packet: the context block and the list as it
  got them, its answer, and both as it left them. -/
  | map (slot : Nat) (packet : P) (context : Bytes) (list : SgList)
      (answer : Except DmaError Unit) (contextLeft : Bytes) (listLeft : SgList)
  /-- The adapter took back a mapping. -/
  | unmap (slot : Nat) (context : Bytes) (list : SgList)
  /-- The clock was asked for a delay. -/
  | wait (microseconds : Nat)
  /-- A record went to the log. -/
  | notice (record : Notice)

/-- A value and the events of the computation that gave it, oldest first. -/
structure Traced (P : Type) (α : Type) where
  value : α
  events : List (Event P)

namespace Traced

variable {P α β : Type}

instance : Monad (Traced P) where
  pure value := ⟨value, []⟩
  bind
    | ⟨value, events⟩, next =>
        match next value with
        | ⟨result, more⟩ => ⟨result, events ++ more⟩

/-- The computation that causes one event. -/
def record (event : Event P) : Traced P Unit := ⟨(), [event]⟩

/-- The microseconds for which a computation asked the clock. -/
def waited (computation : Traced P α) : Nat :=
  let pause (event : Event P) : Nat :=
    match event with
    | .wait microseconds => microseconds
    | _ => 0
  computation.events.foldr (fun event rest => pause event + rest) 0

@[simp] theorem value_pure (value : α) : (pure value : Traced P α).value = value := rfl

@[simp] theorem events_pure (value : α) : (pure value : Traced P α).events = [] := rfl

@[simp] theorem value_bind (first : Traced P α) (next : α → Traced P β) :
    (first >>= next).value = (next first.value).value := rfl

@[simp] theorem events_bind (first : Traced P α) (next : α → Traced P β) :
    (first >>= next).events = first.events ++ (next first.value).events := rfl

/-- A computation that is done hands its value on. -/
theorem mk_bind (value : α) (events : List (Event P)) (next : α → Traced P β) :
    (mk value events >>= next) = ⟨(next value).value, events ++ (next value).events⟩ := rfl

@[simp] theorem value_record (event : Event P) : (record event).value = () := rfl

@[simp] theorem events_record (event : Event P) : (record event).events = [event] := rfl

@[ext] theorem ext {left right : Traced P α} (hvalue : left.value = right.value)
    (hevents : left.events = right.events) : left = right := by
  cases left; cases right
  simp_all

end Traced

end TransmitQueue
