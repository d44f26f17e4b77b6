import TransmitQueue.Alignment
import TransmitQueue.Error

/-!
# Configuration

What a caller fixes about a queue before it is built. Only the packet limit is
mandatory: a zero budget or buffer count stands for the default, and a zero
address width for a device without a limit.
-/

namespace TransmitQueue

/-- The sizes and device limits of a transmit queue. -/
structure Config where
  /-- Largest packet, in payload bytes, that the device accepts. -/
  maximumPacketSize : Nat
  /-- Descriptors allowed per packet; zero stands for the default. -/
  scatterGatherElements : Nat := 0
  /-- Alignment that the device asks of buffer starts. -/
  alignment : Alignment := .unconstrained
  /-- Address bits that the device drives; zero for no limit. -/
  addressWidth : Nat := 0
  /-- Whether physical addresses may be used directly if the adapter agrees. -/
  allowBypass : Bool := false
  /-- Bounce buffers in the pool; zero stands for the default. -/
  bounceBufferCount : Nat := 0
  /-- Packet slots in the ring. -/
  ringCapacity : Nat := 64
  deriving DecidableEq

namespace Config

/-- Descriptors per packet where the configuration names no number. -/
def defaultElements : Nat := 16

/-- The largest descriptor budget a configuration may name. -/
def maximumElements : Nat := 255

/-- Bounce buffers where the configuration names no number. -/
def defaultBounceBuffers : Nat := 16

/-- Packet slots where the configuration names no number. -/
def defaultRingCapacity : Nat := 64

/-- The configuration with defaults for all but the packet limit. -/
def ofMaximumPacketSize (size : Nat) : Config :=
  { maximumPacketSize := size, ringCapacity := defaultRingCapacity }

variable (config : Config)

/-- The descriptor budget with the default applied. -/
def elementLimit : Nat :=
  if config.scatterGatherElements = 0 then defaultElements else config.scatterGatherElements

/-- The number of bounce buffers with the default applied. -/
def bounceBuffers : Nat :=
  if config.bounceBufferCount = 0 then defaultBounceBuffers else config.bounceBufferCount

/-- The packet limit rounded up to the alignment, if that is a 64-bit size. -/
def bounceBufferSize? : Option Nat :=
  config.alignment.roundUp config.maximumPacketSize

/-- The highest address the device reaches, if it drives fewer than 64 bits. -/
def maxAddress? : Option Nat :=
  if config.addressWidth = 0 ∨ 64 ≤ config.addressWidth then none
  else some ((1 <<< config.addressWidth) - 1)

/-- The first fault of a configuration, if it has one. -/
def validate : Except ConfigError Unit :=
  if config.maximumPacketSize = 0 then .error .zeroMaximumPacketSize
  else if config.alignment.isValid = false then .error .invalidAlignment
  else if config.bounceBufferSize?.isNone then .error .maximumPacketSizeTooLarge
  else if 64 < config.addressWidth then .error .invalidAddressWidth
  else if config.ringCapacity = 0 then .error .zeroRingCapacity
  else if maximumElements < config.elementLimit then .error .scatterGatherLimitTooLarge
  else .ok ()

/-- Whether a queue may be built from the configuration. -/
def Valid : Prop := config.validate = .ok ()

theorem bounceBuffers_pos : 0 < config.bounceBuffers := by
  unfold bounceBuffers defaultBounceBuffers
  split <;> omega

theorem elementLimit_pos : 0 < config.elementLimit := by
  unfold elementLimit defaultElements
  split <;> omega

/-- The conditions that validation checks, all at once. -/
theorem valid_iff :
    config.Valid ↔ config.maximumPacketSize ≠ 0 ∧ config.alignment.isValid = true ∧
      config.bounceBufferSize?.isSome = true ∧ config.addressWidth ≤ 64 ∧
      config.ringCapacity ≠ 0 ∧ config.elementLimit ≤ maximumElements := by
  unfold Valid validate
  cases config.bounceBufferSize? with
  | none => grind
  | some _ => grind

end Config

end TransmitQueue
