import TransmitQueue.Config
import TransmitQueue.Packet
import TransmitQueue.Page

/-!
# Bounce analysis

Whether a packet can be sent from where it lies. The answer depends on the
packet's layout and the device's limits alone, so it is taken before any mapping
resource is touched. A device may make it stricter, never more lenient.
-/

namespace TransmitQueue

/-- How a packet will be sent, from the least to the most restrictive way. -/
inductive BounceDecision where
  /-- The device reads the fragments where they lie. -/
  | transmitInPlace
  /-- The payload is copied into a bounce buffer first. -/
  | transmitAfterBouncing
  /-- The packet can never be sent. -/
  | cannotTransmit
  deriving DecidableEq

namespace BounceDecision

/-- Every decision, from the least to the most restrictive. -/
def all : List BounceDecision := [transmitInPlace, transmitAfterBouncing, cannotTransmit]

def name : BounceDecision → String
  | transmitInPlace => "TransmitInPlace"
  | transmitAfterBouncing => "TransmitAfterBouncing"
  | cannotTransmit => "CannotTransmit"

def ofName? (text : String) : Option BounceDecision :=
  all.find? fun decision => decision.name == text

/-- The place of a decision in the order of strictness. -/
def rank : BounceDecision → Nat
  | transmitInPlace => 0
  | transmitAfterBouncing => 1
  | cannotTransmit => 2

/-- The stricter of two decisions. -/
def stricter (left right : BounceDecision) : BounceDecision :=
  if left.rank ≤ right.rank then right else left

/-- Only a packet that could go in place is put to the device's own policy. -/
def isNegotiable : BounceDecision → Bool
  | transmitInPlace => true
  | _ => false

/-- The decision after the device's policy answered. Where the decision is not
negotiable, or the policy has no opinion, it stands. -/
def overriddenBy (decision : BounceDecision) : Option BounceDecision → BounceDecision
  | none => decision
  | some answer => if decision.isNegotiable then stricter answer decision else decision

theorem rank_le_rank_overriddenBy (decision : BounceDecision) (answer : Option BounceDecision) :
    decision.rank ≤ (decision.overriddenBy answer).rank := by
  cases decision <;> rcases answer with _ | (_ | _ | _) <;> decide

/-- A policy with an opinion on a packet that could go in place is followed. -/
theorem overriddenBy_of_transmitInPlace (answer : BounceDecision) :
    transmitInPlace.overriddenBy (some answer) = answer := by
  cases answer <;> rfl

end BounceDecision

/-- The device limits that the analysis checks. -/
structure BounceLimits where
  maximumPacketSize : Nat
  maximumElements : Nat
  alignment : Alignment
  /-- The highest address the device reaches, if it has one. -/
  maxAddress? : Option Nat
  deriving DecidableEq

namespace BounceLimits

/-- The limits that a configuration sets. -/
def ofConfig (config : Config) : BounceLimits where
  maximumPacketSize := config.maximumPacketSize
  maximumElements := config.elementLimit
  alignment := config.alignment
  maxAddress? := config.maxAddress?

variable (limits : BounceLimits)

/-- Whether a fragment reaches above the highest address. The address of its last
byte is taken at the end of the address space where it lies beyond it. -/
def isBeyondReach (fragment : Fragment) : Bool :=
  match limits.maxAddress? with
  | none => false
  | some highest =>
      decide (highest < min (fragment.physStart.toNat + (fragment.length - 1)) (addressSpace - 1))

/-- Whether a fragment, first or last in its packet or neither, keeps the packet
from being read in place. -/
def forcesCopy (isFirst isLast : Bool) (fragment : Fragment) : Bool :=
  (!isFirst && fragment.start != 0) || (!isLast && !fragment.consumesRegion) ||
    !limits.alignment.isAligned fragment.physStart || limits.isBeyondReach fragment

end BounceLimits

/-- What the walk over a packet's fragments found. -/
structure BounceAnalysis where
  totalLength : Nat
  /-- Pages touched, fragment by fragment. -/
  descriptorCount : Nat
  /-- Whether a fragment forces a copy. -/
  needsBounce : Bool
  decision : BounceDecision
  deriving DecidableEq

namespace BounceAnalysis

/-- The descriptors needed to describe fragments in place. -/
def descriptors (fragments : List Fragment) : Nat :=
  fragments.foldr (fun fragment rest =>
    Page.spanned fragment.physStart fragment.length + rest) 0

theorem descriptors_cons (fragment : Fragment) (rest : List Fragment) :
    descriptors (fragment :: rest) =
      Page.spanned fragment.physStart fragment.length + descriptors rest := rfl

/-- Whether some fragment forces a copy. The last fragment is the one at the last
position of the layout, so a packet with holes has none. -/
def needsCopy (limits : BounceLimits) (count : Nat) (fragments : List Fragment) : Bool :=
  fragments.zipIdx.any fun (fragment, index) =>
    limits.forcesCopy (index == 0) (index + 1 == count) fragment

/-- Size comes first: an empty or oversize packet is never sent. -/
def classify (limits : BounceLimits) (totalLength descriptorCount : Nat) (needsBounce : Bool) :
    BounceDecision :=
  if limits.maximumPacketSize < totalLength ∨ totalLength = 0 then .cannotTransmit
  else if needsBounce ∨ limits.maximumElements < descriptorCount then .transmitAfterBouncing
  else .transmitInPlace

/-- The analysis of one packet. -/
def ofPacket {P : Type} [Packet P] (limits : BounceLimits) (packet : P) : BounceAnalysis :=
  let fragments := Packet.fragments packet
  let totalLength := Packet.totalLength packet
  let descriptorCount := descriptors fragments
  let needsBounce := needsCopy limits (Packet.fragmentCount packet) fragments
  { totalLength, descriptorCount, needsBounce,
    decision := classify limits totalLength descriptorCount needsBounce }

end BounceAnalysis

end TransmitQueue
