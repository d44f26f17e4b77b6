import TransmitQueue.Proofs.Queue.Attempt

/-!
# Decisions

What it means that a packet was let through: its size, its descriptors and its fragments
are within the limits of the device. The device's own policy can only add to this.
-/

namespace TransmitQueue

namespace BounceAnalysis

variable {limits : BounceLimits} {totalLength descriptorCount : Nat} {needsBounce : Bool}

theorem classify_ne_cannotTransmit
    (hdecision : classify limits totalLength descriptorCount needsBounce ≠ .cannotTransmit) :
    0 < totalLength ∧ totalLength ≤ limits.maximumPacketSize := by
  unfold classify at hdecision
  split at hdecision
  next => exact False.elim (hdecision rfl)
  next hsize => omega

theorem classify_eq_transmitInPlace
    (hdecision : classify limits totalLength descriptorCount needsBounce = .transmitInPlace) :
    needsBounce = false ∧ descriptorCount ≤ limits.maximumElements := by
  unfold classify at hdecision
  split at hdecision
  next => cases hdecision
  next =>
    split at hdecision
    next => cases hdecision
    next hplace =>
      rw [not_or, Bool.not_eq_true, Nat.not_lt] at hplace
      exact hplace

/-- Where no fragment forces a copy, each is aligned and none reaches above the highest
address. -/
theorem fragment_of_needsCopy_eq_false {count : Nat} {fragments : List Fragment}
    (hcopy : needsCopy limits count fragments = false) :
    ∀ fragment ∈ fragments, limits.alignment.isAligned fragment.physStart = true ∧
      limits.isBeyondReach fragment = false := by
  intro fragment hfragment
  obtain ⟨index, hindex, rfl⟩ := List.mem_iff_getElem.mp hfragment
  unfold needsCopy at hcopy
  rw [List.any_eq_false] at hcopy
  have hmember : (fragments[index], index) ∈ fragments.zipIdx := by
    rw [List.mem_zipIdx_iff_getElem?]
    exact List.getElem?_eq_getElem hindex
  have hforces := hcopy _ hmember
  simp only [BounceLimits.forcesCopy, Bool.or_eq_true, not_or, Bool.not_eq_true] at hforces
  obtain ⟨⟨_, haligned⟩, hreach⟩ := hforces
  exact ⟨by simpa using haligned, hreach⟩

end BounceAnalysis

namespace BounceDecision

/-- A policy cannot allow a packet that the analysis rules out. -/
theorem ne_cannotTransmit_of_overriddenBy {decision : BounceDecision}
    {answer : Option BounceDecision} (hdecision : decision.overriddenBy answer ≠ .cannotTransmit) :
    decision ≠ .cannotTransmit := by
  rintro rfl
  cases answer with
  | none => exact hdecision rfl
  | some answer => exact hdecision rfl

/-- A packet goes in place only where the analysis says so. -/
theorem eq_transmitInPlace_of_overriddenBy {decision : BounceDecision}
    {answer : Option BounceDecision} (hdecision : decision.overriddenBy answer = .transmitInPlace) :
    decision = .transmitInPlace := by
  have hrank := decision.rank_le_rank_overriddenBy answer
  rw [hdecision] at hrank
  cases decision with
  | transmitInPlace => rfl
  | transmitAfterBouncing => exact absurd hrank (by decide)
  | cannotTransmit => exact absurd hrank (by decide)

end BounceDecision

/-- A device with an address limit below 64 bits does not reach the last address. -/
theorem Config.maxAddress?_lt {config : Config} {highest : Nat}
    (hhighest : config.maxAddress? = some highest) : highest < addressSpace - 1 := by
  unfold maxAddress? at hhighest
  split at hhighest
  next => cases hhighest
  next hwidth =>
    have hpower : 2 ^ config.addressWidth ≤ 2 ^ 63 :=
      Nat.pow_le_pow_right (by decide) (by omega)
    have hvalue := Option.some.inj hhighest
    rw [Nat.one_shiftLeft] at hvalue
    unfold addressSpace
    omega

namespace Queue

variable {P H D : Type} [Packet P] [Device P H]

/-- The decision on a packet: the analysis, made stricter by the device's own policy. -/
def decision (queue : Queue P H D) (packet : P) : BounceDecision :=
  (BounceAnalysis.ofPacket queue.limits packet).decision.overriddenBy
    (Device.bouncePolicy queue.device packet).1

/-- The policy is asked only where it has a say, so asking it always changes nothing. -/
theorem consult_decision (queue : Queue P H D) (packet : P) :
    (queue.consult packet).value.1 = queue.decision packet := by
  unfold consult decision decideBounce
  cases (BounceAnalysis.ofPacket queue.limits packet).decision with
  | transmitInPlace => rfl
  | _ => cases (Device.bouncePolicy queue.device packet).1 <;> rfl

variable {queue : Queue P H D} {packet : P}

/-- A packet that is not refused is neither empty nor too large. -/
theorem size_of_decision (hdecision : queue.decision packet ≠ .cannotTransmit) :
    0 < Packet.totalLength packet ∧
      Packet.totalLength packet ≤ queue.config.maximumPacketSize :=
  BounceAnalysis.classify_ne_cannotTransmit
    (BounceDecision.ne_cannotTransmit_of_overriddenBy hdecision)

/-- A packet that goes in place fits the descriptor budget. -/
theorem descriptors_of_decision (hdecision : queue.decision packet = .transmitInPlace) :
    BounceAnalysis.descriptors (Packet.fragments packet) ≤ queue.config.elementLimit :=
  (BounceAnalysis.classify_eq_transmitInPlace
    (BounceDecision.eq_transmitInPlace_of_overriddenBy hdecision)).2

theorem fragment_of_decision (hdecision : queue.decision packet = .transmitInPlace)
    {fragment : Fragment} (hfragment : fragment ∈ Packet.fragments packet) :
    queue.config.alignment.isAligned fragment.physStart = true ∧
      queue.limits.isBeyondReach fragment = false :=
  BounceAnalysis.fragment_of_needsCopy_eq_false (BounceAnalysis.classify_eq_transmitInPlace
    (BounceDecision.eq_transmitInPlace_of_overriddenBy hdecision)).1 fragment hfragment

/-- The device reaches every byte of a packet that goes in place. -/
theorem reach_of_decision (hdecision : queue.decision packet = .transmitInPlace) {highest : Nat}
    (hhighest : queue.config.maxAddress? = some highest) {fragment : Fragment}
    (hfragment : fragment ∈ Packet.fragments packet) :
    fragment.physStart.toNat + (fragment.length - 1) ≤ highest := by
  have hreach := (fragment_of_decision hdecision hfragment).2
  have hlast := Config.maxAddress?_lt hhighest
  have hlimit : queue.limits.maxAddress? = some highest := hhighest
  unfold BounceLimits.isBeyondReach at hreach
  rw [hlimit] at hreach
  have hreach := of_decide_eq_false hreach
  omega

end Queue

end TransmitQueue
