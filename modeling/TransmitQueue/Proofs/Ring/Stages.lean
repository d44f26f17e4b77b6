import TransmitQueue.Proofs.Ring.Operations

/-!
# The stages of a ring

Between its cursors a ring holds packets that are released, in flight and waiting, in
this order, and every slot of the window holds a packet. Each operation keeps it so.
-/

namespace TransmitQueue

/-- The states that a packet in flight is seen in: on the device, or failed before
reaching it. -/
def PacketState.isInFlight : PacketState → Bool
  | programmed | completionPending | completed (.failed _) => true
  | unposted | admitted | completed .success | released _ => false

namespace PacketRing

variable {P : Type} {ring : PacketRing P}

/-- A ring whose window holds a packet in every slot, each in a state that its place
among the cursors allows. -/
structure Staged (ring : PacketRing P) : Prop where
  ordered : ring.Ordered
  occupied : ∀ cursor, ring.taken ≤ cursor → cursor < ring.posted →
    ∃ packet, (ring.slot cursor).packet = some packet
  released : ∀ cursor, ring.taken ≤ cursor → cursor < ring.released →
    ∃ completion, (ring.slot cursor).state = .released completion
  inFlight : ∀ cursor, ring.released ≤ cursor → cursor < ring.admitted →
    (ring.slot cursor).state.isInFlight = true
  waiting : ∀ cursor, ring.admitted ≤ cursor → cursor < ring.posted →
    (ring.slot cursor).state = .unposted

theorem staged_empty {capacity : Nat} (hcapacity : 0 < capacity) :
    (empty capacity : PacketRing P).Staged where
  ordered := ordered_empty hcapacity
  occupied cursor _ hlt := absurd hlt (Nat.not_lt_zero cursor)
  released cursor _ hlt := absurd hlt (Nat.not_lt_zero cursor)
  inFlight cursor _ hlt := absurd hlt (Nat.not_lt_zero cursor)
  waiting cursor _ hlt := absurd hlt (Nat.not_lt_zero cursor)

namespace Staged

variable (hring : ring.Staged)
include hring

theorem post {packet : P} {next : PacketRing P} (hpost : ring.post packet = .ok next) :
    next.Staged := by
  have htaken := hring.ordered.taken_le
  have hreleased := hring.ordered.released_le
  have hadmitted := hring.ordered.admitted_le
  have hslot : ∀ other, ring.taken ≤ other → other ≤ ring.posted → next.slot other =
      if other = ring.posted then .fresh packet else ring.slot other :=
    fun other hlow hhigh => hring.ordered.slot_post hpost ⟨hlow, hhigh⟩
  have hcursors : next.taken = ring.taken ∧ next.released = ring.released ∧
      next.admitted = ring.admitted ∧ next.posted = ring.posted + 1 := by
    obtain ⟨_, rfl⟩ := post_eq_ok_iff.mp hpost
    exact ⟨rfl, rfl, rfl, rfl⟩
  refine ⟨hring.ordered.post hpost, ?_, ?_, ?_, ?_⟩
  · intro cursor hlow hhigh
    rw [hslot cursor (by omega) (by omega)]
    split
    next => exact ⟨packet, rfl⟩
    next => exact hring.occupied cursor (by omega) (by omega)
  · intro cursor hlow hhigh
    rw [hslot cursor (by omega) (by omega), if_neg (by omega)]
    exact hring.released cursor (by omega) (by omega)
  · intro cursor hlow hhigh
    rw [hslot cursor (by omega) (by omega), if_neg (by omega)]
    exact hring.inFlight cursor (by omega) (by omega)
  · intro cursor hlow hhigh
    rw [hslot cursor (by omega) (by omega)]
    split
    next => rfl
    next => exact hring.waiting cursor (by omega) (by omega)

theorem pop {completed : CompletedPacket P} {next : PacketRing P}
    (hpop : ring.pop? = some (completed, next)) : next.Staged := by
  have htaken := hring.ordered.taken_le
  have hreleased := hring.ordered.released_le
  have hadmitted := hring.ordered.admitted_le
  have hslot : ∀ other, ring.taken < other → other < ring.posted →
      next.slot other = ring.slot other :=
    fun other hlow hhigh => hring.ordered.slot_pop hpop ⟨hlow, hhigh⟩
  have hcursors : next.taken = ring.taken + 1 ∧ next.released = ring.released ∧
      next.admitted = ring.admitted ∧ next.posted = ring.posted := by
    obtain ⟨_, _, _, rfl⟩ := pop?_eq_some_iff.mp hpop
    exact ⟨rfl, rfl, rfl, rfl⟩
  have horder := (hring.ordered.pop hpop).taken_le
  refine ⟨hring.ordered.pop hpop, ?_, ?_, ?_, ?_⟩
  · intro cursor hlow hhigh
    rw [hslot cursor (by omega) (by omega)]
    exact hring.occupied cursor (by omega) (by omega)
  · intro cursor hlow hhigh
    rw [hslot cursor (by omega) (by omega)]
    exact hring.released cursor (by omega) (by omega)
  · intro cursor hlow hhigh
    rw [hslot cursor (by omega) (by omega)]
    exact hring.inFlight cursor (by omega) (by omega)
  · intro cursor hlow hhigh
    rw [hslot cursor (by omega) (by omega)]
    exact hring.waiting cursor (by omega) (by omega)

theorem cancelUnposted : ring.cancelUnposted.2.Staged := by
  have htaken := hring.ordered.taken_le
  have hreleased := hring.ordered.released_le
  have hadmitted := hring.ordered.admitted_le
  obtain ⟨_, hkeep⟩ := cancelFrom_snd ring ring.admitted ring.unposted
  have hcursors : ring.cancelUnposted.2.taken = ring.taken ∧
      ring.cancelUnposted.2.released = ring.released ∧
      ring.cancelUnposted.2.admitted = ring.admitted ∧
      ring.cancelUnposted.2.posted = ring.posted := hkeep
  have hslot : ∀ other, ring.taken ≤ other → other < ring.posted →
      (ring.cancelUnposted.2.slot other).packet = (ring.slot other).packet ∧
        (ring.cancelUnposted.2.slot other).state = (ring.slot other).state := by
    intro other hlow hhigh
    rw [hring.ordered.slot_cancelUnposted ⟨hlow, hhigh⟩]
    split <;> exact ⟨rfl, rfl⟩
  refine ⟨hring.ordered.cancelUnposted, ?_, ?_, ?_, ?_⟩
  · intro cursor hlow hhigh
    rw [(hslot cursor (by omega) (by omega)).1]
    exact hring.occupied cursor (by omega) (by omega)
  · intro cursor hlow hhigh
    rw [(hslot cursor (by omega) (by omega)).2]
    exact hring.released cursor (by omega) (by omega)
  · intro cursor hlow hhigh
    rw [(hslot cursor (by omega) (by omega)).2]
    exact hring.inFlight cursor (by omega) (by omega)
  · intro cursor hlow hhigh
    rw [(hslot cursor (by omega) (by omega)).2]
    exact hring.waiting cursor (by omega) (by omega)

/-- One packet of the window changes its state and stands on the right side of every
cursor; the other packets stay where they were. -/
theorem restate {next : PacketRing P} {changed : Nat} {state : PacketState}
    (hordered : next.Ordered) (htaken : next.taken = ring.taken)
    (hposted : next.posted = ring.posted)
    (hslot : ∀ other, ring.taken ≤ other → other < ring.posted → next.slot other =
      if other = changed then { ring.slot other with state := state } else ring.slot other)
    (hreleased : ∀ cursor, cursor ≠ changed → (cursor < next.released ↔ cursor < ring.released))
    (hadmitted : ∀ cursor, cursor ≠ changed → (cursor < next.admitted ↔ cursor < ring.admitted))
    (hpast : changed < next.released → ∃ completion, state = .released completion)
    (hamid : next.released ≤ changed → changed < next.admitted → state.isInFlight = true)
    (hahead : next.admitted ≤ changed → state = .unposted) : next.Staged := by
  have hfirst := hordered.taken_le
  have hmiddle := hordered.released_le
  have hlast := hordered.admitted_le
  refine ⟨hordered, ?_, ?_, ?_, ?_⟩
  · intro cursor hlow hhigh
    rw [htaken] at hlow
    rw [hposted] at hhigh
    rw [hslot cursor hlow hhigh]
    split <;> exact hring.occupied cursor hlow hhigh
  · intro cursor hlow hhigh
    rw [hslot cursor (by omega) (by omega)]
    split
    next hself =>
      subst hself
      exact hpast hhigh
    next hother => exact hring.released cursor (by omega) ((hreleased cursor hother).mp hhigh)
  · intro cursor hlow hhigh
    rw [hslot cursor (by omega) (by omega)]
    split
    next hself =>
      subst hself
      exact hamid hlow hhigh
    next hother =>
      have hside := hreleased cursor hother
      exact hring.inFlight cursor (by omega) ((hadmitted cursor hother).mp hhigh)
  · intro cursor hlow hhigh
    rw [hslot cursor (by omega) (by omega)]
    split
    next hself =>
      subst hself
      exact hahead hlow
    next hother =>
      have hside := hadmitted cursor hother
      exact hring.waiting cursor (by omega) (by omega)

theorem admitNext {state : PacketState} (hroom : ring.admitted < ring.posted)
    (hstate : state.isInFlight = true) : (ring.admitNext state).Staged := by
  have hreleased := hring.ordered.released_le
  have hslot : ∀ other, ring.taken ≤ other → other < ring.posted →
      (ring.admitNext state).slot other =
        if other = ring.admitted then { ring.slot other with state := state }
        else ring.slot other :=
    fun other hlow hhigh => hring.ordered.slot_admitNext state hroom ⟨hlow, hhigh⟩
  refine hring.restate (hring.ordered.admitNext state hroom) rfl rfl hslot
    (fun _ _ => Iff.rfl) ?_ ?_ (fun _ _ => hstate) ?_
  · intro cursor hother
    change cursor < ring.admitted + 1 ↔ _
    omega
  · intro hpast
    change ring.admitted < ring.released at hpast
    omega
  · intro hahead
    exact absurd hahead (Nat.not_succ_le_self _)

theorem setPending (hbusy : ring.released < ring.admitted) :
    (ring.setState ring.released .completionPending).Staged := by
  have htaken := hring.ordered.taken_le
  have hadmitted := hring.ordered.admitted_le
  have hslot : ∀ other, ring.taken ≤ other → other < ring.posted →
      (ring.setState ring.released .completionPending).slot other =
        if other = ring.released then { ring.slot other with state := .completionPending }
        else ring.slot other :=
    fun other hlow hhigh => hring.ordered.slot_setState _ ⟨by omega, by omega⟩ ⟨hlow, hhigh⟩
  refine hring.restate (hring.ordered.setState _ _) rfl rfl hslot (fun _ _ => Iff.rfl)
    (fun _ _ => Iff.rfl) ?_ (fun _ _ => rfl) ?_
  · intro hpast
    exact absurd hpast (Nat.lt_irrefl _)
  · intro hahead
    exact absurd hbusy (Nat.not_lt.mpr hahead)

theorem release (completion : Completion) (hbusy : ring.released < ring.admitted) :
    (ring.release completion).Staged := by
  have hslot : ∀ other, ring.taken ≤ other → other < ring.posted →
      (ring.release completion).slot other =
        if other = ring.released then { ring.slot other with state := .released completion }
        else ring.slot other :=
    fun other hlow hhigh => hring.ordered.slot_release completion hbusy ⟨hlow, hhigh⟩
  refine hring.restate (hring.ordered.release completion hbusy) rfl rfl hslot ?_
    (fun _ _ => Iff.rfl) (fun _ => ⟨completion, rfl⟩) ?_ ?_
  · intro cursor hother
    change cursor < ring.released + 1 ↔ _
    omega
  · intro hamid
    exact absurd hamid (Nat.not_succ_le_self _)
  · intro hahead
    exact absurd hbusy (Nat.not_lt.mpr hahead)

end Staged

end PacketRing

end TransmitQueue
