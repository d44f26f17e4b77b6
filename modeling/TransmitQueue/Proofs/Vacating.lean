import TransmitQueue.Proofs.Staging

/-!
# Vacating the oldest slot

What a pop does to a ring, and why it can be done early: as long as the oldest packet is
released, its slot is none that an attempt, a look, a cancellation or a post writes, wherever
the cursors stand in the array.
-/

namespace TransmitQueue.PacketRing

variable {P : Type} {ring next : PacketRing P} {completed : CompletedPacket P}

/-- The ring after the slot of its oldest packet was vacated. -/
def vacated (ring : PacketRing P) : PacketRing P :=
  { ring.setSlot ring.taken .vacant with taken := ring.taken + 1 }

/-- A ring whose oldest packet is released and will be handed back as `completed`. -/
structure Ripe (ring : PacketRing P) (completed : CompletedPacket P) : Prop where
  staged : ring.Staged
  taken_lt : ring.taken < ring.released
  state_eq : (ring.slot ring.taken).state = .released completed.completion
  packet_eq : (ring.slot ring.taken).packet = some completed.packet

theorem Staged.exists_ripe (hstaged : ring.Staged) (hreclaimable : 0 < ring.reclaimable) :
    ∃ completed, ring.Ripe completed := by
  have hlt : ring.taken < ring.released := Nat.lt_of_sub_pos hreclaimable
  have hposted := Nat.le_trans hstaged.ordered.released_le hstaged.ordered.admitted_le
  obtain ⟨packet, hpacket⟩ :=
    hstaged.occupied ring.taken (Nat.le_refl _) (Nat.lt_of_lt_of_le hlt hposted)
  obtain ⟨completion, hstate⟩ := hstaged.released ring.taken (Nat.le_refl _) hlt
  exact ⟨⟨packet, completion⟩, hstaged, hlt, hstate, hpacket⟩

section Vacated

variable (ring)

@[simp] theorem capacity_vacated : ring.vacated.capacity = ring.capacity :=
  ring.capacity_setSlot _ _

variable {ring}

theorem slot_vacated {cursor : Nat} (happart : ring.position cursor ≠ ring.position ring.taken) :
    ring.vacated.slot cursor = ring.slot cursor := ring.slot_setSlot_of_ne .vacant happart

/-- Writes to another slot can be made before or after. -/
theorem vacated_setSlot {cursor : Nat} (slot : RingSlot P)
    (happart : ring.position cursor ≠ ring.position ring.taken) :
    (ring.setSlot cursor slot).vacated = ring.vacated.setSlot cursor slot := by
  unfold position capacity at happart
  simp only [vacated, setSlot, position, capacity, List.length_set]
  rw [List.set_comm _ _ happart]

theorem vacated_setState {cursor : Nat} (state : PacketState)
    (happart : ring.position cursor ≠ ring.position ring.taken) :
    (ring.setState cursor state).vacated = ring.vacated.setState cursor state := by
  unfold setState
  rw [vacated_setSlot _ happart, slot_vacated happart]

theorem vacated_admitNext (state : PacketState)
    (happart : ring.position ring.admitted ≠ ring.position ring.taken) :
    (ring.admitNext state).vacated = ring.vacated.admitNext state :=
  congrArg (fun marked : PacketRing P => { marked with admitted := ring.admitted + 1 })
    (vacated_setState state happart)

theorem vacated_release (completion : Completion)
    (happart : ring.position ring.released ≠ ring.position ring.taken) :
    (ring.release completion).vacated = ring.vacated.release completion :=
  congrArg (fun marked : PacketRing P => { marked with released := ring.released + 1 })
    (vacated_setState (.released completion) happart)

/-- So can a walk of cancellations over other slots. -/
theorem vacated_cancelFrom (ring : PacketRing P) (cursor count : Nat)
    (happart : ∀ other, cursor ≤ other → other < cursor + count →
      ring.position other ≠ ring.position ring.taken) :
    (ring.vacated.cancelFrom cursor count).1 = (ring.cancelFrom cursor count).1 ∧
      (ring.vacated.cancelFrom cursor count).2 = (ring.cancelFrom cursor count).2.vacated := by
  induction count generalizing ring cursor with
  | zero => exact ⟨rfl, rfl⟩
  | succ count ih =>
      have hhere := happart cursor (Nat.le_refl _) (by omega)
      have hposition : ∀ other, (ring.setSlot cursor
          { ring.slot cursor with cancelled := true }).position other = ring.position other :=
        position_congr (ring.capacity_setSlot _ _)
      have hrest := ih (ring.setSlot cursor { ring.slot cursor with cancelled := true })
        (cursor + 1) fun other hlow hhigh => by
          rw [hposition, hposition]
          exact happart other (by omega) (by omega)
      rw [vacated_setSlot _ hhere] at hrest
      unfold cancelFrom
      dsimp only
      rw [slot_vacated hhere, hrest.1]
      exact ⟨rfl, hrest.2⟩

end Vacated

namespace Ripe

variable (hripe : ring.Ripe completed)
include hripe

theorem pop?_eq : ring.pop? = some (completed, ring.vacated) :=
  pop?_eq_some_iff.mpr ⟨Nat.ne_of_lt hripe.taken_lt, hripe.state_eq, hripe.packet_eq, rfl⟩

/-- No cursor from the release cursor to the end of the ring shares the slot of the oldest
packet, wherever the array wraps around. -/
theorem position_ne {cursor : Nat} (hlow : ring.released ≤ cursor)
    (hhigh : cursor < ring.taken + ring.capacity) :
    ring.position cursor ≠ ring.position ring.taken :=
  (position_ne_of_lt (Nat.lt_of_lt_of_le hripe.taken_lt hlow) hhigh).symm

/-- A packet released stays what it is until it is taken. -/
theorem of_slot_eq (hstaged : next.Staged) (htaken : next.taken = ring.taken)
    (hreleased : ring.released ≤ next.released)
    (hslot : next.slot ring.taken = ring.slot ring.taken) : next.Ripe completed where
  staged := hstaged
  taken_lt := htaken ▸ Nat.lt_of_lt_of_le hripe.taken_lt hreleased
  state_eq := by rw [htaken, hslot, hripe.state_eq]
  packet_eq := by rw [htaken, hslot, hripe.packet_eq]

theorem taken_lt_posted : ring.taken < ring.posted :=
  Nat.lt_of_lt_of_le hripe.taken_lt
    (Nat.le_trans hripe.staged.ordered.released_le hripe.staged.ordered.admitted_le)

theorem concluded (hready : ring.admitted < ring.posted) (admission : Queue.Admission) :
    (ring.concluded admission).Ripe completed := by
  have hreleased := hripe.staged.ordered.released_le
  refine hripe.of_slot_eq (hripe.staged.concluded hready admission) (ring.taken_concluded _)
    (Nat.le_of_eq (ring.released_concluded _).symm) ?_
  rw [hripe.staged.slot_concluded hready _ (Nat.le_refl _) hripe.taken_lt_posted,
    if_neg (Nat.ne_of_lt (Nat.lt_of_lt_of_le hripe.taken_lt hreleased))]

theorem vacated_concluded (hready : ring.admitted < ring.posted) (admission : Queue.Admission) :
    ring.vacated.concluded admission = (ring.concluded admission).vacated := by
  have happart := hripe.position_ne hripe.staged.ordered.released_le
    (Nat.lt_of_lt_of_le hready hripe.staged.ordered.posted_le)
  cases admission with
  | stalled => exact (vacated_setState .unposted happart).symm
  | _ => exact (vacated_admitNext _ happart).symm

theorem scanned (hbusy : ring.released < ring.admitted) (outcome : Option Completion) :
    (ring.scanned outcome).Ripe completed := by
  refine hripe.of_slot_eq (hripe.staged.scanned hbusy outcome) (ring.taken_scanned _) ?_ ?_
  · cases outcome with
    | none => exact Nat.le_refl _
    | some completion => exact Nat.le_succ _
  · rw [hripe.staged.slot_scanned hbusy _ (Nat.le_refl _) hripe.taken_lt_posted,
      if_neg (Nat.ne_of_lt hripe.taken_lt)]

theorem vacated_scanned (hbusy : ring.released < ring.admitted) (outcome : Option Completion) :
    ring.vacated.scanned outcome = (ring.scanned outcome).vacated := by
  have hadmitted := hripe.staged.ordered.admitted_le
  have happart := hripe.position_ne (Nat.le_refl _)
    (Nat.lt_of_lt_of_le hbusy (Nat.le_trans hadmitted hripe.staged.ordered.posted_le))
  cases outcome with
  | none => exact (vacated_setState .completionPending happart).symm
  | some completion => exact (vacated_release completion happart).symm

theorem cancelUnposted : ring.cancelUnposted.2.Ripe completed := by
  obtain ⟨_, htaken, hreleased, _⟩ := cancelFrom_snd ring ring.admitted ring.unposted
  have hwindow : ring.cancelUnposted.2.slot ring.taken = _ :=
    hripe.staged.ordered.slot_cancelUnposted ⟨Nat.le_refl _, hripe.taken_lt_posted⟩
  rw [if_neg (Nat.not_le.mpr (Nat.lt_of_lt_of_le hripe.taken_lt
    hripe.staged.ordered.released_le))] at hwindow
  exact hripe.of_slot_eq hripe.staged.cancelUnposted htaken (Nat.le_of_eq hreleased.symm) hwindow

theorem vacated_cancelUnposted :
    ring.vacated.cancelUnposted.1 = ring.cancelUnposted.1 ∧
      ring.vacated.cancelUnposted.2 = ring.cancelUnposted.2.vacated := by
  have hreleased := hripe.staged.ordered.released_le
  have hadmitted := hripe.staged.ordered.admitted_le
  have hposted := hripe.staged.ordered.posted_le
  refine ring.vacated_cancelFrom ring.admitted ring.unposted fun other hlow hhigh => ?_
  unfold unposted at hhigh
  exact hripe.position_ne (by omega) (by omega)

theorem post {packet : P} (hpost : ring.post packet = .ok next) : next.Ripe completed := by
  have hwindow : next.slot ring.taken = _ := hripe.staged.ordered.slot_post hpost
    ⟨Nat.le_refl _, Nat.le_of_lt hripe.taken_lt_posted⟩
  rw [if_neg (Nat.ne_of_lt hripe.taken_lt_posted)] at hwindow
  obtain ⟨_, hnext⟩ := post_eq_ok_iff.mp hpost
  exact hripe.of_slot_eq (hripe.staged.post hpost) (by rw [hnext]; rfl)
    (Nat.le_of_eq (by rw [hnext]; rfl)) hwindow

/-- A ring that took a packet takes it all the more after a pop. -/
theorem vacated_post {packet : P} (hpost : ring.post packet = .ok next) :
    ring.vacated.post packet = .ok next.vacated := by
  obtain ⟨hroom, rfl⟩ := post_eq_ok_iff.mp hpost
  have hspan : ¬ ring.capacity ≤ ring.posted - ring.taken := by simp [← isFull_iff, hroom]
  have hlow := hripe.taken_lt_posted
  have hreleased := hripe.staged.ordered.released_le
  have hadmitted := hripe.staged.ordered.admitted_le
  have happart : ring.position ring.posted ≠ ring.position ring.taken :=
    hripe.position_ne (by omega) (by omega)
  refine post_eq_ok_iff.mpr ⟨?_, ?_⟩
  · rw [Bool.eq_false_iff, Ne, isFull_iff, capacity_vacated]
    change ¬ ring.capacity ≤ ring.posted - (ring.taken + 1)
    omega
  · exact congrArg (fun marked : PacketRing P => { marked with posted := ring.posted + 1 })
      (vacated_setSlot (.fresh packet) happart)

end Ripe

end TransmitQueue.PacketRing
