import TransmitQueue.Proofs.Ring.Operations

/-!
# Cancellations of a ring

What the walk over the waiting packets counts and where it writes. The walk is no longer than the
ring, so it meets every slot at most once, and a second walk finds nothing to mark.
-/

namespace TransmitQueue.PacketRing

variable {P : Type} {ring : PacketRing P}

/-- How many of the packets from a cursor on are not marked as cancelled. -/
def unmarked (ring : PacketRing P) (cursor count : Nat) : Nat :=
  (List.range' cursor count).countP fun waiting => !(ring.slot waiting).cancelled

/-- Every waiting packet is marked as cancelled. -/
def AllCancelled (ring : PacketRing P) : Prop :=
  ∀ cursor, ring.admitted ≤ cursor → cursor < ring.posted → (ring.slot cursor).cancelled = true

theorem cancelFrom_fst (ring : PacketRing P) {cursor count : Nat} (hcount : count ≤ ring.capacity) :
    (ring.cancelFrom cursor count).1 = ring.unmarked cursor count := by
  induction count generalizing ring cursor with
  | zero => rfl
  | succ count ih =>
      -- The rest of the walk does not come back to the slot that is marked here.
      have hrest : (ring.setSlot cursor { ring.slot cursor with cancelled := true }).unmarked
          (cursor + 1) count = ring.unmarked (cursor + 1) count := by
        refine List.countP_congr fun waiting hwaiting => ?_
        obtain ⟨hlow, hhigh⟩ := List.mem_range'_1.mp hwaiting
        rw [slot_setSlot_window _ (by omega) (by omega) (by omega), if_neg (by omega)]
      have hlater : ((ring.setSlot cursor { ring.slot cursor with cancelled := true }).cancelFrom
          (cursor + 1) count).1 = _ := ih _ (by rw [capacity_setSlot]; omega)
      unfold cancelFrom
      dsimp only
      rw [hlater, hrest, unmarked, unmarked, List.range'_succ, List.countP_cons]
      cases (ring.slot cursor).cancelled <;> rfl

/-- A walk over packets that are marked already changes nothing. -/
theorem cancelFrom_of_cancelled {cursor count : Nat}
    (hcancelled : ∀ waiting, cursor ≤ waiting → waiting < cursor + count →
      (ring.slot waiting).cancelled = true) : ring.cancelFrom cursor count = (0, ring) := by
  induction count generalizing cursor with
  | zero => rfl
  | succ count ih =>
      have hhere := hcancelled cursor (Nat.le_refl _) (by omega)
      have hslot : { ring.slot cursor with cancelled := true } = ring.slot cursor := by
        rw [← hhere]
      unfold cancelFrom
      dsimp only
      rw [hslot, setSlot_self, hhere,
        ih fun waiting hlow hhigh => hcancelled waiting (by omega) (by omega)]
      rfl

/-- Slots that the walk does not meet stay as they were, whether they hold a packet or not. -/
theorem getElem?_cancelFrom (ring : PacketRing P) {cursor count position : Nat}
    (happart : ∀ waiting, cursor ≤ waiting → waiting < cursor + count →
      ring.position waiting ≠ position) :
    (ring.cancelFrom cursor count).2.slots[position]? = ring.slots[position]? := by
  induction count generalizing ring cursor with
  | zero => rfl
  | succ count ih =>
      have hposition : ∀ waiting, (ring.setSlot cursor
          { ring.slot cursor with cancelled := true }).position waiting = ring.position waiting :=
        position_congr (ring.capacity_setSlot _ _)
      have hrest : ((ring.setSlot cursor { ring.slot cursor with cancelled := true }).cancelFrom
          (cursor + 1) count).2.slots[position]? = _ := ih _ fun waiting hlow hhigh => by
        rw [hposition]
        exact happart waiting (by omega) (by omega)
      refine hrest.trans ?_
      exact List.getElem?_set_ne (happart cursor (Nat.le_refl _) (by omega))

namespace Ordered

variable (hring : ring.Ordered)
include hring

theorem unposted_le : ring.unposted ≤ ring.capacity := by
  have htaken := hring.taken_le
  have hreleased := hring.released_le
  have hspan := hring.posted_le
  unfold unposted
  omega

theorem allCancelled_cancelUnposted : ring.cancelUnposted.2.AllCancelled := by
  obtain ⟨_, _, _, hadmitted, hposted⟩ := cancelFrom_snd ring ring.admitted ring.unposted
  have hlow := Nat.le_trans hring.taken_le hring.released_le
  intro cursor hfirst hlast
  have hfirst : ring.admitted ≤ cursor := hadmitted ▸ hfirst
  have hlast : cursor < ring.posted := hposted ▸ hlast
  rw [hring.slot_cancelUnposted ⟨by omega, hlast⟩, if_pos hfirst]

/-- Cancelling again finds every waiting packet marked. -/
theorem cancelUnposted_cancelUnposted :
    ring.cancelUnposted.2.cancelUnposted = (0, ring.cancelUnposted.2) := by
  refine cancelFrom_of_cancelled fun waiting hfirst hlast => ?_
  refine hring.allCancelled_cancelUnposted waiting hfirst ?_
  unfold unposted at hlast
  omega

end Ordered

end TransmitQueue.PacketRing
