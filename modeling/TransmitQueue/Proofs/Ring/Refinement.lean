import TransmitQueue.Proofs.Ring.Lists

/-!
# What a ring shows of its lists

A ring runs like its three lists: same answers, and the counts, the guards and the slots of the
live cursors tell what is in the lists. The lists keep every packet until it is popped. A packet
that is taken out of a released slot behind their back leaves a hole that no pop gets past.
-/

namespace TransmitQueue.PacketRing

variable {P : Type}

/-- What a ring shows of its packets is what its lists hold. -/
structure Shows (ring : PacketRing P) (lists : PacketLists P) : Prop where
  all_le : lists.all.length ≤ lists.capacity
  capacity_eq : ring.capacity = lists.capacity
  slot_eq : ∀ index entry, lists.all[index]? = some entry →
    ring.slot (ring.taken + index) = entry.slot
  isLive_iff : ∀ cursor, ring.isLive cursor = true ↔
    ∃ index < lists.all.length, cursor = ring.taken + index
  outstanding_eq : ring.outstanding = lists.inFlight.length + lists.waiting.length
  inFlight_eq : ring.inFlight = lists.inFlight.length
  unposted_eq : ring.unposted = lists.waiting.length
  reclaimable_eq : ring.reclaimable = lists.released.length
  isFull_iff : ring.isFull = true ↔ lists.all.length = lists.capacity

theorem Mirrors.shows {ring : PacketRing P} {lists : PacketLists P}
    (hmirrors : ring.Mirrors lists) : ring.Shows lists := by
  have hreleased := hmirrors.released_eq
  have hadmitted := hmirrors.admitted_eq
  have hposted := hmirrors.posted_eq
  have hlength := hmirrors.length_all
  constructor
  case all_le => exact hmirrors.length_all_le
  case capacity_eq => exact hmirrors.capacity_eq
  case slot_eq => exact fun index entry => hmirrors.spells_all.slot_eq
  case isLive_iff =>
    intro cursor
    refine decide_eq_true_iff.trans ⟨fun ⟨hlow, hhigh⟩ => ?_, ?_⟩
    · exact ⟨cursor - ring.taken, by omega, by omega⟩
    · rintro ⟨index, hindex, rfl⟩
      omega
  case outstanding_eq =>
    unfold outstanding
    omega
  case inFlight_eq => exact Nat.sub_eq_of_eq_add' hadmitted
  case unposted_eq => exact Nat.sub_eq_of_eq_add' hposted
  case reclaimable_eq => exact Nat.sub_eq_of_eq_add' hreleased
  case isFull_iff => exact hmirrors.isFull_iff

/-- The oldest released packet was taken out of its slot. -/
structure Robbed (ring : PacketRing P) : Prop where
  ordered : ring.Ordered
  taken_lt : ring.taken < ring.released
  packet_eq : (ring.slot ring.taken).packet = none

theorem Ordered.robbed_removePacket {ring : PacketRing P} (hring : ring.Ordered)
    (hsome : ring.taken < ring.released) : (ring.removePacket ring.taken).2.Robbed where
  ordered :=
    { capacity_pos := (ring.capacity_setSlot _ _).symm ▸ hring.capacity_pos
      taken_le := hring.taken_le
      released_le := hring.released_le
      admitted_le := hring.admitted_le
      posted_le := (ring.capacity_setSlot _ _).symm ▸ hring.posted_le }
  taken_lt := hsome
  packet_eq := congrArg RingSlot.packet (ring.slot_setSlot_self _ hring.capacity_pos)

namespace Robbed

variable {ring : PacketRing P} (hrobbed : ring.Robbed)
include hrobbed

theorem perform_pop : ring.perform .pop = (.popped none, ring) := by
  dsimp only [PacketRing.perform]
  cases hpop : ring.pop? with
  | none => rfl
  | some popped =>
      obtain ⟨_, _, hpacket, _⟩ := pop?_eq_some_iff.mp hpop
      rw [hrobbed.packet_eq] at hpacket
      cases hpacket

theorem of_packet_eq {next : PacketRing P} (hnext : next.Ordered)
    (htaken : next.taken = ring.taken) (hreleased : ring.released ≤ next.released)
    (hpacket : (next.slot ring.taken).packet = (ring.slot ring.taken).packet) : next.Robbed where
  ordered := hnext
  taken_lt := htaken.symm ▸ Nat.lt_of_lt_of_le hrobbed.taken_lt hreleased
  packet_eq := htaken.symm ▸ hpacket.trans hrobbed.packet_eq

/-- No operation brings the packet back or gets past its slot. -/
theorem perform (operation : RingOperation P) : (ring.perform operation).2.Robbed := by
  have hring := hrobbed.ordered
  have hlive : ring.taken ≤ ring.taken ∧ ring.taken < ring.posted :=
    ⟨Nat.le_refl _, Nat.lt_of_lt_of_le hrobbed.taken_lt
      (Nat.le_trans hring.released_le hring.admitted_le)⟩
  cases operation with
  | post packet =>
      dsimp only [PacketRing.perform]
      cases hpost : ring.post packet with
      | error packet => exact hrobbed
      | ok next =>
          have hslot := hring.slot_post hpost ⟨hlive.1, Nat.le_of_lt hlive.2⟩
          rw [if_neg (Nat.ne_of_lt hlive.2)] at hslot
          have hnext := hring.post hpost
          obtain ⟨_, rfl⟩ := post_eq_ok_iff.mp hpost
          exact hrobbed.of_packet_eq hnext rfl (Nat.le_refl _) (congrArg RingSlot.packet hslot)
  | dispatch state =>
      dsimp only [PacketRing.perform, nextUnposted?]
      by_cases hroom : ring.admitted < ring.posted
      · rw [if_pos hroom]
        refine hrobbed.of_packet_eq (hring.admitNext state hroom) rfl (Nat.le_refl _) ?_
        dsimp only
        rw [hring.slot_admitNext state hroom hlive]
        split <;> rfl
      · rw [if_neg hroom]
        exact hrobbed
  | release completion =>
      dsimp only [PacketRing.perform, oldestInFlight?]
      by_cases hbusy : ring.released < ring.admitted
      · rw [if_pos hbusy]
        refine hrobbed.of_packet_eq (hring.release completion hbusy) rfl (Nat.le_succ _) ?_
        dsimp only
        rw [hring.slot_release completion hbusy hlive]
        split <;> rfl
      · rw [if_neg hbusy]
        exact hrobbed
  | cancel =>
      obtain ⟨_, htaken, hreleased, _⟩ := cancelFrom_snd ring ring.admitted ring.unposted
      refine hrobbed.of_packet_eq hring.cancelUnposted htaken (Nat.le_of_eq hreleased.symm) ?_
      dsimp only [PacketRing.perform]
      rw [hring.slot_cancelUnposted hlive]
      split <;> rfl
  | pop =>
      rw [hrobbed.perform_pop]
      exact hrobbed

theorem performAll (operations : List (RingOperation P)) :
    (performAll PacketRing.perform ring operations).2.Robbed := by
  induction operations generalizing ring with
  | nil => exact hrobbed
  | cons operation rest ih => exact ih (hrobbed.perform operation)

end Robbed

/-- In every run a ring gives the answers of three first-in-first-out lists, and shows in the end
what they hold: it has its slots for their packets, in their order, and counts them as they are
counted. What is at the head of the first list was released. If that packet is taken out of its
slot instead of popped, the pops stop there for good: each answers that there is nothing, and
changes nothing. -/
theorem refines_three_lists {capacity : Nat} (hcapacity : 0 < capacity)
    (operations : List (RingOperation P)) :
    let rings := performAll PacketRing.perform (empty capacity) operations
    let lists := performAll PacketLists.perform { capacity := capacity } operations
    rings.1 = lists.1 ∧ lists.2.capacity = capacity ∧ rings.2.Shows lists.2 ∧
      (∀ entry ∈ lists.2.released, ∃ completion, entry.state = .released completion) ∧
      ∀ entry rest, lists.2.released = entry :: rest →
        (rings.2.removePacket rings.2.taken).1 = some entry.packet ∧
          ∀ later, let robbed :=
              (performAll PacketRing.perform (rings.2.removePacket rings.2.taken).2 later).2
            robbed.perform .pop = (.popped none, robbed) := by
  obtain ⟨hanswers, hmirrors⟩ := (mirrors_empty hcapacity).performAll operations
  have hsame := PacketLists.capacity_performAll { capacity := capacity } operations
  refine ⟨hanswers, hsame, hmirrors.shows, hmirrors.concluded, fun entry rest hhead => ?_⟩
  have hreleased := hmirrors.released_eq
  have hfirst := hmirrors.released
  rw [hhead] at hreleased hfirst
  rw [List.length_cons] at hreleased
  exact ⟨congrArg RingSlot.packet hfirst.1, fun later =>
    ((hmirrors.ordered.robbed_removePacket (by omega)).performAll later).perform_pop⟩

section Sample

/-- Two slots, the first of which is used again after its packet was cancelled. -/
def sampleOperations : List (RingOperation Nat) :=
  [.post 10, .post 11, .post 12, .cancel, .dispatch .admitted, .release .success, .cancel, .pop,
    .post 13, .pop, .dispatch .programmed, .release (.failed .skipped)]

theorem sample_refines_three_lists :
    0 < 2 ∧
      let last := performAll perform (empty 2) sampleOperations
      last.1 = [.posted none, .posted none, .posted (some 12), .cancelled 2, .moved true,
          .moved true, .cancelled 0, .popped (some ⟨10, .success⟩), .posted none, .popped none,
          .moved true, .moved true] ∧
        last.2.isFull = true ∧ last.2.slot 2 = .fresh 13 ∧
        (last.2.removePacket 1).2.perform .pop = (.popped none, (last.2.removePacket 1).2) := by
  obtain ⟨hanswers, _, hshows, _, hrobbed⟩ :=
    refines_three_lists (by decide : 0 < 2) sampleOperations
  exact ⟨by decide, hanswers, hshows.isFull_iff.mpr rfl, hshows.slot_eq 1 _ rfl,
    (hrobbed _ _ rfl).2 []⟩

end Sample

end TransmitQueue.PacketRing
