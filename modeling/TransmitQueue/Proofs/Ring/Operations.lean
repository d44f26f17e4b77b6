import TransmitQueue.Proofs.Ring.Window

/-!
# Ring operations

What each operation of a ring does to the cursors, and which slots of the live
window it changes.
-/

namespace TransmitQueue.PacketRing

variable {P : Type} (ring : PacketRing P)

@[simp] theorem capacity_admitNext (state : PacketState) :
    (ring.admitNext state).capacity = ring.capacity := ring.capacity_setState _ _

@[simp] theorem capacity_release (completion : Completion) :
    (ring.release completion).capacity = ring.capacity := ring.capacity_setState _ _

theorem ordered_empty {capacity : Nat} (hcapacity : 0 < capacity) :
    (empty capacity : PacketRing P).Ordered where
  capacity_pos := by rwa [capacity_empty]
  taken_le := Nat.le_refl 0
  released_le := Nat.le_refl 0
  admitted_le := Nat.le_refl 0
  posted_le := Nat.zero_le _

theorem isFull_iff : ring.isFull = true ↔ ring.capacity ≤ ring.posted - ring.taken := by
  simp [isFull]

/-- Cancelling walks over the waiting packets one by one; only their marks change. -/
theorem cancelFrom_snd (ring : PacketRing P) (cursor count : Nat) :
    (ring.cancelFrom cursor count).2.capacity = ring.capacity ∧
      (ring.cancelFrom cursor count).2.taken = ring.taken ∧
      (ring.cancelFrom cursor count).2.released = ring.released ∧
      (ring.cancelFrom cursor count).2.admitted = ring.admitted ∧
      (ring.cancelFrom cursor count).2.posted = ring.posted := by
  induction count generalizing ring cursor with
  | zero => exact ⟨rfl, rfl, rfl, rfl, rfl⟩
  | succ count ih =>
      have hrest := ih (ring.setSlot cursor { ring.slot cursor with cancelled := true })
        (cursor + 1)
      rw [capacity_setSlot] at hrest
      exact hrest

theorem slot_cancelFrom (ring : PacketRing P) {cursor count other : Nat}
    (hcapacity : 0 < ring.capacity) (hlow : cursor + count ≤ other + ring.capacity)
    (hhigh : other < cursor + ring.capacity) :
    (ring.cancelFrom cursor count).2.slot other =
      if cursor ≤ other ∧ other < cursor + count then
        { ring.slot other with cancelled := true } else ring.slot other := by
  induction count generalizing ring cursor with
  | zero =>
      rw [if_neg (by omega)]
      rfl
  | succ count ih =>
      have hwrite := slot_setSlot_window { ring.slot cursor with cancelled := true }
        hcapacity (by omega : cursor < other + ring.capacity) hhigh
      -- The walk is shorter than the ring, so it does not come back to a slot it has marked.
      have hrest := ih (ring.setSlot cursor { ring.slot cursor with cancelled := true })
        (by rwa [capacity_setSlot])
        (by rw [capacity_setSlot]; omega : cursor + 1 + count ≤ other + _)
        (by rw [capacity_setSlot]; omega)
      have hunfold : (ring.cancelFrom cursor (count + 1)).2 =
          ((ring.setSlot cursor { ring.slot cursor with cancelled := true }).cancelFrom
            (cursor + 1) count).2 := rfl
      rw [hunfold, hrest, hwrite]
      by_cases hhere : other = cursor
      · subst hhere
        rw [if_neg (by omega), if_pos rfl, if_pos (by omega)]
      · by_cases hinside : cursor < other ∧ other < cursor + (count + 1)
        · rw [if_pos (by omega), if_neg hhere, if_pos (by omega)]
        · rw [if_neg (by omega), if_neg hhere, if_neg (by omega)]

variable {ring}

/-- A post succeeds where a slot is left, and fills the slot behind the last packet. -/
theorem post_eq_ok_iff {packet : P} {next : PacketRing P} :
    ring.post packet = .ok next ↔ ring.isFull = false ∧
      next = { ring.setSlot ring.posted (.fresh packet) with posted := ring.posted + 1 } := by
  unfold post
  cases ring.isFull with
  | true => simp
  | false =>
      simp only [Bool.false_eq_true, if_false, Except.ok.injEq, true_and]
      exact eq_comm

/-- The packet that a pop hands back was released, and its slot is vacated. -/
theorem pop?_eq_some_iff {completed : CompletedPacket P} {next : PacketRing P} :
    ring.pop? = some (completed, next) ↔
      ring.taken ≠ ring.released ∧
        (ring.slot ring.taken).state = .released completed.completion ∧
        (ring.slot ring.taken).packet = some completed.packet ∧
        next = { ring.setSlot ring.taken .vacant with taken := ring.taken + 1 } := by
  unfold pop?
  split
  next hnone => simp [hnone]
  next hsome =>
    obtain ⟨packet, completion⟩ := completed
    split
    next hstate hpacket =>
      rw [hstate, hpacket]
      simp only [Option.some.injEq, Prod.mk.injEq, CompletedPacket.mk.injEq,
        PacketState.released.injEq]
      constructor
      · rintro ⟨⟨rfl, rfl⟩, rfl⟩
        exact ⟨hsome, rfl, rfl, rfl⟩
      · rintro ⟨_, rfl, rfl, rfl⟩
        exact ⟨⟨rfl, rfl⟩, rfl⟩
    next hother =>
      constructor
      · intro hcontra
        cases hcontra
      · rintro ⟨_, hstate, hpacket, _⟩
        exact False.elim (hother _ _ hstate hpacket)

namespace Ordered

variable (hring : ring.Ordered)
include hring

theorem setState (cursor : Nat) (state : PacketState) : (ring.setState cursor state).Ordered where
  capacity_pos := by rw [capacity_setState]; exact hring.capacity_pos
  taken_le := hring.taken_le
  released_le := hring.released_le
  admitted_le := hring.admitted_le
  posted_le := by rw [capacity_setState]; exact hring.posted_le

theorem post {packet : P} {next : PacketRing P} (hpost : ring.post packet = .ok next) :
    next.Ordered := by
  obtain ⟨hroom, rfl⟩ := post_eq_ok_iff.mp hpost
  have hroom : ¬ ring.capacity ≤ ring.posted - ring.taken := by simp [← isFull_iff, hroom]
  have horder := hring.admitted_le
  have hspan := hring.posted_le
  exact
    { capacity_pos := by simpa [capacity, setSlot] using hring.capacity_pos
      taken_le := hring.taken_le
      released_le := hring.released_le
      admitted_le := Nat.le_succ_of_le horder
      posted_le := by
        change ring.posted + 1 ≤ ring.taken + (ring.setSlot ring.posted _).capacity
        rw [capacity_setSlot]
        omega }

/-- Posting fills the slot behind the last packet and leaves the window as it was. -/
theorem slot_post {packet : P} {next : PacketRing P} (hpost : ring.post packet = .ok next)
    {other : Nat} (hother : ring.taken ≤ other ∧ other ≤ ring.posted) :
    next.slot other = if other = ring.posted then .fresh packet else ring.slot other := by
  obtain ⟨hroom, rfl⟩ := post_eq_ok_iff.mp hpost
  have hroom : ¬ ring.capacity ≤ ring.posted - ring.taken := by simp [← isFull_iff, hroom]
  exact slot_setSlot_window (.fresh packet) hring.capacity_pos (by omega) (by omega)

theorem admitNext (state : PacketState) (hroom : ring.admitted < ring.posted) :
    (ring.admitNext state).Ordered where
  capacity_pos := by rw [capacity_admitNext]; exact hring.capacity_pos
  taken_le := hring.taken_le
  released_le := Nat.le_succ_of_le hring.released_le
  admitted_le := hroom
  posted_le := by rw [capacity_admitNext]; exact hring.posted_le

theorem slot_admitNext {other : Nat} (state : PacketState) (hroom : ring.admitted < ring.posted)
    (hother : ring.taken ≤ other ∧ other < ring.posted) :
    (ring.admitNext state).slot other =
      if other = ring.admitted then { ring.slot other with state := state }
      else ring.slot other :=
  hring.slot_setState state ⟨Nat.le_trans hring.taken_le hring.released_le, hroom⟩ hother

theorem release (completion : Completion) (hbusy : ring.released < ring.admitted) :
    (ring.release completion).Ordered where
  capacity_pos := by rw [capacity_release]; exact hring.capacity_pos
  taken_le := Nat.le_succ_of_le hring.taken_le
  released_le := hbusy
  admitted_le := hring.admitted_le
  posted_le := by rw [capacity_release]; exact hring.posted_le

theorem slot_release {other : Nat} (completion : Completion)
    (hbusy : ring.released < ring.admitted)
    (hother : ring.taken ≤ other ∧ other < ring.posted) :
    (ring.release completion).slot other =
      if other = ring.released then { ring.slot other with state := .released completion }
      else ring.slot other :=
  hring.slot_setState (.released completion)
    ⟨hring.taken_le, Nat.lt_of_lt_of_le hbusy hring.admitted_le⟩ hother

theorem cancelUnposted : ring.cancelUnposted.2.Ordered := by
  obtain ⟨hcapacity, htaken, hreleased, hadmitted, hposted⟩ :=
    cancelFrom_snd ring ring.admitted ring.unposted
  constructor <;> unfold PacketRing.cancelUnposted
  · rw [hcapacity]; exact hring.capacity_pos
  · rw [htaken, hreleased]; exact hring.taken_le
  · rw [hreleased, hadmitted]; exact hring.released_le
  · rw [hadmitted, hposted]; exact hring.admitted_le
  · rw [hposted, htaken, hcapacity]; exact hring.posted_le

/-- Cancelling marks the packets that wait for admission, and no others. -/
theorem slot_cancelUnposted {other : Nat} (hother : ring.taken ≤ other ∧ other < ring.posted) :
    ring.cancelUnposted.2.slot other =
      if ring.admitted ≤ other then { ring.slot other with cancelled := true }
      else ring.slot other := by
  have hlow := Nat.le_trans hring.taken_le hring.released_le
  have hwaiting := hring.admitted_le
  have hspan := hring.posted_le
  unfold PacketRing.cancelUnposted PacketRing.unposted
  rw [slot_cancelFrom ring hring.capacity_pos (by omega) (by omega)]
  by_cases hadmitted : ring.admitted ≤ other
  · rw [if_pos (by omega), if_pos hadmitted]
  · rw [if_neg (by omega), if_neg hadmitted]

theorem pop {completed : CompletedPacket P} {next : PacketRing P}
    (hpop : ring.pop? = some (completed, next)) : next.Ordered := by
  obtain ⟨hne, _, _, rfl⟩ := pop?_eq_some_iff.mp hpop
  have horder := hring.taken_le
  have hspan := hring.posted_le
  exact
    { capacity_pos := by simpa [capacity, setSlot] using hring.capacity_pos
      taken_le := Nat.lt_of_le_of_ne horder hne
      released_le := hring.released_le
      admitted_le := hring.admitted_le
      posted_le := by
        change ring.posted ≤ ring.taken + 1 + (ring.setSlot ring.taken _).capacity
        rw [capacity_setSlot]
        omega }

/-- Popping leaves every other packet of the window as it was. -/
theorem slot_pop {completed : CompletedPacket P} {next : PacketRing P}
    (hpop : ring.pop? = some (completed, next)) {other : Nat}
    (hother : ring.taken < other ∧ other < ring.posted) : next.slot other = ring.slot other := by
  obtain ⟨_, _, _, rfl⟩ := pop?_eq_some_iff.mp hpop
  have hspan := hring.posted_le
  have hwrite := slot_setSlot_window .vacant hring.capacity_pos
    (by omega : ring.taken < other + ring.capacity) (by omega)
  rw [if_neg (by omega)] at hwrite
  exact hwrite

end Ordered

end TransmitQueue.PacketRing
