import TransmitQueue.Ring

/-!
# The live window of a ring

Two cursors less than a capacity apart have different slots. Inside such a window
a write is seen at its own cursor and nowhere else, whatever the cursors are
modulo the capacity.
-/

namespace TransmitQueue

/-- Two numbers less than a modulus apart leave different remainders. -/
theorem eq_of_mod_eq_of_near {first second modulus : Nat}
    (hsame : first % modulus = second % modulus) (hfirst : first < second + modulus)
    (hsecond : second < first + modulus) : first = second := by
  have hle : ∀ low high : Nat, low ≤ high → high < low + modulus →
      high % modulus = low % modulus → high = low := by
    intro low high hlow hhigh heq
    have hzero : (high - low) % modulus = 0 := Nat.sub_mod_eq_zero_of_mod_eq heq
    rw [Nat.mod_eq_of_lt (by omega)] at hzero
    omega
  rcases Nat.le_total first second with hlow | hlow
  · exact (hle first second hlow hsecond hsame.symm).symm
  · exact hle second first hlow hfirst hsame

namespace PacketRing

variable {P : Type} (ring : PacketRing P)

/-- The order that the cursors of a ring keep. -/
structure Ordered : Prop where
  capacity_pos : 0 < ring.capacity
  taken_le : ring.taken ≤ ring.released
  released_le : ring.released ≤ ring.admitted
  admitted_le : ring.admitted ≤ ring.posted
  posted_le : ring.posted ≤ ring.taken + ring.capacity

variable {ring}

theorem position_inj {first second : Nat} (hsame : ring.position first = ring.position second)
    (hfirst : first < second + ring.capacity) (hsecond : second < first + ring.capacity) :
    first = second := eq_of_mod_eq_of_near hsame hfirst hsecond

theorem position_ne_of_lt {first second : Nat} (hlow : first < second)
    (hnear : second < first + ring.capacity) : ring.position first ≠ ring.position second :=
  fun hsame => Nat.ne_of_lt hlow (position_inj hsame (by omega) hnear)

theorem position_lt (hcapacity : 0 < ring.capacity) (cursor : Nat) :
    ring.position cursor < ring.capacity := Nat.mod_lt cursor hcapacity

theorem position_congr {other : PacketRing P} (hcapacity : other.capacity = ring.capacity)
    (cursor : Nat) : other.position cursor = ring.position cursor := by
  unfold position
  rw [hcapacity]

variable (ring)

@[simp] theorem taken_setState (cursor : Nat) (state : PacketState) :
    (ring.setState cursor state).taken = ring.taken := rfl

@[simp] theorem released_setState (cursor : Nat) (state : PacketState) :
    (ring.setState cursor state).released = ring.released := rfl

@[simp] theorem admitted_setState (cursor : Nat) (state : PacketState) :
    (ring.setState cursor state).admitted = ring.admitted := rfl

@[simp] theorem posted_setState (cursor : Nat) (state : PacketState) :
    (ring.setState cursor state).posted = ring.posted := rfl

/-- A slot outside the ring reads as vacant and cannot be written, so this needs
no bound on the cursor. -/
@[simp] theorem setState_setState (cursor : Nat) (first second : PacketState) :
    (ring.setState cursor first).setState cursor second = ring.setState cursor second := by
  by_cases hposition : ring.position cursor < ring.slots.length
  · have hslot : (ring.setState cursor first).slot cursor =
        { ring.slot cursor with state := first } :=
      ring.slot_setSlot_self _ (Nat.zero_lt_of_lt hposition)
    rw [setState, hslot]
    simp only [setState, setSlot, position, capacity, List.length_set, List.set_set]
  · have hnone : ∀ slot, ring.setSlot cursor slot = ring := fun slot => by
      rw [setSlot, List.set_eq_of_length_le (Nat.le_of_not_lt hposition)]
    simp only [setState, hnone]

variable {ring}

/-- Writing back what a slot holds changes nothing. -/
theorem setSlot_self (cursor : Nat) : ring.setSlot cursor (ring.slot cursor) = ring := by
  by_cases hposition : ring.position cursor < ring.slots.length
  · have hslot : ring.slot cursor = ring.slots[ring.position cursor] := by
      rw [slot, List.getElem?_eq_getElem hposition]
      rfl
    rw [setSlot, hslot, List.set_getElem_self]
  · rw [setSlot, List.set_eq_of_length_le (Nat.le_of_not_lt hposition)]

theorem setState_self {cursor : Nat} {state : PacketState}
    (hstate : (ring.slot cursor).state = state) : ring.setState cursor state = ring := by
  subst hstate
  exact setSlot_self cursor

/-- A write inside a window, seen from any cursor of the window. -/
theorem slot_setSlot_window {cursor other : Nat} (slot : RingSlot P)
    (hcapacity : 0 < ring.capacity) (hcursor : cursor < other + ring.capacity)
    (hother : other < cursor + ring.capacity) :
    (ring.setSlot cursor slot).slot other = if other = cursor then slot else ring.slot other := by
  split
  next heq =>
    subst heq
    exact ring.slot_setSlot_self slot hcapacity
  next hne =>
    exact ring.slot_setSlot_of_ne slot fun hsame => hne (position_inj hsame hother hcursor)

/-- A change of state inside the live window. -/
theorem Ordered.slot_setState (hring : ring.Ordered) {cursor other : Nat} (state : PacketState)
    (hcursor : ring.taken ≤ cursor ∧ cursor < ring.posted)
    (hother : ring.taken ≤ other ∧ other < ring.posted) :
    (ring.setState cursor state).slot other =
      if other = cursor then { ring.slot other with state := state } else ring.slot other := by
  have hspan := hring.posted_le
  refine (slot_setSlot_window _ hring.capacity_pos (by omega) (by omega)).trans ?_
  split
  next heq => rw [heq]
  next => rfl

end PacketRing

end TransmitQueue
