import TransmitQueue.Proofs.Fifo
import TransmitQueue.Proofs.Holdings

/-!
# The census of a queue

The states of all packets that a queue accepted, in the order of posting, also of those
that were popped. A move adds a packet to it, or changes the state of one, or leaves it as it
is; so what is counted in it changes by one packet at a time.
-/

namespace TransmitQueue

section Count

variable {α : Type} {items : List α} {choose : α → Bool} {index : Nat} {before after : α}

/-- What is counted in a list changes with one item as that item does. -/
theorem countP_set_add (hbefore : items[index]? = some before) :
    (items.set index after).countP choose + (choose before).toNat =
      items.countP choose + (choose after).toNat := by
  obtain ⟨hindex, rfl⟩ := List.getElem?_eq_some_iff.mp hbefore
  have hmember : choose items[index] = true → 0 < items.countP choose := fun hchosen =>
    List.countP_pos_iff.mpr ⟨_, List.getElem_mem hindex, hchosen⟩
  rw [List.countP_set hindex]
  cases hold : choose items[index] with
  | false => cases choose after <;> simp
  | true =>
      have hpos := hmember hold
      cases choose after <;> simp <;> omega

end Count

namespace Queue

variable {P H D : Type}

/-- The states of all packets that a queue accepted, in the order of posting. Those that
were popped had been released, and the others are as the ring has them. -/
def census (queue : Queue P H D) (popped : List (CompletedPacket P)) : List PacketState :=
  popped.map (fun packet => .released packet.completion) ++
    queue.ring.liveCursors.map fun cursor => (queue.ring.slot cursor).state

variable {queue next : Queue P H D} {popped : List (CompletedPacket P)}

theorem census_congr (htaken : next.ring.taken = queue.ring.taken)
    (hposted : next.ring.posted = queue.ring.posted)
    (hstate : ∀ cursor, queue.ring.taken ≤ cursor → cursor < queue.ring.posted →
      (next.ring.slot cursor).state = (queue.ring.slot cursor).state) :
    next.census popped = queue.census popped := by
  unfold census PacketRing.liveCursors
  rw [htaken, hposted]
  refine congrArg _ (List.map_congr_left fun cursor hcursor => ?_)
  obtain ⟨hlow, hhigh⟩ := List.mem_range'_1.mp hcursor
  exact hstate cursor hlow (by omega)

/-- A packet posted joins the census at its end. -/
theorem census_posted (hordered : queue.ring.Ordered) {packet : P} {ring : PacketRing P}
    (hpost : queue.ring.post packet = .ok ring) :
    ({ queue with ring := ring } : Queue P H D).census popped =
      queue.census popped ++ [.unposted] := by
  have htaken := hordered.taken_le
  have hreleased := hordered.released_le
  have hadmitted := hordered.admitted_le
  have hslot : ∀ cursor, queue.ring.taken ≤ cursor → cursor ≤ queue.ring.posted →
      ring.slot cursor = if cursor = queue.ring.posted then .fresh packet
        else queue.ring.slot cursor :=
    fun cursor hlow hhigh => hordered.slot_post hpost ⟨hlow, hhigh⟩
  have hcursors : ring.taken = queue.ring.taken ∧ ring.posted = queue.ring.posted + 1 := by
    obtain ⟨_, rfl⟩ := PacketRing.post_eq_ok_iff.mp hpost
    exact ⟨rfl, rfl⟩
  have hwindow : queue.ring.posted + 1 - queue.ring.taken =
      queue.ring.posted - queue.ring.taken + 1 := by omega
  unfold census PacketRing.liveCursors
  dsimp only
  rw [hcursors.1, hcursors.2, hwindow, List.range'_1_concat, List.map_append,
    List.map_singleton, hslot _ (by omega) (by omega), if_pos (by omega), List.append_assoc]
  refine congrArg _ (congrArg (· ++ _) (List.map_congr_left fun cursor hcursor => ?_))
  obtain ⟨hlow, hhigh⟩ := List.mem_range'_1.mp hcursor
  rw [hslot cursor hlow (by omega), if_neg (by omega)]

/-- A packet popped keeps its place in the census. -/
theorem census_popped (hordered : queue.ring.Ordered) {completed : CompletedPacket P}
    {ring : PacketRing P} (hpop : queue.ring.pop? = some (completed, ring)) :
    ({ queue with ring := ring } : Queue P H D).census (popped ++ [completed]) =
      queue.census popped := by
  have htaken := hordered.taken_le
  have hreleased := hordered.released_le
  have hadmitted := hordered.admitted_le
  have hslot : ∀ cursor, queue.ring.taken < cursor → cursor < queue.ring.posted →
      ring.slot cursor = queue.ring.slot cursor :=
    fun cursor hlow hhigh => hordered.slot_pop hpop ⟨hlow, hhigh⟩
  obtain ⟨hne, hstate, _, hring⟩ := PacketRing.pop?_eq_some_iff.mp hpop
  have hcursors : ring.taken = queue.ring.taken + 1 ∧ ring.posted = queue.ring.posted := by
    subst hring
    exact ⟨rfl, rfl⟩
  have hwindow : queue.ring.posted - queue.ring.taken =
      queue.ring.posted - (queue.ring.taken + 1) + 1 := by omega
  unfold census PacketRing.liveCursors
  dsimp only
  rw [hcursors.1, hcursors.2, hwindow, List.range'_succ, List.map_append, List.append_assoc,
    List.map_singleton, List.singleton_append, List.map_cons, hstate]
  refine congrArg _ (congrArg _ (List.map_congr_left fun cursor hcursor => ?_))
  obtain ⟨hlow, hhigh⟩ := List.mem_range'_1.mp hcursor
  rw [hslot cursor (by omega) (by omega)]

section Places

variable (hlength : popped.length = queue.ring.taken)
include hlength

/-- The packet of a live cursor has its place in the census. -/
theorem getElem?_census {cursor : Nat} (hlow : queue.ring.taken ≤ cursor)
    (hhigh : cursor < queue.ring.posted) :
    (queue.census popped)[cursor]? = some (queue.ring.slot cursor).state := by
  unfold census PacketRing.liveCursors
  rw [List.getElem?_append_right (by rw [List.length_map]; omega), List.length_map, hlength,
    List.getElem?_map, List.getElem?_range' (by omega), Option.map_some, Nat.one_mul,
    Nat.add_sub_cancel' hlow]

/-- Where one packet of the ring changes its state, the census changes in its place. -/
theorem census_set (htaken : next.ring.taken = queue.ring.taken)
    (hposted : next.ring.posted = queue.ring.posted) {changed : Nat} {state : PacketState}
    (hslot : ∀ cursor, queue.ring.taken ≤ cursor → cursor < queue.ring.posted →
      next.ring.slot cursor = if cursor = changed then
        { queue.ring.slot cursor with state := state } else queue.ring.slot cursor)
    (hlow : queue.ring.taken ≤ changed) :
    next.census popped = (queue.census popped).set changed state := by
  unfold census PacketRing.liveCursors
  rw [htaken, hposted, List.set_append_right _ _ (by rw [List.length_map]; omega),
    List.length_map, hlength]
  refine congrArg _ (List.ext_getElem (by simp) fun index hindex _ => ?_)
  rw [List.length_map, List.length_range'] at hindex
  rw [List.getElem_set, List.getElem_map, List.getElem_map, List.getElem_range',
    hslot _ (by omega) (by omega)]
  by_cases hchanged : queue.ring.taken + 1 * index = changed
  · rw [if_pos hchanged, if_pos (by omega)]
  · rw [if_neg hchanged, if_neg (by omega)]

end Places

variable [Packet P] [Device P H] [Adapter D] {packet : P} {calls : List (Event P)}

/-- A move that deals with no packet in flight leaves every state as it is, and adds at most
one packet, which waits. -/
theorem Moved.census_or {move : Move P H D} (hmoved : Moved queue move next)
    (hstaged : queue.ring.Staged) (hmove : move.isDealing = false) :
    let step : Step P H D := ⟨queue, move⟩
    next.census (popped ++ step.popped?.toList) = queue.census popped ∨
      next.census (popped ++ step.popped?.toList) = queue.census popped ++ [.unposted] := by
  have hsame : ∀ move : Move P H D, Step.popped? ⟨queue, move⟩ = none →
      next.census popped = queue.census popped →
      next.census (popped ++ (Step.popped? ⟨queue, move⟩).toList) = queue.census popped := by
    intro move hpopped hcensus
    rw [hpopped, Option.toList_none, List.append_nil]
    exact hcensus
  dsimp only
  cases hmoved with
  | posted packet ring hpost =>
      refine Or.inr ?_
      rw [show Step.popped? ⟨queue, .post packet⟩ = none from rfl, Option.toList_none,
        List.append_nil]
      exact census_posted hstaged.ordered hpost
  | popped completed ring hpop =>
      refine Or.inl ?_
      rw [show Step.popped? ⟨queue, .pop⟩ = some completed from
        congrArg (Option.map Prod.fst) hpop]
      exact census_popped hstaged.ordered hpop
  | cancelled =>
      obtain ⟨_, htaken, _, _, hposted⟩ :=
        queue.ring.cancelFrom_snd queue.ring.admitted queue.ring.unposted
      refine Or.inl (hsame .cancel rfl (census_congr htaken hposted ?_))
      intro cursor hlow hhigh
      change (queue.ring.cancelUnposted.2.slot cursor).state = _
      rw [hstaged.ordered.slot_cancelUnposted ⟨hlow, hhigh⟩]
      split <;> rfl
  | rejected => exact Or.inl (hsame _ rfl rfl)
  | nothingPopped hpop => exact Or.inl (hsame .pop (by simp [Step.popped?, hpop]) rfl)
  | quiet _ device adapter statistics hquiet =>
      refine Or.inl (hsame move ?_ rfl)
      cases move <;> first | rfl | cases hquiet
  | admitted | scanned => cases hmove

section Dealings

variable (hstaged : queue.ring.Staged) (hlength : popped.length = queue.ring.taken)
include hstaged hlength

/-- An attempt leaves its packet in the state that it ended in. -/
theorem Attempted.census_eq {admission : Admission}
    (hattempted : Attempted queue packet admission calls next)
    (hready : queue.ring.admitted < queue.ring.posted) :
    (queue.census popped)[queue.ring.admitted]? = some .unposted ∧
      next.census popped = (queue.census popped).set queue.ring.admitted admission.state := by
  have hfirst := Nat.le_trans hstaged.ordered.taken_le hstaged.ordered.released_le
  have hring := hattempted.ring_eq
  refine ⟨?_, census_set hlength (by simp [hring]) (by simp [hring]) ?_ hfirst⟩
  · rw [getElem?_census hlength hfirst hready, hstaged.waiting _ (Nat.le_refl _) hready]
  · intro cursor hlow hhigh
    rw [hring]
    exact hstaged.slot_concluded hready admission hlow hhigh

omit [Packet P] in
/-- A look leaves its packet in the state that it ended in. -/
theorem Scanned.census_eq {outcome : Option Completion}
    (hscanned : Scanned queue packet outcome calls next)
    (hbusy : queue.ring.released < queue.ring.admitted) :
    (queue.census popped)[queue.ring.released]? =
        some (queue.ring.slot queue.ring.released).state ∧
      next.census popped = (queue.census popped).set queue.ring.released (.afterScan outcome) := by
  have hfirst := hstaged.ordered.taken_le
  have hadmitted := hstaged.ordered.admitted_le
  have hring := hscanned.ring_eq
  refine ⟨getElem?_census hlength hfirst (by omega),
    census_set hlength (by simp [hring]) (by simp [hring]) ?_ hfirst⟩
  intro cursor hlow hhigh
  rw [hring]
  exact hstaged.slot_scanned hbusy outcome hlow hhigh

end Dealings

end Queue

end TransmitQueue
