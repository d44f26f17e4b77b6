import TransmitQueue.Proofs.Balance

/-!
# Adapters without faults

A scripted adapter without injected faults turns a mapping down only for want of capacity.
No more mappings are outstanding than packets are in flight, so capacity for as many as the
ring has slots is enough, and every packet that goes in place is mapped. The list it gets is
the one that the direct backend builds.
-/

namespace TransmitQueue

namespace ScriptedAdapter

/-- An adapter without injected faults, with capacity for a number of mappings. -/
structure FaultFree (slots : Nat) (adapter : ScriptedAdapter) : Prop where
  failSlot_eq : adapter.failSlot = none
  leading_eq : adapter.leading = 0
  callErrors_eq : adapter.callErrors = []
  slots_le : slots ≤ adapter.mapCapacity

variable {P : Type} [Packet P] {slots : Nat} {adapter : ScriptedAdapter}

/-- Without injected faults only capacity and the list's limit can fail a mapping. -/
theorem FaultFree.mapTransfer_eq (hfree : adapter.FaultFree slots) {size : Nat} (slot : Nat)
    (packet : P) (context : Vector UInt8 size) (list : SgList) :
    Adapter.mapTransfer adapter slot packet context list =
      let asked :=
        { adapter with calls := adapter.calls + 1, lastContextLength := some size }
      if adapter.mapCapacity ≤ adapter.outstanding then
        ⟨.error .insufficientResources, asked, context, list⟩
      else
        match list.pushFragments (Packet.fragments packet) with
        | (.error error, list) => ⟨.error error, asked, context, list⟩
        | (.ok (), list) =>
            ⟨.ok (), { asked with mapped := adapter.mapped ++ [slot] },
              .replicate size (slot.toUInt8 + 1), list⟩ := by
  simp only [Adapter.mapTransfer, transfer, hfree.callErrors_eq, hfree.leading_eq,
    hfree.failSlot_eq]
  rfl

/-- A mapping leaves the adapter without faults, and the list with the limit it had. -/
theorem FaultFree.mapTransfer (hfree : adapter.FaultFree slots) {size : Nat} (slot : Nat)
    (packet : P) (context : Vector UInt8 size) (list : SgList) :
    (Adapter.mapTransfer adapter slot packet context list).adapter.FaultFree slots ∧
      (Adapter.mapTransfer adapter slot packet context list).list.limit = list.limit := by
  have hlimit := list.limit_pushFragments (Packet.fragments packet)
  rw [hfree.mapTransfer_eq]
  dsimp only
  split
  next => exact ⟨{ hfree with }, rfl⟩
  next =>
    split
    next error left hpush =>
      rw [hpush] at hlimit
      exact ⟨{ hfree with }, hlimit⟩
    next left hpush =>
      rw [hpush] at hlimit
      exact ⟨{ hfree with }, hlimit⟩

/-- Where there is capacity and room in the list, the packet is mapped. -/
theorem FaultFree.mapTransfer_of_room (hfree : adapter.FaultFree slots)
    (hcapacity : adapter.outstanding < slots) {size : Nat} (slot : Nat) {packet : P}
    (context : Vector UInt8 size) {list sent : SgList}
    (hpush : list.pushFragments (Packet.fragments packet) = (.ok (), sent)) :
    (Adapter.mapTransfer adapter slot packet context list).answer = .ok () ∧
      (Adapter.mapTransfer adapter slot packet context list).list = sent := by
  have hroom := Nat.lt_of_lt_of_le hcapacity hfree.slots_le
  rw [hfree.mapTransfer_eq]
  dsimp only
  rw [if_neg (Nat.not_le.mpr hroom), hpush]
  exact ⟨rfl, rfl⟩

omit [Packet P] in
theorem FaultFree.buildPool (hfree : adapter.FaultFree slots) (config : Config) :
    (BouncePool.build config adapter : Traced P _).value.2.FaultFree slots := by
  have hallocated : ∀ length alignment limit,
      (Adapter.allocate adapter length alignment limit).2.FaultFree slots := by
    intro length alignment limit
    simp only [Adapter.allocate]
    split <;> exact { hfree with }
  unfold BouncePool.build
  split
  next => exact hfree
  next size _ =>
    dsimp only
    split
    next => exact hfree
    next =>
      have hmemory := hallocated (size * config.bounceBuffers) config.alignment.bytes
        config.maxAddress?
      rw [Traced.value_bind]
      split
      next => exact hmemory
      next => split <;> exact hmemory

end ScriptedAdapter

namespace Mapper

open ScriptedAdapter

variable {P : Type} {slots : Nat} {adapter : ScriptedAdapter} (mapper : Mapper) (slot : Nat)
  (list : SgList)

theorem faultFree_map [Packet P] (packet : P) (hfree : adapter.FaultFree slots) :
    (mapper.map slot packet list adapter).value.adapter.FaultFree slots ∧
      (mapper.map slot packet list adapter).value.slotList.limit = list.limit := by
  cases mapper with
  | direct scratch => exact ⟨hfree, rfl⟩
  | delegated contexts =>
      cases hblock : contexts.block? slot with
      | none =>
          simp only [map, hblock]
          exact ⟨hfree, rfl⟩
      | some context =>
          rw [map_delegated slot packet list adapter hblock]
          exact hfree.mapTransfer slot packet context list.clear

theorem faultFree_unmap (hfree : adapter.FaultFree slots)
    {returned : Traced P (Mapper × SgList × ScriptedAdapter)}
    (hunmap : mapper.unmap slot list adapter = returned) :
    returned.value.2.2.FaultFree slots ∧ returned.value.2.1.limit = list.limit := by
  subst hunmap
  cases mapper with
  | direct scratch => exact ⟨hfree, rfl⟩
  | delegated contexts =>
      cases hblock : contexts.block? slot with
      | none =>
          simp only [unmap, hblock]
          exact ⟨hfree, rfl⟩
      | some context =>
          rw [unmap_delegated slot list adapter hblock]
          exact ⟨{ hfree with }, rfl⟩

end Mapper

/-- A list of numbers that grow from one bound to another has no more of them than lie
between the bounds. -/
theorem length_le_of_increasing {cursors : List Nat} {low high : Nat}
    (hincreasing : cursors.Pairwise (· < ·))
    (hbounds : ∀ cursor ∈ cursors, low ≤ cursor ∧ cursor < high) :
    cursors.length ≤ high - low := by
  induction cursors generalizing low with
  | nil => exact Nat.zero_le _
  | cons first rest ih =>
      obtain ⟨hfirst, hrest⟩ := List.pairwise_cons.mp hincreasing
      have hlow := hbounds first List.mem_cons_self
      have habove : ∀ cursor ∈ rest, first + 1 ≤ cursor ∧ cursor < high := fun cursor hcursor =>
        ⟨hfirst cursor hcursor, (hbounds cursor (List.mem_cons_of_mem _ hcursor)).2⟩
      have hcount := ih hrest habove
      rw [List.length_cons]
      omega

namespace Queue

variable {P H : Type} [Packet P] [Device P H] {start queue next last : Queue P H ScriptedAdapter}
  {config : Config} {packet : P} {calls : List (Event P)}

/-- The list of a packet whose fragments are read where they lie. -/
def inPlaceList {D : Type} (queue : Queue P H D) (packet : P) : SgList :=
  ((SgList.ofLimit queue.config.elementLimit).pushFragments (Packet.fragments packet)).2

theorem pushFragments_of_decision {D : Type} {queue : Queue P H D}
    (hdecision : queue.decision packet = .transmitInPlace) :
    (SgList.ofLimit queue.config.elementLimit).pushFragments (Packet.fragments packet) =
      (.ok (), queue.inPlaceList packet) := by
  have hroom : (SgList.ofLimit queue.config.elementLimit).length +
      BounceAnalysis.descriptors (Packet.fragments packet) ≤ queue.config.elementLimit :=
    Nat.le_trans (Nat.le_of_eq (Nat.zero_add _)) (descriptors_of_decision hdecision)
  obtain ⟨list, hpush, _⟩ := SgList.pushFragments_of_descriptors_le _ _ hroom
  unfold inPlaceList
  rw [hpush]

/-- A queue whose adapter has no faults, and whose slots have lists of full length. -/
structure Obliging (queue : Queue P H ScriptedAdapter) : Prop where
  faultFree : queue.adapter.FaultFree queue.config.ringCapacity
  limit_eq : ∀ context ∈ queue.contexts, context.list.limit = queue.config.elementLimit

omit [Packet P] [Device P H] in
theorem Obliging.limit_context (hobliging : Obliging queue) {position : Nat}
    (hposition : position < queue.contexts.length) :
    (queue.context position).list.limit = queue.config.elementLimit := by
  unfold context
  rw [List.getElem?_eq_getElem hposition]
  exact hobliging.limit_eq _ (List.getElem_mem hposition)

omit [Packet P] [Device P H] in
theorem Obliging.limit_set (hobliging : Obliging queue) {position : Nat} {written : SlotContext}
    (hlist : written.list.limit = (queue.context position).list.limit) :
    ∀ context ∈ queue.contexts.set position written,
      context.list.limit = queue.config.elementLimit := by
  intro context hcontext
  by_cases hposition : position < queue.contexts.length
  · rcases List.mem_or_eq_of_mem_set hcontext with hkept | rfl
    · exact hobliging.limit_eq context hkept
    · exact hlist.trans (hobliging.limit_context hposition)
  · -- A position outside the contexts is never written.
    rw [List.set_eq_of_length_le (Nat.le_of_not_lt hposition)] at hcontext
    exact hobliging.limit_eq context hcontext

theorem Obliging.attempted {admission : Admission} (hobliging : Obliging queue)
    (hattempted : Attempted queue packet admission calls next) : Obliging next := by
  obtain ⟨hmapped, hlimit⟩ := queue.mapper.faultFree_map queue.admitPosition
    (queue.context queue.admitPosition).list packet hobliging.faultFree
  cases hattempted with
  | skip | refuse | bounceStall | bounceFail => exact { hobliging with }
  | bounce => exact { hobliging with limit_eq := hobliging.limit_set rfl }
  | map | mapStall | mapFail => exact ⟨hmapped, hobliging.limit_set hlimit⟩

omit [Packet P] in
theorem Obliging.scanned {outcome : Option Completion} (hobliging : Obliging queue)
    (hscanned : Scanned queue packet outcome calls next) : Obliging next := by
  cases hscanned with
  | pending => exact { hobliging with }
  | released completion asked returns settled returned hsettled hreturned =>
      obtain ⟨device, statistics, rfl⟩ := hsettled.exists_device
      cases hreturned with
      | unmapped => exact { hobliging with limit_eq := hobliging.limit_set rfl }
      | mapped mapper list adapter returned hmapped hunmap =>
          obtain ⟨hunmapped, hlimit⟩ := queue.mapper.faultFree_unmap queue.releasePosition
            (queue.context queue.releasePosition).list hobliging.faultFree hunmap
          exact ⟨hunmapped, hobliging.limit_set hlimit⟩

theorem Moved.obliging {move : Move P H ScriptedAdapter} (hmoved : Moved queue move next)
    (hnext : (queue.move move).value = next) (hspared : move.sparesAdapter = true)
    (hobliging : Obliging queue) : Obliging next := by
  cases move with
  | attempt =>
      obtain ⟨packet, admission, _, _, hattempted⟩ := hmoved.of_attempt
      exact hobliging.attempted hattempted
  | scan =>
      obtain ⟨packet, outcome, _, _, hscanned⟩ := hmoved.of_scan
      exact hobliging.scanned hscanned
  | changeAdapter change => cases hspared
  | _ =>
      obtain ⟨ring, device, statistics, hmove⟩ := queue.move_eq_of_sparesAdapter rfl hspared
      rw [← hnext, hmove]
      exact { hobliging with }

variable {steps : List (Step P H ScriptedAdapter)}

theorem Course.obliging (hcourse : Course start steps last) (hsound : start.Sound)
    (hspared : ∀ step ∈ steps, step.move.sparesAdapter = true)
    (hobliging : Obliging start) : Obliging last := by
  induction hcourse with
  | refl => exact hobliging
  | @snoc steps queue move before ready ih =>
      have hmoved := (before.sound hsound).moved ready
      have hqueue := ih fun step hstep => hspared step (List.mem_append_left _ hstep)
      exact hmoved.obliging rfl
        (hspared ⟨queue, move⟩ (List.mem_append_right _ (List.mem_singleton_self _))) hqueue

omit [Packet P] [Device P H] in
theorem obliging_build {device : H} {adapter : ScriptedAdapter}
    (hbuild : (build config device adapter).value = .ok queue)
    (hdelegated : queue.backend = .delegated)
    (hfree : adapter.FaultFree config.ringCapacity) : Obliging queue := by
  obtain ⟨pool, _, rfl⟩ := build_eq_ok hbuild
  refine ⟨hfree.buildPool config, fun context hcontext => ?_⟩
  rw [(List.mem_replicate.mp hcontext).2]
  unfold backend at hdelegated
  simp only [Mapper.slotListLimit, hdelegated, SgList.limit_ofLimit]

/-- No more mappings are outstanding than packets are in flight. -/
theorem Course.outstanding_le (hcourse : Course start steps last) (hbuilt : Built config start)
    (hspared : ∀ step ∈ steps, step.move.sparesAdapter = true)
    (hmapped : start.adapter.mapped = []) (hunmapped : start.adapter.unmapped = []) :
    last.adapter.outstanding ≤ last.inFlight := by
  have hlogged := hcourse.logged hbuilt.sound fun step hstep change hmove =>
    nomatch hmove ▸ hspared step hstep
  have hbalanced := hcourse.balanced hbuilt hlogged hmapped hunmapped
  have hbackend := (hcourse.laidOut hbuilt).backend_eq
  unfold ScriptedAdapter.outstanding
  cases hlast : last.backend with
  | direct =>
      rw [(hbalanced.of_direct hlast).1]
      exact Nat.le_trans (Nat.sub_le _ _) (Nat.zero_le _)
  | delegated =>
      have hincreasing : (placements steps).Pairwise (· < ·) := by
        rw [hcourse.placements_eq hbuilt (hbackend.symm.trans hlast), List.pairwise_map]
        exact (hcourse.lends hbuilt).increasing
      have hcount := length_le_of_increasing (hincreasing.filter fun cursor =>
          decide (last.ring.released ≤ cursor ∧ cursor < last.ring.admitted))
        fun cursor hcursor => of_decide_eq_true (List.mem_filter.mp hcursor).2
      rw [hbalanced.of_delegated hlast, List.length_append, List.length_map,
        Nat.add_sub_cancel_left]
      exact hcount

/-- The direct backend maps every packet that goes in place. -/
theorem inPlaceList_of_direct {D : Type} [Adapter D] {start queue : Queue P H D}
    (hlaid : LaidOut start queue) (hdirect : queue.backend = .direct)
    (hdecision : queue.decision packet = .transmitInPlace) :
    (queue.mapping packet).value.answer = .ok (queue.inPlaceList packet) := by
  have hfits := hlaid.mapper_fits
  have hpush := pushFragments_of_decision hdecision
  unfold backend at hdirect
  unfold mapping
  cases hmapper : queue.mapper with
  | delegated contexts =>
      rw [hmapper] at hdirect
      cases hdirect
  | direct scratch =>
      rw [hmapper, ← hlaid.config_eq] at hfits
      have hclear : scratch.clear = .ofLimit queue.config.elementLimit :=
        congrArg SgList.ofLimit hfits
      change (Mapper.mapDirect scratch packet).1 = _
      rw [Mapper.mapDirect_answer, hclear, hpush]
      rfl

/-- A delegated mapping without faults gives the same list. -/
theorem Obliging.inPlaceList (hobliging : Obliging queue) (hbuilt : Built config start)
    (hlaid : LaidOut start queue) (hdelegated : queue.backend = .delegated)
    (hcapacity : queue.adapter.outstanding < queue.config.ringCapacity)
    (hdecision : queue.decision packet = .transmitInPlace) :
    (queue.mapping packet).value.answer = .ok (queue.inPlaceList packet) := by
  have hfits := hlaid.mapper_fits
  have hpush := pushFragments_of_decision hdecision
  have hposition : queue.admitPosition < start.config.ringCapacity := by
    have hpos := hbuilt.ringCapacity_pos
    rw [← hbuilt.config_eq, ← hlaid.capacity_eq] at hpos
    rw [← hlaid.capacity_eq]
    exact PacketRing.position_lt hpos _
  have hclear : (queue.context queue.admitPosition).list.clear =
      .ofLimit queue.config.elementLimit :=
    congrArg SgList.ofLimit (hobliging.limit_context (hlaid.contexts_length ▸ hposition))
  unfold backend at hdelegated
  unfold mapping
  cases hmapper : queue.mapper with
  | direct scratch =>
      rw [hmapper] at hdelegated
      cases hdelegated
  | @delegated slots stride contexts =>
      rw [hmapper] at hfits
      have hsome : (contexts.block? queue.admitPosition).isSome = true := by
        rw [contexts.isSome_block?_iff, show slots = start.config.ringCapacity from hfits]
        exact hposition
      obtain ⟨context, hblock⟩ := Option.isSome_iff_exists.mp hsome
      obtain ⟨hanswer, hsent⟩ := hobliging.faultFree.mapTransfer_of_room hcapacity
        queue.admitPosition context hpush
      rw [Mapper.map_delegated _ _ _ _ hblock, hclear]
      dsimp only
      rw [hanswer, hsent]
      rfl

end Queue

end TransmitQueue
