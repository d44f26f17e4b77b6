import TransmitQueue.Proofs.AdapterLog
import TransmitQueue.Proofs.Isolation

/-!
# Balance of mappings

The slots that a scripted adapter unmapped are the first of those that it mapped, and the
others are those of the packets in flight that were handed to the device where they lie.
A mapping is returned when its packet is released, and not before the device was done
with the packet.
-/

namespace TransmitQueue

variable {P H D : Type} [Packet P] [Device P H] [Adapter D]

/-- The cursor of the packet that a step hands to the device where the packet lies. -/
def Step.placed? (step : Step P H D) : Option Nat :=
  match step.move, programs step.calls with
  | .attempt, [(packet, _)] =>
      if step.before.decision packet = .transmitInPlace then some step.before.ring.admitted
      else none
  | _, _ => none

/-- The cursors of the packets that steps hand to the device where they lie, in order. -/
def placements (steps : List (Step P H D)) : List Nat := steps.filterMap Step.placed?

namespace Queue

/-- The cursors of the packets in flight that were handed to the device where they lie, in
the order of the ring. -/
def placedInFlight (queue : Queue P H D) (steps : List (Step P H D)) : List Nat :=
  (placements steps).filter fun cursor =>
    decide (queue.ring.released ≤ cursor ∧ cursor < queue.ring.admitted)

variable {start queue next last : Queue P H D} {config : Config} {packet : P}
  {steps : List (Step P H D)}

theorem placedInFlight_of_isIdle (hordered : queue.ring.Ordered) (hidle : queue.isIdle = true) :
    queue.placedInFlight steps = [] := by
  unfold isIdle outstanding PacketRing.outstanding at hidle
  rw [beq_iff_eq] at hidle
  have hposted := hordered.admitted_le
  unfold placedInFlight
  rw [List.filter_eq_nil_iff]
  intro cursor _
  rw [decide_eq_true_eq]
  omega

/-- The packets handed over where they lie are those of the calls that hand over a packet
to be transmitted in place. -/
theorem Course.mem_placements (hcourse : Course start steps last) (hbuilt : Built config start)
    {cursor : Nat} : cursor ∈ placements steps ↔ ∃ step ∈ steps, ∃ packet list,
      .program packet list ∈ step.calls ∧ step.before.decision packet = .transmitInPlace ∧
        step.before.ring.admitted = cursor := by
  constructor
  · intro hcursor
    obtain ⟨step, hstep, hplaced⟩ := List.mem_filterMap.mp hcursor
    unfold Step.placed? at hplaced
    split at hplaced
    next packet list hmove hprograms =>
      split at hplaced
      next hdecision =>
        have hprogram : (packet, list) ∈ programs step.calls := by
          rw [hprograms]
          exact List.mem_singleton_self _
        exact ⟨step, hstep, packet, list, mem_programs.mp hprogram, hdecision,
          Option.some.inj hplaced⟩
      next => cases hplaced
    next => cases hplaced
  · rintro ⟨step, hstep, packet, list, hprogram, hdecision, hcursor⟩
    obtain ⟨_, _, _, hfirst, hready, _⟩ := hcourse.exists_of_mem hstep
    have hmoved := (hfirst.sound hbuilt.sound).moved hready
    obtain ⟨hmove, _, _, hattempted⟩ := hmoved.admit_of_program hprogram
    obtain ⟨sent, hprograms, _⟩ := hattempted.of_programmed
    have hprograms : programs step.calls = [(packet, sent)] := hprograms
    refine List.mem_filterMap.mpr ⟨step, hstep, ?_⟩
    unfold Step.placed?
    rw [hmove, hprograms]
    dsimp only
    rw [if_pos hdecision, hcursor]

omit [Adapter D] in
/-- With the delegated backend a slot gets a mapping for a packet that is handed over where
it lies. -/
theorem dmaMapped_provision_iff (hdelegated : queue.backend = .delegated)
    {admission : Admission} : (queue.provision packet admission).dmaMapped = true ↔
      admission = .programmed ∧ queue.decision packet ≠ .transmitAfterBouncing := by
  cases admission with
  | failed | stalled => exact ⟨fun hmapped => absurd hmapped Bool.false_ne_true, nofun⟩
  | programmed =>
      unfold provision
      rw [hdelegated]
      cases queue.decision packet <;> simp [Holding.bounceBuffer, Holding.mapping]

/-- With the delegated backend the adapter maps exactly the packets that are handed over
where they lie. -/
theorem Moved.placed?_eq {move : Move P H D} (hmoved : Moved queue move next)
    (hlaid : LaidOut start queue) (hpos : 0 < queue.ring.capacity)
    (hdelegated : queue.backend = .delegated) :
    (⟨queue, move⟩ : Step P H D).placed? =
      (⟨queue, move⟩ : Step P H D).granted?.map Grant.cursor := by
  cases move with
  | attempt =>
      obtain ⟨packet, admission, _, _, hattempted⟩ := hmoved.of_attempt
      have hway := hattempted.granted_or hlaid hpos
      rw [dmaMapped_provision_iff hdelegated] at hway
      by_cases hprogrammed : admission = .programmed
      · subst hprogrammed
        obtain ⟨list, hprograms, hdecided⟩ := hattempted.of_programmed
        rcases hway with ⟨hother, hnone⟩ | ⟨⟨_, hplace⟩, scratch, _, _, hcalls, _, _⟩
        · have hbounced : queue.decision packet = .transmitAfterBouncing :=
            Decidable.of_not_not fun hplace => Bool.false_ne_true
              (hother.symm.trans ((dmaMapped_provision_iff hdelegated).mpr ⟨rfl, hplace⟩))
          unfold Step.placed? Step.granted?
          rw [hprograms, hnone]
          simp only [hbounced, reduceCtorEq, if_false, Option.map_none]
        · have hdecision := (hdecided.resolve_left fun hbounced => hplace hbounced.1).1
          have hmade : mappings (Step.calls ⟨queue, .attempt⟩) = [(packet, scratch)] := by
            rw [hcalls]
            exact queue.mappings_consult_map packet scratch _ _
          unfold Step.placed? Step.granted?
          rw [hprograms, hmade]
          simp only [hdecision, if_true, Option.map_some]
      · have hunsent := hattempted.calls.2.1 hprogrammed
        have hnone := hway.resolve_right fun hmapped => hprogrammed hmapped.1.1
        unfold Step.placed? Step.granted?
        rw [hunsent, hnone.2]
        rfl
  | _ => rfl

theorem Course.placements_eq (hcourse : Course start steps last) (hbuilt : Built config start)
    (hdelegated : start.backend = .delegated) :
    placements steps = (grants steps).map Grant.cursor := by
  refine hcourse.invariant (fun steps _ => placements steps = (grants steps).map Grant.cursor)
    hbuilt.sound rfl ?_
  intro steps queue move next hfirst hstaged _ hmoved hsame
  have hlaid := hfirst.laidOut hbuilt
  have hstep := hmoved.placed?_eq hlaid hstaged.ordered.capacity_pos
    (hlaid.backend_eq.trans hdelegated)
  unfold placements grants at *
  rw [List.filterMap_append, List.filterMap_append, List.map_append, hsame]
  simp only [List.filterMap_cons, List.filterMap_nil, hstep]
  cases (⟨queue, move⟩ : Step P H D).granted? <;> rfl

/-- The direct backend has the adapter map nothing. -/
theorem Course.grants_eq_nil (hcourse : Course start steps last) (hbuilt : Built config start)
    (hdirect : start.backend = .direct) : grants steps = [] := by
  refine hcourse.invariant (fun steps _ => grants steps = []) hbuilt.sound rfl ?_
  intro steps queue move next hfirst hstaged _ hmoved hnone
  have hlaid := hfirst.laidOut hbuilt
  have hgranted : (⟨queue, move⟩ : Step P H D).granted? = none := by
    cases move with
    | attempt =>
        obtain ⟨packet, admission, _, _, hattempted⟩ := hmoved.of_attempt
        rcases hattempted.granted_or hlaid hstaged.ordered.capacity_pos with
          ⟨_, hnone⟩ | ⟨hmapped, _⟩
        · exact Lends.granted?_eq_none hnone
        · have hprovided := queue.provided_provision packet admission
          have hunmapped := hprovided.of_direct (hlaid.backend_eq.trans hdirect)
          exact absurd (hunmapped.symm.trans hmapped) Bool.false_ne_true
    | _ => rfl
  exact (filterMap_concat_of_none hgranted).trans hnone

/-- A step returns a mapping only where it releases a packet that was handed over where it
lies, and whose slot still holds the mapping. -/
theorem Course.unmappings_or {step : Step P H D} (hfirst : Course start steps step.before)
    (hready : step.before.Ready step.move) (hbuilt : Built config start) :
    unmappings step.calls = [] ∨
      start.backend = .delegated ∧ step.before.ring.released < step.before.ring.admitted ∧
        step.after.ring.released = step.before.ring.released + 1 ∧
        step.before.ring.released ∈ placements steps ∧
        (step.before.holdingAt step.before.ring.released).dmaMapped = true := by
  have hlends := hfirst.lends hbuilt
  rcases List.eq_nil_or_concat (unmappings step.calls) with hnone | ⟨others, scratch, hsome⟩
  · exact Or.inl hnone
  · have hreturned : scratch ∈ unmappings step.calls := by
      rw [hsome, List.concat_eq_append]
      exact List.mem_append_right _ (List.mem_singleton_self _)
    obtain ⟨grant, hgrant, _, hcursor, hgone, _⟩ :=
      hfirst.exists_of_unmapping hready hbuilt hreturned
    have hdelegated : start.backend = .delegated := by
      cases hbackend : start.backend with
      | delegated => rfl
      | direct =>
          rw [hfirst.grants_eq_nil hbuilt hbackend] at hgrant
          cases hgrant
    have hbusy := hlends.admitted grant hgrant
    rw [hcursor] at hbusy
    refine Or.inr ⟨hdelegated, hbusy, hgone, ?_, ?_⟩
    · rw [hfirst.placements_eq hbuilt hdelegated, ← hcursor]
      exact List.mem_map_of_mem hgrant
    · exact (hlends.holding_iff _ (Nat.le_refl _) hbusy).mpr ⟨grant, hgrant, hcursor⟩

/-- A look that releases a packet with a mapping asks the device first, returns the mapping
only when the device is done, and returns it to the packet's slot. -/
theorem Course.returned_of_placed {step : Step P H D} (hfirst : Course start steps step.before)
    (hready : step.before.Ready step.move) (hbuilt : Built config start)
    (hdelegated : start.backend = .delegated)
    (hreleased : step.after.ring.released = step.before.ring.released + 1)
    (hplaced : step.before.ring.released ∈ placements steps) :
    (unmappings step.calls).map Scratch.slot =
        [step.before.ring.position step.before.ring.released] ∧
      ∃ packet answer rest,
        (step.before.ring.slot step.before.ring.released).packet = some packet ∧
          answer ≠ .pending ∧ step.calls = .status packet answer :: rest := by
  have hsound := hfirst.sound hbuilt.sound
  have hlends := hfirst.lends hbuilt
  have hfurnished := hfirst.furnished hbuilt
  obtain ⟨before, move⟩ := step
  dsimp only at hready hfirst hsound hlends hplaced hfurnished
  have hmoved : Moved before move (Step.after ⟨before, move⟩) := hsound.moved hready
  have hkept : ¬ move.isDealing = false := by
    intro hmove
    have hsame := (hmoved.untouched hsound.staged hmove).released_eq
    exact absurd (hreleased.symm.trans hsame) (Nat.succ_ne_self _)
  cases move with
  | attempt =>
      obtain ⟨packet, admission, _, _, hattempted⟩ := hmoved.of_attempt
      rw [hattempted.ring_eq, PacketRing.released_concluded] at hreleased
      exact absurd hreleased.symm (Nat.succ_ne_self _)
  | scan =>
      obtain ⟨packet, outcome, hbusy, hpacket, hscanned⟩ := hmoved.of_scan
      obtain ⟨grant, hgrant, hcursor⟩ := List.mem_map.mp
        ((hfirst.placements_eq hbuilt hdelegated) ▸ hplaced)
      have hheld := (hlends.holding_iff _ (Nat.le_refl _) hbusy).mpr ⟨grant, hgrant, hcursor⟩
      have hscratch := hlends.kept grant hgrant (Nat.le_of_eq hcursor.symm)
      rw [hcursor] at hscratch
      have honDevice :=
        (hfurnished before.ring.released (Nat.le_refl _) hbusy).onDevice_of_mapped hheld
      cases outcome with
      | none =>
          rw [hscanned.ring_eq] at hreleased
          exact absurd hreleased.symm (Nat.succ_ne_self _)
      | some completion =>
          refine ⟨?_, packet, ?_⟩
          · rw [hscanned.unmappings_eq hheld hscratch, List.map_singleton,
              hlends.slot_eq grant hgrant, hcursor]
          · obtain ⟨asked, settled, hsettled, hcalls⟩ := hscanned.calls_of_mapping hheld hscratch
            rw [hcalls]
            cases hsettled with
            | known _ hstate =>
                rw [hstate] at honDevice
                cases honDevice
            | success => exact ⟨.success, _, hpacket, nofun, rfl⟩
            | error => exact ⟨.error, _, hpacket, nofun, rfl⟩
  | _ => exact absurd rfl hkept

section Scripted

variable {P H : Type} [Packet P] [Device P H]

/-- A queue whose adapter has those mappings outstanding that the packets in flight call
for. -/
structure Balanced (steps : List (Step P H ScriptedAdapter))
    (queue : Queue P H ScriptedAdapter) : Prop where
  of_delegated : queue.backend = .delegated → queue.adapter.mapped =
    queue.adapter.unmapped ++ (queue.placedInFlight steps).map queue.ring.position
  of_direct : queue.backend = .direct → queue.adapter.mapped = [] ∧ queue.adapter.unmapped = []
  in_order : queue.adapter.unmapped <+: queue.adapter.mapped
  of_idle : queue.isIdle = true → queue.adapter.mapped = queue.adapter.unmapped

/-- A step that has the adapter map and unmap as its packet calls for. -/
structure Accounted (earlier : List (Step P H ScriptedAdapter))
    (step : Step P H ScriptedAdapter) : Prop where
  mapped_eq : step.before.backend = .delegated → step.after.adapter.mapped =
    step.before.adapter.mapped ++ step.placed?.toList.map step.before.ring.position
  of_placed : step.before.backend = .delegated →
    step.after.ring.released = step.before.ring.released + 1 →
    step.before.ring.released ∈ placements earlier →
    step.after.adapter.unmapped =
        step.before.adapter.unmapped ++ [step.before.ring.position step.before.ring.released] ∧
      ∃ packet answer rest,
        (step.before.ring.slot step.before.ring.released).packet = some packet ∧
          answer ≠ .pending ∧ step.calls = .status packet answer :: rest
  of_not_placed :
    ¬ (step.after.ring.released = step.before.ring.released + 1 ∧
      step.before.ring.released ∈ placements earlier) →
    step.after.adapter.unmapped = step.before.adapter.unmapped
  of_failed : ∀ completion,
    (step.before.ring.slot step.before.ring.released).state = .completed completion →
    step.after.adapter.unmapped = step.before.adapter.unmapped
  of_copied : ∀ copy ∈ copies earlier, copy.cursor = step.before.ring.released →
    step.after.adapter.unmapped = step.before.adapter.unmapped

variable {start last : Queue P H ScriptedAdapter} {steps : List (Step P H ScriptedAdapter)}

theorem Course.balanced (hcourse : Course start steps last) (hbuilt : Built config start)
    (hlogged : ScriptedAdapter.Logged start.adapter (steps.flatMap Step.calls) last.adapter)
    (hmapped : start.adapter.mapped = []) (hunmapped : start.adapter.unmapped = []) :
    Balanced steps last := by
  have hlends := hcourse.lends hbuilt
  have hbackend := (hcourse.laidOut hbuilt).backend_eq
  have hordered := (hcourse.staged hbuilt.sound).ordered
  have hmade : last.adapter.mapped = (grants steps).map fun grant => grant.scratch.slot := by
    rw [hlogged.mapped_eq, hmapped, hlends.made, List.map_map]
    rfl
  have hreturned : last.adapter.unmapped = ((grants steps).filter fun grant =>
      decide (grant.cursor < last.ring.released)).map fun grant => grant.scratch.slot := by
    rw [hlogged.unmapped_eq, hunmapped, hlends.returned, List.map_map]
    rfl
  have hdelegated : last.backend = .delegated → last.adapter.mapped =
      last.adapter.unmapped ++ (last.placedInFlight steps).map last.ring.position := by
    intro hdelegated
    have hplaced : last.placedInFlight steps = ((grants steps).filter fun grant =>
        decide (last.ring.released ≤ grant.cursor)).map Grant.cursor := by
      unfold placedInFlight
      rw [hcourse.placements_eq hbuilt (hbackend.symm.trans hdelegated), List.filter_map]
      refine congrArg (List.map Grant.cursor) (List.filter_congr fun grant hgrant => ?_)
      have hadmitted := hlends.admitted grant hgrant
      simp only [Function.comp_apply, hadmitted, and_true]
    rw [hmade, hreturned, hplaced, ← hlends.slots_eq List.filter_sublist.subset, ← List.map_append,
      filter_append_of_increasing hlends.increasing]
  have hdirect : last.backend = .direct →
      last.adapter.mapped = [] ∧ last.adapter.unmapped = [] := by
    intro hdirect
    have hnone := hcourse.grants_eq_nil hbuilt (hbackend.symm.trans hdirect)
    rw [hmade, hreturned, hnone]
    exact ⟨rfl, rfl⟩
  refine ⟨hdelegated, hdirect, ?_, fun hidle => ?_⟩
  · rw [hmade, hreturned]
    conv => rhs; rw [← filter_append_of_increasing hlends.increasing last.ring.released]
    rw [List.map_append]
    exact List.prefix_append _ _
  · cases hlast : last.backend with
    | direct => rw [(hdirect hlast).1, (hdirect hlast).2]
    | delegated =>
        rw [hdelegated hlast, placedInFlight_of_isIdle hordered hidle]
        exact List.append_nil _

theorem Course.accounted {step : Step P H ScriptedAdapter}
    (hfirst : Course start steps step.before) (hready : step.before.Ready step.move)
    (hbuilt : Built config start)
    (hlogged : ScriptedAdapter.Logged step.before.adapter step.calls step.after.adapter) :
    Accounted steps step := by
  have hlaid := hfirst.laidOut hbuilt
  have hreturns := hfirst.unmappings_or hready hbuilt
  have hkept : unmappings step.calls = [] →
      step.after.adapter.unmapped = step.before.adapter.unmapped := by
    intro hnone
    rw [hlogged.unmapped_eq, hnone]
    exact List.append_nil _
  refine ⟨?_, ?_, ?_, ?_, ?_⟩
  · intro hdelegated
    have hsound := hfirst.sound hbuilt.sound
    have hmoved := hsound.moved hready
    have hafter : Course start (steps ++ [step]) step.after := hfirst.snoc hready
    have hnext := hafter.lends hbuilt
    have hplaced : step.placed? = step.granted?.map Grant.cursor :=
      hmoved.placed?_eq hlaid hsound.staged.ordered.capacity_pos hdelegated
    have hposition : step.after.ring.position = step.before.ring.position :=
      funext (PacketRing.position_congr
        ((hafter.laidOut hbuilt).capacity_eq.trans hlaid.capacity_eq.symm))
    have hnew : step.granted?.toList ⊆ grants (steps ++ [step]) := by
      rw [grants_concat]
      exact List.subset_append_right _ _
    rw [hlogged.mapped_eq, (hfirst.lends hbuilt).mappings_last hnext, hplaced, List.map_map,
      ← hposition]
    refine congrArg (step.before.adapter.mapped ++ ·) ((hnext.slots_eq hnew).trans ?_)
    cases step.granted? <;> rfl
  · intro hdelegated hreleased hplaced
    obtain ⟨hslot, hasked⟩ := hfirst.returned_of_placed hready hbuilt
      (hlaid.backend_eq.symm.trans hdelegated) hreleased hplaced
    exact ⟨by rw [hlogged.unmapped_eq, hslot], hasked⟩
  · intro hnot
    rcases hreturns with hnone | ⟨_, _, hreleased, hplaced, _⟩
    · exact hkept hnone
    · exact absurd ⟨hreleased, hplaced⟩ hnot
  · intro completion hstate
    rcases hreturns with hnone | ⟨_, hbusy, _, _, hheld⟩
    · exact hkept hnone
    · have honDevice :=
        (hfirst.furnished hbuilt _ (Nat.le_refl _) hbusy).onDevice_of_mapped hheld
      rw [hstate] at honDevice
      cases honDevice
  · intro copy hcopy hcursor
    rcases hreturns with hnone | ⟨_, hbusy, _, _, hheld⟩
    · exact hkept hnone
    · have hcopied := ((hfirst.owns hbuilt).marked.holding_iff _ (Nat.le_refl _) hbusy).mpr
        ⟨copy, hcopy, hcursor⟩
      exact ((hfirst.furnished hbuilt _ (Nat.le_refl _) hbusy).exclusive ⟨hcopied, hheld⟩).elim

/-- In every run the mappings of a scripted adapter are balanced. The slots unmapped are the
first of those mapped, and the others are the positions of the packets in flight that were
handed over where they lie; so none are left when the queue is idle, and the direct backend
has none at all. A mapping is returned when its packet is released, once the device was
done with it, and the release of any other packet returns none. -/
theorem mappings_balanced {device : H} {adapter : ScriptedAdapter}
    {queue : Queue P H ScriptedAdapter} (hbuild : (build config device adapter).value = .ok queue)
    (hmapped : adapter.mapped = []) (hunmapped : adapter.unmapped = [])
    (operations : List (Operation P H ScriptedAdapter))
    (hkeeps : ∀ operation ∈ operations, operation.KeepsLog) :
    Balanced (queue.course operations) (queue.after operations) ∧
      Course queue (queue.course operations) (queue.after operations) ∧
      (queue.run operations).events = (queue.course operations).flatMap Step.calls ∧
      (∀ cursor, cursor ∈ placements (queue.course operations) ↔
        ∃ step ∈ queue.course operations, ∃ packet list, .program packet list ∈ step.calls ∧
          step.before.decision packet = .transmitInPlace ∧
          step.before.ring.admitted = cursor) ∧
      ∀ earlier step later, queue.course operations = earlier ++ step :: later →
        Accounted earlier step := by
  have hbuilt := built_of_build hbuild
  have hcourse := queue.course_run operations
  have hsame := sameLog_build hbuild
  have hquiet : ∀ step ∈ queue.course operations, ∀ change, step.move = .changeAdapter change →
      ∀ adapter, (change adapter).SameLog adapter :=
    fun step hstep change hmove =>
      hkeeps _ (operation_mem_of_mem_course hstep (congrArg Move.operation? hmove))
  refine ⟨?_, hcourse, queue.events_run operations,
    fun cursor => hcourse.mem_placements hbuilt, ?_⟩
  · exact hcourse.balanced hbuilt (hcourse.logged hbuilt.sound hquiet)
      (hsame.mapped_eq.trans hmapped) (hsame.unmapped_eq.trans hunmapped)
  · intro earlier step later hsplit
    obtain ⟨hfirst, hready, _⟩ := hcourse.split hsplit
    have hmoved := (hfirst.sound hbuilt.sound).moved hready
    have hstep : step ∈ queue.course operations := by
      rw [hsplit]
      exact List.mem_append_right _ List.mem_cons_self
    exact hfirst.accounted hready hbuilt (hmoved.logged rfl (hquiet step hstep))

end Scripted

theorem sample_mappings_balanced :
    (build sampleConfig (ScriptedDevice.hold {} 2) ({} : ScriptedAdapter)).value =
        .ok (sampleQueue (.hold {} 2)) ∧
      ((sampleQueue (.hold {} 2)).after sampleMappedRun).adapter.mapped = [0] ∧
      (∀ operation ∈ sampleMappedRun, operation.KeepsLog) ∧
      Balanced ((sampleQueue (.hold {} 2)).course sampleMappedRun)
        ((sampleQueue (.hold {} 2)).after sampleMappedRun) := by
  have hbuild : (build sampleConfig (ScriptedDevice.hold {} 2) ({} : ScriptedAdapter)).value =
      .ok (sampleQueue (.hold {} 2)) := rfl
  have hkeeps : ∀ operation ∈ sampleMappedRun, operation.KeepsLog := by
    intro operation hoperation
    rcases List.mem_cons.mp hoperation with rfl | hadvance
    · trivial
    · rw [List.mem_singleton.mp hadvance]
      trivial
  exact ⟨hbuild, rfl, hkeeps, (mappings_balanced hbuild rfl rfl sampleMappedRun hkeeps).1⟩

end Queue

end TransmitQueue
