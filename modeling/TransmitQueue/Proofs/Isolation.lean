import TransmitQueue.Proofs.Grants

/-!
# Isolation of slots

The adapter gets back, with each mapping, the context block and the list that it left when
it made the mapping. Between the two calls it is not called for that slot at all, since
the slot belongs to one packet for as long as that packet is in flight.
-/

namespace TransmitQueue

theorem mem_mapperSlots_flatMap {P H D : Type} [Packet P] [Device P H] [Adapter D]
    {steps : List (Step P H D)} {slot : Nat}
    (hslot : slot ∈ mapperSlots (steps.flatMap Step.calls)) :
    ∃ step ∈ steps, slot ∈ mapperSlots step.calls := by
  obtain ⟨event, hevent, hcalled⟩ := List.mem_filterMap.mp hslot
  obtain ⟨step, hstep, hcall⟩ := List.mem_flatMap.mp hevent
  exact ⟨step, hstep, List.mem_filterMap.mpr ⟨event, hcall, hcalled⟩⟩

/-- An item of lists put together is an item of one of them. -/
theorem exists_of_flatMap_eq_append {α β : Type} {pick : α → List β} {items : List α}
    {front back : List β} {last : β} (heq : items.flatMap pick = front ++ last :: back) :
    ∃ earlier item later first rest, items = earlier ++ item :: later ∧
      pick item = first ++ last :: rest ∧ front = earlier.flatMap pick ++ first := by
  induction items generalizing front with
  | nil => exact absurd heq.symm (List.append_ne_nil_of_right_ne_nil _ (List.cons_ne_nil _ _))
  | cons item items ih =>
      rw [List.flatMap_cons] at heq
      rcases List.append_eq_append_iff.mp heq with ⟨more, rfl, hmore⟩ | ⟨more, hitem, hmore⟩
      · obtain ⟨earlier, found, later, first, rest, rfl, hfound, rfl⟩ := ih hmore
        refine ⟨item :: earlier, found, later, first, rest, rfl, hfound, ?_⟩
        rw [List.flatMap_cons, List.append_assoc]
      · cases more with
        | nil =>
            have hrest : items.flatMap pick = [] ++ last :: back := hmore.symm
            obtain ⟨earlier, found, later, first, rest, rfl, hfound, hfront⟩ := ih hrest
            refine ⟨item :: earlier, found, later, first, rest, rfl, hfound, ?_⟩
            rw [List.flatMap_cons, List.append_assoc, ← hfront, List.append_nil, hitem,
              List.append_nil]
        | cons next more =>
            obtain ⟨rfl, _⟩ := List.cons_eq_cons.mp hmore
            exact ⟨[], item, items, front, more, rfl, hitem, rfl⟩

variable {P H D : Type} [Packet P] [Device P H] [Adapter D]

namespace Queue

variable {start queue next last : Queue P H D} {config : Config}

theorem Moved.cursors_le {move : Move P H D} (hmoved : Moved queue move next)
    (hstaged : queue.ring.Staged) : queue.ring.released ≤ next.ring.released ∧
      queue.ring.admitted ≤ next.ring.admitted := by
  have hsame : move.isDealing = false → queue.ring.released ≤ next.ring.released ∧
      queue.ring.admitted ≤ next.ring.admitted := by
    intro hmove
    have huntouched := hmoved.untouched hstaged hmove
    exact ⟨Nat.le_of_eq huntouched.released_eq.symm, Nat.le_of_eq huntouched.admitted_eq.symm⟩
  cases hmoved with
  | admitted packet admission calls _ _ _ _ hattempted =>
      rw [hattempted.ring_eq, PacketRing.released_concluded]
      exact ⟨Nat.le_refl _, queue.ring.admitted_le_concluded admission⟩
  | scanned packet outcome calls _ _ _ _ hscanned =>
      rw [hscanned.ring_eq]
      cases outcome with
      | none => exact ⟨Nat.le_refl _, Nat.le_refl _⟩
      | some completion => exact ⟨Nat.le_succ _, Nat.le_refl _⟩
  | quiet move device adapter statistics hquiet => exact hsame (Move.isDealing_of_isQuiet hquiet)
  | posted | rejected | popped | nothingPopped | cancelled => exact hsame rfl

theorem Course.cursors_le {steps : List (Step P H D)} (hcourse : Course start steps last)
    (hstart : start.Sound) : start.ring.released ≤ last.ring.released ∧
      start.ring.admitted ≤ last.ring.admitted := by
  induction hcourse with
  | refl => exact ⟨Nat.le_refl _, Nat.le_refl _⟩
  | snoc before ready ih =>
      have hsound := before.sound hstart
      obtain ⟨hreleased, hadmitted⟩ := (hsound.moved ready).cursors_le hsound.staged
      exact ⟨Nat.le_trans ih.1 hreleased, Nat.le_trans ih.2 hadmitted⟩

/-- The mapper is called for the slot of the packet that is being admitted, or of the one
that is being released. -/
theorem Moved.of_mapperSlots {move : Move P H D} (hmoved : Moved queue move next) {slot : Nat}
    (hslot : slot ∈ mapperSlots (queue.move move).events) :
    move = .attempt ∧ slot = queue.admitPosition ∧ queue.ring.admitted < queue.ring.posted ∨
      move = .scan ∧ slot = queue.releasePosition ∧
        queue.ring.released < queue.ring.admitted ∧
        next.ring.released = queue.ring.released + 1 := by
  have hother : move.isDealing = false → False := by
    intro hmove
    rw [queue.mapperSlots_move hmove] at hslot
    cases hslot
  cases hmoved with
  | admitted packet admission calls _ hready _ hanswered hattempted =>
      have hcalls := queue.events_move_attempt.trans (congrArg Traced.events hanswered)
      rw [hcalls] at hslot
      exact Or.inl ⟨rfl, hattempted.mapper_calls.1 slot hslot, hready⟩
  | scanned packet outcome calls _ hbusy _ hrelease hscanned =>
      have hcalls := queue.events_move_scan.trans (congrArg Traced.events hrelease)
      rw [hcalls] at hslot
      cases outcome with
      | none =>
          cases hscanned
          cases hslot
      | some completion =>
          have hreleased : next.ring.released = queue.ring.released + 1 := by
            rw [hscanned.ring_eq]
            rfl
          exact Or.inr ⟨rfl, hscanned.mapper_calls.1 slot hslot, hbusy, hreleased⟩
  | quiet move device adapter statistics hquiet =>
      exact (hother (Move.isDealing_of_isQuiet hquiet)).elim
  | posted | rejected | popped | nothingPopped | cancelled => exact (hother rfl).elim

/-- While a packet is in flight the mapper is not called for its slot. -/
theorem Course.mapperSlots_apart {earlier steps : List (Step P H D)}
    (hbefore : Course start earlier queue) (hcourse : Course queue steps last)
    (hbuilt : Built config start) {cursor : Nat} (hadmitted : cursor < queue.ring.admitted)
    (hreleased : last.ring.released ≤ cursor) :
    queue.ring.position cursor ∉ mapperSlots (steps.flatMap Step.calls) := by
  intro hslot
  obtain ⟨step, hstep, hcalled⟩ := mem_mapperSlots_flatMap hslot
  obtain ⟨first, later, _, hfirst, hready, hlater⟩ := hcourse.exists_of_mem hstep
  have hsound := (hbefore.append hfirst).sound hbuilt.sound
  have hstaged := hsound.staged
  have hmoved : Moved step.before step.move step.after := hsound.moved hready
  have hcapacity : queue.ring.capacity = step.before.ring.capacity :=
    (hbefore.laidOut hbuilt).capacity_eq.trans
      ((hbefore.append hfirst).laidOut hbuilt).capacity_eq.symm
  rw [PacketRing.position_congr hcapacity] at hcalled
  have hup := (hfirst.cursors_le (hbefore.sound hbuilt.sound)).2
  have hdown := (hlater.cursors_le (hsound.of_moved hmoved)).1
  have hnext := (hmoved.cursors_le hstaged).1
  have htaken := hstaged.ordered.taken_le
  have hposted := hstaged.ordered.admitted_le
  have hspan := hstaged.ordered.posted_le
  -- The slot called for is that of another packet, less than the ring's length away.
  rcases hmoved.of_mapperSlots hcalled with ⟨_, hsame, hwaiting⟩ | ⟨_, hsame, _, hgone⟩
  · exact PacketRing.position_ne_of_lt (by omega) (by omega) hsame
  · exact PacketRing.position_ne_of_lt (by omega) (by omega) hsame.symm

/-- A mapping was made by a step of its course, which handed the list to the device. -/
theorem Course.exists_of_grant {steps : List (Step P H D)} (hcourse : Course start steps last)
    (hbuilt : Built config start) {grant : Grant P} (hgrant : grant ∈ grants steps) :
    ∃ earlier origin later asked contextGiven listGiven, steps = earlier ++ origin :: later ∧
      origin.before.ring.admitted = grant.cursor ∧
      origin.after.ring.admitted = grant.cursor + 1 ∧
      origin.calls = asked ++
        [.map grant.scratch.slot grant.packet contextGiven listGiven (.ok ())
            grant.scratch.context grant.scratch.list,
          .program grant.packet grant.scratch.list] := by
  obtain ⟨origin, horigin, hmove, hcursor, hmade⟩ := exists_of_mem_grants hgrant
  obtain ⟨earlier, later, hsteps, hfirst, hready, _⟩ := hcourse.exists_of_mem horigin
  have hsound := hfirst.sound hbuilt.sound
  obtain ⟨before, move⟩ := origin
  dsimp only at hmove hcursor hready hfirst hsound
  subst hmove
  obtain ⟨packet, admission, _, _, hattempted⟩ := (hsound.moved hready).of_attempt
  rcases hattempted.granted_or (hfirst.laidOut hbuilt) hsound.staged.ordered.capacity_pos with
    ⟨_, hnone⟩ | ⟨hmapped, scratch, contextGiven, listGiven, hshape, _, _⟩
  · rw [hnone] at hmade
    cases hmade
  · rw [hshape, mappings_consult_map] at hmade
    have hsame : (grant.packet, grant.scratch) = (packet, scratch) := List.mem_singleton.mp hmade
    obtain ⟨rfl, rfl⟩ := Prod.mk.inj hsame
    have hpassed : admission ≠ .stalled := by
      rintro rfl
      exact Bool.false_ne_true hmapped
    refine ⟨earlier, _, later, _, contextGiven, listGiven, hsteps, hcursor, ?_, hshape⟩
    rw [← hcursor]
    exact (congrArg PacketRing.admitted hattempted.ring_eq).trans
      (before.ring.admitted_concluded admission hpassed)

/-- A scratch that a step hands back is that of the packet that the step releases. -/
theorem Course.exists_of_unmapping {earlier : List (Step P H D)} {step : Step P H D}
    (hfirst : Course start earlier step.before) (hready : step.before.Ready step.move)
    (hbuilt : Built config start) {scratch : Scratch}
    (hreturned : scratch ∈ unmappings step.calls) :
    ∃ grant ∈ grants earlier, grant.scratch = scratch ∧
      grant.cursor = step.before.ring.released ∧
      step.after.ring.released = step.before.ring.released + 1 ∧
      mapperSlots step.calls = [scratch.slot] := by
  have hsound := hfirst.sound hbuilt.sound
  have hlends := hfirst.lends hbuilt
  obtain ⟨before, move⟩ := step
  dsimp only at hready hfirst hsound hlends
  have hmoved := hsound.moved hready
  have hother : move.isDealing = false → False := by
    intro hmove
    have hnone : unmappings (Step.calls ⟨before, move⟩) = [] :=
      (mapperSlots_eq_nil (before.mapperSlots_move hmove)).2
    rw [hnone] at hreturned
    cases hreturned
  cases move with
  | attempt =>
      obtain ⟨packet, admission, _, _, hattempted⟩ := hmoved.of_attempt
      rw [hattempted.mapper_calls.2] at hreturned
      cases hreturned
  | scan =>
      obtain ⟨packet, outcome, hbusy, _, hscanned⟩ := hmoved.of_scan
      cases outcome with
      | none =>
          rw [(mapperSlots_eq_nil hscanned.mapper_of_pending.1).2] at hreturned
          cases hreturned
      | some completion =>
          cases hheld : (before.holdingAt before.ring.released).dmaMapped with
          | true =>
              obtain ⟨grant, hgrant, hcursor⟩ :=
                (hlends.holding_iff before.ring.released (Nat.le_refl _) hbusy).mp hheld
              have hkept := hlends.kept grant hgrant (Nat.le_of_eq hcursor.symm)
              rw [hcursor] at hkept
              obtain ⟨asked, settled, hsettled, hcalls⟩ := hscanned.calls_of_mapping hheld hkept
              have hsilent := hsettled.mapperSlots_eq_nil
              rw [hscanned.unmappings_eq hheld hkept] at hreturned
              obtain rfl := List.mem_singleton.mp hreturned
              refine ⟨grant, hgrant, rfl, hcursor, congrArg PacketRing.released hscanned.ring_eq,
                ?_⟩
              rw [hcalls, mapperSlots_append, hsilent]
              rfl
          | false =>
              rw [hscanned.mapper_calls.2.2 hheld] at hreturned
              cases hreturned
  | _ => exact (hother rfl).elim

/-- In every run the adapter gets back each mapping as it left it: an unmapping follows a
successful mapping of the same slot, hands over the context block and the list that the
adapter left then, and no other mapping or unmapping of the slot lies between the two. The
list is also the one that the device got. -/
theorem scratch_returned {device : H} {adapter : D} {queue : Queue P H D}
    (hbuild : (build config device adapter).value = .ok queue)
    (operations : List (Operation P H D)) {front back : List (Event P)} {slot : Nat}
    {context : Bytes} {list : SgList}
    (hevents : (queue.run operations).events = front ++ .unmap slot context list :: back) :
    ∃ before packet contextGiven listGiven between,
      front = before ++ .map slot packet contextGiven listGiven (.ok ()) context list ::
          .program packet list :: between ∧
        slot ∉ mapperSlots between := by
  have hbuilt := built_of_build hbuild
  have hcourse := queue.course_run operations
  rw [queue.events_run operations] at hevents
  obtain ⟨earlier, step, later, first, rest, hsteps, hcalls, rfl⟩ :=
    exists_of_flatMap_eq_append hevents
  obtain ⟨hfirst, hready, _⟩ := hcourse.split hsteps
  have hreturned : (⟨slot, context, list⟩ : Scratch) ∈ unmappings step.calls := by
    rw [mem_unmappings, hcalls]
    exact List.mem_append_right _ List.mem_cons_self
  obtain ⟨grant, hgrant, hscratch, hcursor, _, hslots⟩ :=
    hfirst.exists_of_unmapping hready hbuilt hreturned
  obtain ⟨before, origin, between, asked, contextGiven, listGiven, rfl, horigin, hafter, hmapped⟩ :=
    hfirst.exists_of_grant hbuilt hgrant
  obtain ⟨hstart, hstarted, hbetween⟩ := hfirst.split rfl
  rw [hscratch] at hmapped
  refine ⟨before.flatMap Step.calls ++ asked, grant.packet, contextGiven, listGiven,
    between.flatMap Step.calls ++ first, ?_, ?_⟩
  · rw [List.flatMap_append, List.flatMap_cons, hmapped]
    simp only [List.append_assoc, List.cons_append, List.nil_append]
  · have hafterwards : Course queue (before ++ [origin]) origin.after := hstart.snoc hstarted
    have hcapacity : step.before.ring.capacity = origin.after.ring.capacity :=
      (hfirst.laidOut hbuilt).capacity_eq.trans (hafterwards.laidOut hbuilt).capacity_eq.symm
    have hslot : origin.after.ring.position grant.cursor = slot := by
      rw [← PacketRing.position_congr hcapacity, ← (hfirst.lends hbuilt).slot_eq grant hgrant,
        hscratch]
    have hapart := hafterwards.mapperSlots_apart hbetween hbuilt
      (hafter ▸ Nat.lt_succ_self grant.cursor) (Nat.le_of_eq hcursor.symm)
    rw [hslot] at hapart
    -- The unmapping is the only call for the slot in its own step.
    have hfirstSlots : mapperSlots first = [] := by
      rw [hcalls, mapperSlots_append] at hslots
      rcases List.append_eq_singleton_iff.mp hslots with ⟨hnone, _⟩ | ⟨_, hunmap⟩
      · exact hnone
      · cases hunmap
    rw [mapperSlots_append, hfirstSlots, List.append_nil]
    exact hapart

theorem sample_scratch_returned :
    (build sampleConfig ({} : ScriptedDevice) ({} : ScriptedAdapter)).value =
        .ok (sampleQueue {}) ∧
      ∃ front, ((sampleQueue {}).run sampleMappedRun).events =
          front ++ [.unmap 0 (List.replicate 16 1) ⟨16, [⟨⟨0x1000⟩, 4⟩], by decide⟩] ∧
        ∃ before packet contextGiven listGiven between,
          front = before ++
              .map 0 packet contextGiven listGiven (.ok ()) (List.replicate 16 1)
                ⟨16, [⟨⟨0x1000⟩, 4⟩], by decide⟩ ::
              .program packet ⟨16, [⟨⟨0x1000⟩, 4⟩], by decide⟩ :: between ∧
            0 ∉ mapperSlots between := by
  have hbuild : (build sampleConfig ({} : ScriptedDevice) ({} : ScriptedAdapter)).value =
      .ok (sampleQueue {}) := rfl
  have hevents : ((sampleQueue {}).run sampleMappedRun).events =
      ((sampleQueue {}).run sampleMappedRun).events.take 5 ++
        [.unmap 0 (List.replicate 16 1) ⟨16, [⟨⟨0x1000⟩, 4⟩], by decide⟩] := rfl
  exact ⟨hbuild, _, hevents, scratch_returned hbuild sampleMappedRun hevents⟩

end Queue

end TransmitQueue
