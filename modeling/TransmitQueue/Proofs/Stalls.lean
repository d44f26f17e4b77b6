import TransmitQueue.Proofs.AdapterLog
import TransmitQueue.Proofs.Isolation
import TransmitQueue.Proofs.Queue.Verdict

/-!
# Stalled attempts

An attempt that stalls leaves the queue as it was, but for one counter. What the adapter wrote
before it turned a mapping down stays in the scratch of the packet's slot, from where it never
reaches the device: the next mapping for the slot starts with an empty list.
-/

namespace TransmitQueue.Queue

variable {P H D : Type} [Packet P] [Device P H] [Adapter D] {start queue next : Queue P H D}
  {config : Config} {packet : P} {calls : List (Event P)}

/-- What an attempt stalled for: no bounce buffer was free, or the adapter was out of mapping
resources, however much of the list it had built by then. -/
inductive Hindered (before : Queue P H D) (packet : P) (calls : List (Event P))
    (after : Queue P H D) : Prop where
  | noBuffer (hdecision : before.decision packet = .transmitAfterBouncing)
      (hexhausted : before.pool.isExhausted = true) (hadapter : after.adapter = before.adapter)
      (hsilent : mapperSlots calls = [])
      (hstatistics : after.statistics =
        { before.statistics with bounceFailure := before.statistics.bounceFailure + 1 })
  | refused {size : Nat} (context : Vector UInt8 size) (list : SgList)
      (hdecision : before.decision packet = .transmitInPlace)
      (hdelegated : before.backend = .delegated)
      (hanswer : (Adapter.mapTransfer before.adapter before.admitPosition packet context
        list).answer = .error .insufficientResources)
      (hadapter : after.adapter = (Adapter.mapTransfer before.adapter before.admitPosition packet
        context list).adapter)
      (hasked : mapAnswers calls = [(packet, .error .insufficientResources)])
      (hstatistics : after.statistics =
        { before.statistics with
          dmaInsufficientResources := before.statistics.dmaInsufficientResources + 1 })

/-- A stalled attempt that left no trace but its counter. -/
structure Traceless (before : Queue P H D) (packet : P) (calls : List (Event P))
    (after : Queue P H D) : Prop where
  packet_eq : (before.ring.slot before.ring.admitted).packet = some packet
  /-- Every packet, mark, state and cursor of the ring. -/
  ring_eq : after.ring = before.ring
  waiting : ∀ cursor, after.ring.admitted ≤ cursor → cursor < after.ring.posted →
    (after.ring.slot cursor).state = .unposted
  holding_eq : ∀ position, (after.context position).holding = (before.context position).holding
  nothing_held : (after.context after.admitPosition).holding = .nothing
  scratch_eq : ∀ position, position ≠ before.admitPosition →
    after.context position = before.context position ∧
      after.mapper.block? position = before.mapper.block? position
  /-- The counts of buffers taken and given back, and the memory of the pool. -/
  pool_eq : after.pool = before.pool
  programs_eq : programs calls = []
  mappings_eq : mappings calls = []
  unmappings_eq : unmappings calls = []
  device_eq : after.device = before.device ∨
    after.device = (Device.bouncePolicy before.device packet).2
  hindered : Hindered before packet calls after

section Attempt

omit [Adapter D] in
/-- The device is changed by its own policy, if by anything. -/
theorem device_consult (queue : Queue P H D) (packet : P) :
    (queue.consult packet).value.2 = queue.device ∨
      (queue.consult packet).value.2 = (Device.bouncePolicy queue.device packet).2 := by
  unfold consult decideBounce
  split
  next => exact Or.inr rfl
  next => exact Or.inl rfl

omit [Device P H] in
/-- A delegated mapping that fails is an answer of the adapter. -/
theorem exists_mapTransfer_of_error {error : DmaError} (hbuilt : Built config start)
    (hlaid : LaidOut start queue) (hdelegated : queue.backend = .delegated)
    (hanswer : (queue.mapping packet).value.answer = .error error) :
    ∃ (size : Nat) (context : Vector UInt8 size) (list : SgList),
      (Adapter.mapTransfer queue.adapter queue.admitPosition packet context list).answer =
          .error error ∧
        (queue.mapping packet).value.adapter = (Adapter.mapTransfer queue.adapter
          queue.admitPosition packet context list).adapter := by
  obtain ⟨slots, stride, contexts, context, hmapper, hblock⟩ :=
    hlaid.exists_block hbuilt (hlaid.backend_eq.symm.trans hdelegated) queue.ring.admitted
  have hblock : contexts.block? queue.admitPosition = some context := hblock
  have hmapping : queue.mapping packet = _ :=
    (congrArg (fun mapper : Mapper => (mapper.map queue.admitPosition packet
      (queue.context queue.admitPosition).list queue.adapter : Traced P _)) hmapper).trans
      (Mapper.map_delegated _ _ _ _ hblock)
  rw [hmapping] at hanswer ⊢
  refine ⟨stride, context, _, ?_, rfl⟩
  dsimp only at hanswer
  cases hreply : (Adapter.mapTransfer queue.adapter queue.admitPosition packet context
    (queue.context queue.admitPosition).list.clear).answer with
  | ok =>
      rw [hreply] at hanswer
      cases hanswer
  | error refusal =>
      rw [hreply] at hanswer
      exact congrArg Except.error (Except.error.inj hanswer)

/-- An attempt stalls for want of a bounce buffer or because the adapter said so. -/
theorem Attempted.hindered (hattempted : Attempted queue packet .stalled calls next)
    (hbuilt : Built config start) (hlaid : LaidOut start queue) :
    Hindered queue packet calls next := by
  have hsilent := queue.mapperSlots_consult packet
  cases hattempted with
  | bounceStall error pool _ hdecision hbounce =>
      rw [consult_decision] at hdecision
      obtain ⟨_, _, hexhausted⟩ :=
        bounce_eq_error hbuilt hlaid (by rw [hdecision]; nofun) hbounce
      refine .noBuffer hdecision hexhausted rfl ?_ rfl
      rw [mapperSlots_append, hsilent]
      rfl
  | mapStall error _ hdecision hmapping hexhausted =>
      rw [consult_decision] at hdecision
      obtain rfl := error.isExhaustion_iff.mp hexhausted
      have hbackend : queue.backend = .delegated := by
        cases hdirect : queue.backend with
        | delegated => rfl
        | direct =>
            obtain ⟨list, hlist, _⟩ :=
              mapping_of_direct hlaid (hlaid.backend_eq.symm.trans hdirect) hdecision
            rw [hmapping] at hlist
            cases hlist
      obtain ⟨size, context, list, hanswer, hadapter⟩ :=
        exists_mapTransfer_of_error hbuilt hlaid hbackend hmapping
      obtain ⟨answer, hasked, hsame⟩ :=
        mapping_of_delegated packet hbuilt hlaid (hlaid.backend_eq.symm.trans hbackend)
      refine .refused context list hdecision hbackend hanswer hadapter ?_ rfl
      rw [mapAnswers_append, mapAnswers_append, (queue.calls_consult packet).2.2, hasked]
      rw [hmapping] at hsame
      cases answer with
      | ok => cases hsame
      | error refusal =>
          obtain rfl := Except.error.inj hsame
          rfl

/-- What a slot holds is not changed by an attempt that stalls. -/
theorem Attempted.holding_of_stalled (hattempted : Attempted queue packet .stalled calls next)
    (position : Nat) : (next.context position).holding = (queue.context position).holding := by
  cases hattempted with
  | bounceStall => rfl
  | mapStall =>
      unfold context
      dsimp only
      rw [List.getElem?_set]
      split
      next hsame =>
        subst hsame
        split
        next => rfl
        next hout => rw [List.getElem?_eq_none (Nat.le_of_not_lt hout)]
      next => rfl

theorem Attempted.traceless (hattempted : Attempted queue packet .stalled calls next)
    (hbuilt : Built config start) (hlaid : LaidOut start queue) (hstaged : queue.ring.Staged)
    (hready : queue.ring.admitted < queue.ring.posted)
    (hpacket : (queue.ring.slot queue.ring.admitted).packet = some packet)
    (hvacant : queue.holdingAt queue.ring.admitted = .nothing) :
    Traceless queue packet calls next := by
  have hring : next.ring = queue.ring :=
    hattempted.ring_eq.trans (hstaged.concluded_stalled hready)
  have hholding := hattempted.holding_of_stalled
  have hmade : mappings calls = [] := by
    rcases hattempted.granted_or hlaid hstaged.ordered.capacity_pos with
      ⟨_, hnone⟩ | ⟨hmapped, _⟩
    · exact hnone
    · cases hmapped
  refine ⟨hpacket, hring, ?_, hholding, ?_, fun position hother => (hattempted.frame hother).symm,
    ?_, hattempted.calls.2.1 nofun, hmade, hattempted.mapper_calls.2, ?_,
    hattempted.hindered hbuilt hlaid⟩
  · rw [hring]
    exact hstaged.waiting
  · rw [hholding]
    unfold admitPosition
    rw [hring]
    exact hvacant
  · cases hattempted with
    | bounceStall error pool _ hdecision hbounce =>
        rw [consult_decision] at hdecision
        exact (bounce_eq_error hbuilt hlaid (by rw [hdecision]; nofun) hbounce).2.1
    | mapStall => rfl
  · cases hattempted <;> exact queue.device_consult packet

end Attempt

/-- A stalled attempt leaves the logs of scripted collaborators as they were. -/
theorem Traceless.logs_eq {before after : Queue ScriptedPacket ScriptedDevice ScriptedAdapter}
    {packet : ScriptedPacket} {calls : List (Event ScriptedPacket)}
    (htraceless : Traceless before packet calls after) :
    after.adapter.mapped = before.adapter.mapped ∧
      after.adapter.unmapped = before.adapter.unmapped ∧
      after.device.programmed = before.device.programmed := by
  have hadapter : after.adapter.mapped = before.adapter.mapped ∧
      after.adapter.unmapped = before.adapter.unmapped := by
    cases htraceless.hindered with
    | noBuffer _ _ hadapter =>
        rw [hadapter]
        exact ⟨rfl, rfl⟩
    | refused context list _ _ hanswer hadapter =>
        obtain ⟨hunmapped, hmapped⟩ := before.adapter.log_mapTransfer before.admitPosition packet
          context list
        rw [hanswer] at hmapped
        rw [hadapter]
        exact ⟨hmapped.trans (List.append_nil _), hunmapped⟩
  have hdevice : after.device.programmed = before.device.programmed := by
    rcases htraceless.device_eq with hsame | hasked
    · rw [hsame]
    · rw [hasked]
      simp only [Device.bouncePolicy, ScriptedDevice.queryPolicy]
      split <;> rfl
  exact ⟨hadapter.1, hadapter.2, hdevice⟩

section Program

/-- A packet that goes in place is handed over right after its mapping. -/
theorem Attempted.calls_of_inPlace (hattempted : Attempted queue packet .programmed calls next)
    (hdecision : queue.decision packet = .transmitInPlace) :
    ∃ list, (queue.mapping packet).value.answer = .ok list ∧
      calls = (queue.consult packet).events ++ (queue.mapping packet).events ++
        [.program packet list] := by
  cases hattempted with
  | bounce _ _ _ hother =>
      rw [consult_decision, hdecision] at hother
      cases hother
  | map list _ _ hmapping => exact ⟨list, hmapping, rfl⟩

/-- A packet that the delegated backend mapped goes out with the list that the adapter left,
and the adapter was given an empty one. -/
theorem Attempted.calls_of_delegated
    (hattempted : Attempted queue packet .programmed calls next)
    (hdecision : queue.decision packet = .transmitInPlace)
    (hdelegated : queue.backend = .delegated) {list : SgList}
    (hprogram : .program packet list ∈ calls) :
    ∃ contextGiven listGiven contextLeft, listGiven.elements = [] ∧
      calls = (queue.consult packet).events ++
        [.map queue.admitPosition packet contextGiven listGiven (.ok ()) contextLeft list,
          .program packet list] := by
  obtain ⟨sent, hanswer, hcalls⟩ := hattempted.calls_of_inPlace hdecision
  obtain ⟨_, contextGiven, contextLeft, _, hcall⟩ := queue.mapper.map_of_ok queue.admitPosition
    packet (queue.context queue.admitPosition).list queue.adapter hdelegated hanswer
  have hcall : (queue.mapping packet).events = _ := hcall
  have hmember := mem_programs.mpr hprogram
  rw [hcalls, programs_append, programs_append, (queue.calls_consult packet).1,
    (queue.calls_mapping packet).1] at hmember
  obtain ⟨_, rfl⟩ := Prod.mk.inj (List.mem_singleton.mp hmember)
  refine ⟨contextGiven, (queue.context queue.admitPosition).list.clear, contextLeft,
    SgList.elements_clear _, ?_⟩
  rw [hcalls, hcall, List.append_assoc]
  rfl

end Program

section Phase

/-- A transmit phase that stalls ends with the attempt that stalled. -/
theorem exists_stalled_of_transmit (count : Nat) (queue : Queue P H D)
    (hstalled : (transmit count queue).value.stalled = true) :
    ∃ earlier before, transmitSteps count queue = earlier ++ [⟨before, .attempt⟩] ∧
      before.admitOldest.value = (.stalled, (transmit count queue).value.queue) := by
  induction count generalizing queue with
  | zero => cases hstalled
  | succ count ih =>
      rw [transmit_succ] at hstalled ⊢
      rw [transmitSteps]
      rcases hanswered : queue.admitOldest with ⟨⟨admission, next⟩, calls⟩
      rw [hanswered] at hstalled
      cases admission with
      | stalled => exact ⟨[], queue, rfl, congrArg Traced.value hanswered⟩
      | failed failure =>
          obtain ⟨earlier, before, hsteps, hlast⟩ := ih next hstalled
          exact ⟨⟨queue, .attempt⟩ :: earlier, before, congrArg _ hsteps, hlast⟩
      | programmed =>
          obtain ⟨earlier, before, hsteps, hlast⟩ := ih next hstalled
          exact ⟨⟨queue, .attempt⟩ :: earlier, before, congrArg _ hsteps, hlast⟩

theorem stalled_advance (queue : Queue P H D) :
    queue.advance.value.1.stalled = (transmit queue.unposted queue).value.stalled := by
  unfold advance
  dsimp only [Traced.value_bind]
  split <;> rfl

end Phase

/-- In every run an advance that stalls does so in the last attempt of its transmit phase, and
the phase leaves everything as that attempt found it, but for one counter: the ring with its
packets, marks and states, what the slots hold, the pool with its memory, and the logs of the
mappings made and returned and of the packets handed over. What the adapter wrote for a packet
before it turned the mapping down never reaches the device: whenever the packet is mapped at
last, the adapter gets an empty list, and what it leaves there is what goes out. -/
theorem stalls_leave_no_trace {device : H} {adapter : D} {queue : Queue P H D}
    (hbuild : (build config device adapter).value = .ok queue)
    (operations : List (Operation P H D)) :
    let last := queue.after operations
    let sent := (transmit last.unposted last).value
    (last.advance.value.1.stalled = true → ∃ earlier before packet,
      transmitSteps last.unposted last = earlier ++ [⟨before, .attempt⟩] ∧
        before.admitOldest.value = (.stalled, sent.queue) ∧
        Traceless before packet before.admitOldest.events sent.queue) ∧
      (queue.backend = .delegated → ∀ more, ∀ step ∈ last.course more, ∀ packet list,
        .program packet list ∈ step.calls → step.before.decision packet = .transmitInPlace →
        ∃ contextGiven listGiven contextLeft, listGiven.elements = [] ∧
          step.calls = (step.before.consult packet).events ++
            [.map step.before.admitPosition packet contextGiven listGiven (.ok ()) contextLeft
                list, .program packet list]) ∧
      ∀ {before after : Queue ScriptedPacket ScriptedDevice ScriptedAdapter} {packet calls},
        Traceless before packet calls after →
          after.adapter.mapped = before.adapter.mapped ∧
            after.adapter.unmapped = before.adapter.unmapped ∧
            after.device.programmed = before.device.programmed := by
  have hbuilt := built_of_build hbuild
  have hcourse := queue.course_run operations
  refine ⟨fun hstalled => ?_, fun hdelegated more step hstep packet list hprogram hdecision => ?_,
    Traceless.logs_eq⟩
  · have hphase := course_transmit _ (queue.after operations) (Nat.le_refl _)
    have hstalled : (transmit (queue.after operations).unposted
        (queue.after operations)).value.stalled = true := by
      rwa [stalled_advance] at hstalled
    obtain ⟨earlier, before, hsteps, hlast⟩ := exists_stalled_of_transmit _ _ hstalled
    obtain ⟨hfirst, hready, _⟩ := hphase.split hsteps
    have hreached := hcourse.append hfirst
    have hsound := hreached.sound hbuilt.sound
    have hready : before.ring.admitted < before.ring.posted := hready
    obtain ⟨packet, hawaits⟩ := hsound.exists_awaits hready
    have hattempted := before.attempted_admitOldest hawaits
    rw [hlast] at hattempted
    exact ⟨earlier, before, packet, hsteps, hlast, hattempted.traceless hbuilt
      (hreached.laidOut hbuilt) hsound.staged hready hawaits.packet_eq
      (hreached.vacant_of_waiting hbuilt hready)⟩
  · obtain ⟨_, _, _, hfirst, hready, _⟩ := ((queue.after operations).course_run more).exists_of_mem
      hstep
    have hreached := hcourse.append hfirst
    obtain ⟨hmove, _, _, hattempted⟩ :=
      ((hreached.sound hbuilt.sound).moved hready).admit_of_program hprogram
    exact hattempted.calls_of_delegated hdecision
      ((hreached.laidOut hbuilt).backend_eq.trans hdelegated) hprogram

/-- The sample queue over an adapter that puts an element in front of every list and has no room
for a mapping. -/
def sampleStallingQueue : Queue ScriptedPacket ScriptedDevice ScriptedAdapter :=
  (build sampleConfig ({} : ScriptedDevice)
    { mapCapacity := 0, leading := 1 : ScriptedAdapter }).value.toOption.get rfl

/-- Two more advances, the second after the adapter found room. -/
def sampleRetries : List (Operation ScriptedPacket ScriptedDevice ScriptedAdapter) :=
  [.advance, .changeAdapter fun adapter => { adapter with mapCapacity := 1 }, .advance]

/-- The attempt of the second advance. -/
def sampleRetry : Step ScriptedPacket ScriptedDevice ScriptedAdapter :=
  ((sampleStallingQueue.after [.post sampleMappedPacket]).course sampleRetries).get
    ⟨2, by decide +kernel⟩

theorem sample_stalls_leave_no_trace :
    (build sampleConfig ({} : ScriptedDevice)
        { mapCapacity := 0, leading := 1 : ScriptedAdapter }).value = .ok sampleStallingQueue ∧
      (∃ before packet, Traceless before packet before.admitOldest.events
        (transmit 1 (sampleStallingQueue.after [.post sampleMappedPacket])).value.queue) ∧
      ∃ contextGiven listGiven contextLeft, listGiven.elements = [] ∧
        sampleRetry.calls = (sampleRetry.before.consult sampleMappedPacket).events ++
          [.map sampleRetry.before.admitPosition sampleMappedPacket contextGiven listGiven (.ok ())
              contextLeft ⟨16, [⟨⟨0xE0000000⟩, 16⟩, ⟨⟨0x1000⟩, 4⟩], by decide⟩,
            .program sampleMappedPacket
              ⟨16, [⟨⟨0xE0000000⟩, 16⟩, ⟨⟨0x1000⟩, 4⟩], by decide⟩] := by
  have hbuild : (build sampleConfig ({} : ScriptedDevice)
      { mapCapacity := 0, leading := 1 : ScriptedAdapter }).value = .ok sampleStallingQueue := rfl
  obtain ⟨hstall, hretry, _⟩ := stalls_leave_no_trace hbuild [.post sampleMappedPacket]
  obtain ⟨_, before, packet, _, _, htraceless⟩ := hstall rfl
  have hprogram : .program sampleMappedPacket
      ⟨16, [⟨⟨0xE0000000⟩, 16⟩, ⟨⟨0x1000⟩, 4⟩], by decide⟩ ∈ sampleRetry.calls :=
    List.mem_of_getElem? (by rfl : sampleRetry.calls[2]? = _)
  have hdecision : sampleRetry.before.decision sampleMappedPacket = .transmitInPlace := by
    decide +kernel
  exact ⟨hbuild, ⟨before, packet, htraceless⟩, hretry rfl sampleRetries sampleRetry
    (List.get_mem _ _) sampleMappedPacket _ hprogram hdecision⟩

end TransmitQueue.Queue
