import TransmitQueue.Proofs.Mapping.Span
import TransmitQueue.Proofs.Queue.Calls
import TransmitQueue.Proofs.Queue.Decision
import TransmitQueue.Proofs.Queue.Layout

/-!
# Verdicts

How an attempt at admission must end, given the decision on its packet. A packet that was
let through always fits a bounce buffer and, mapped directly, the descriptor budget. So a
copy fails only for want of a buffer, and no mapping fails but one that the adapter
turned down.
-/

namespace TransmitQueue.Queue

variable {P H D : Type} [Packet P] [Device P H] {start queue : Queue P H D} {packet : P}
  {list : SgList} {config : Config}

section Bounce

variable {pool : BouncePool}

theorem totalLength_le_bufferSize (hbuilt : Built config start) (hlaid : LaidOut start queue)
    (hdecision : queue.decision packet ≠ .cannotTransmit) :
    Packet.totalLength packet ≤ queue.pool.bufferSize := by
  have hsize := (size_of_decision hdecision).2
  rw [hlaid.config_eq, hbuilt.config_eq] at hsize
  rw [hlaid.pool_alike.bufferSize_eq]
  exact Nat.le_trans hsize hbuilt.maximumPacketSize_le

/-- A copy that succeeds is in the next buffer, and its list describes it. -/
theorem bounce_eq_ok (hbuilt : Built config start) (hlaid : LaidOut start queue)
    (hdecision : queue.decision packet ≠ .cannotTransmit)
    (hbounce : queue.pool.bounce packet = (.ok list, pool)) :
    queue.pool.isExhausted = false ∧
      list.elements = [⟨queue.pool.bufferAddress queue.pool.nextBuffer,
        Packet.totalLength packet⟩] ∧
      pool.busyIndex = queue.pool.busyIndex + 1 ∧ pool.freeIndex = queue.pool.freeIndex ∧
      (pool.buffer? queue.pool.nextBuffer).map (List.take (Packet.totalLength packet)) =
        some (Packet.payload packet) ∧
      ∀ other, other ≠ queue.pool.nextBuffer → pool.buffer? other = queue.pool.buffer? other := by
  cases hexhausted : queue.pool.isExhausted with
  | true =>
      rw [BouncePool.bounce_of_exhausted hexhausted] at hbounce
      cases hbounce
  | false =>
      obtain ⟨next, hnext, hbusy, hfree, hcontent, hother⟩ := BouncePool.bounce_of_fits
        (hlaid.pool_alike.stocked hbuilt.stocked) hexhausted
        (totalLength_le_bufferSize hbuilt hlaid hdecision)
      rw [hnext] at hbounce
      cases hbounce
      exact ⟨rfl, rfl, hbusy, hfree, hcontent, hother⟩

/-- A copy fails only for want of a buffer, and then changes nothing. -/
theorem bounce_eq_error (hbuilt : Built config start) (hlaid : LaidOut start queue)
    (hdecision : queue.decision packet ≠ .cannotTransmit) {error : DmaError}
    (hbounce : queue.pool.bounce packet = (.error error, pool)) :
    error = .insufficientResources ∧ pool = queue.pool ∧ queue.pool.isExhausted = true := by
  cases hexhausted : queue.pool.isExhausted with
  | true =>
      rw [BouncePool.bounce_of_exhausted hexhausted] at hbounce
      cases hbounce
      exact ⟨rfl, rfl, rfl⟩
  | false =>
      obtain ⟨next, hnext, _⟩ := BouncePool.bounce_of_fits
        (hlaid.pool_alike.stocked hbuilt.stocked) hexhausted
        (totalLength_le_bufferSize hbuilt hlaid hdecision)
      rw [hnext] at hbounce
      cases hbounce

end Bounce

variable [Adapter D] {next : Queue P H D}

/-- A packet is handed to the device as a copy or mapped in place, as was decided. -/
theorem Attempted.of_programmed {calls : List (Event P)}
    (hattempted : Attempted queue packet .programmed calls next) :
    ∃ list, programs calls = [(packet, list)] ∧
      (queue.decision packet = .transmitAfterBouncing ∧
          queue.pool.bounce packet = (.ok list, next.pool) ∨
        queue.decision packet = .transmitInPlace ∧
          (queue.mapping packet).value.answer = .ok list ∧ next.pool = queue.pool) := by
  obtain ⟨hnone, _⟩ := queue.calls_consult packet
  obtain ⟨hunsent, _⟩ := queue.calls_mapping packet
  cases hattempted with
  | bounce list pool _ hdecision hbounce =>
      rw [consult_decision] at hdecision
      refine ⟨list, ?_, Or.inl ⟨hdecision, hbounce⟩⟩
      rw [programs_append, hnone]
      rfl
  | map list _ hdecision hmapping =>
      rw [consult_decision] at hdecision
      refine ⟨list, ?_, Or.inr ⟨hdecision, hmapping, rfl⟩⟩
      rw [programs_append, programs_append, hnone, hunsent]
      rfl

/-- A direct mapping of a packet that goes in place succeeds. -/
theorem mapping_of_direct (hlaid : LaidOut start queue)
    (hdirect : start.backend = .direct) (hdecision : queue.decision packet = .transmitInPlace) :
    ∃ list, (queue.mapping packet).value.answer = .ok list ∧
      list.length = BounceAnalysis.descriptors (Packet.fragments packet) ∧
      SgElement.Cover list.elements ((Packet.fragments packet).flatMap Fragment.addresses) := by
  have hfits := hlaid.mapper_fits
  have hbackend := hlaid.backend_eq.trans hdirect
  have hroom := descriptors_of_decision hdecision
  rw [hlaid.config_eq] at hroom
  unfold backend at hbackend
  unfold mapping
  cases hmapper : queue.mapper with
  | delegated contexts =>
      rw [hmapper] at hbackend
      cases hbackend
  | direct scratch =>
      rw [hmapper] at hfits
      have hlimit : scratch.limit = start.config.elementLimit := hfits
      exact Mapper.mapDirect_of_descriptors_le (by rw [hlimit]; exact hroom)

omit [Device P H] in
/-- A delegated mapping is one call of the adapter, for the slot of the packet. -/
theorem exists_mapping_call (packet : P) (hbuilt : Built config start)
    (hlaid : LaidOut start queue) (hdelegated : start.backend = .delegated) :
    ∃ context list answer contextLeft,
      (queue.mapping packet).events = [.map queue.admitPosition packet context list answer
        contextLeft (queue.mapping packet).value.slotList] ∧
      (queue.mapping packet).value.answer =
        answer.map fun _ => (queue.mapping packet).value.slotList := by
  obtain ⟨slots, stride, contexts, context, hmapper, hblock⟩ :=
    hlaid.exists_block hbuilt hdelegated queue.ring.admitted
  have hblock : contexts.block? queue.admitPosition = some context := hblock
  unfold mapping
  rw [hmapper, Mapper.map_delegated _ _ _ _ hblock]
  exact ⟨_, _, _, _, rfl, rfl⟩

omit [Device P H] in
/-- A delegated mapping is the adapter's answer, asked for once. -/
theorem mapping_of_delegated (packet : P) (hbuilt : Built config start)
    (hlaid : LaidOut start queue) (hdelegated : start.backend = .delegated) :
    ∃ answer, mapAnswers (queue.mapping packet).events = [(packet, answer)] ∧
      (queue.mapping packet).value.answer =
        answer.map fun _ => (queue.mapping packet).value.slotList := by
  obtain ⟨_, _, answer, _, hcall, hanswer⟩ :=
    exists_mapping_call packet hbuilt hlaid hdelegated
  refine ⟨answer, ?_, hanswer⟩
  rw [hcall]
  rfl

section Verdict

variable {admission : Admission} {calls : List (Event P)}

theorem Attempted.skipped_iff (hattempted : Attempted queue packet admission calls next) :
    admission = .failed .skipped ↔ queue.withdrawn packet = true := by
  cases hattempted with
  | skip hwithdrawn => exact ⟨fun _ => hwithdrawn, fun _ => rfl⟩
  | refuse hkept | bounce _ _ hkept | bounceStall _ _ hkept | bounceFail _ _ hkept | map _ hkept
  | mapStall _ hkept | mapFail _ hkept =>
      rw [hkept]
      exact ⟨nofun, nofun⟩

theorem Attempted.cannotTransmit_iff (hattempted : Attempted queue packet admission calls next)
    (hkept : queue.withdrawn packet = false) :
    admission = .failed .cannotTransmit ↔ queue.decision packet = .cannotTransmit := by
  cases hattempted with
  | skip hwithdrawn =>
      rw [hkept] at hwithdrawn
      cases hwithdrawn
  | refuse _ hdecision =>
      rw [consult_decision] at hdecision
      exact ⟨fun _ => hdecision, fun _ => rfl⟩
  | bounce _ _ _ hdecision | bounceStall _ _ _ hdecision | bounceFail _ _ _ hdecision
  | map _ _ hdecision | mapStall _ _ hdecision | mapFail _ _ hdecision =>
      rw [consult_decision] at hdecision
      rw [hdecision]
      exact ⟨nofun, nofun⟩

/-- An attempt fails for its mapping exactly where the adapter turned the mapping down for
good. The mapper's other backend turns no packet down, and no copy fails but for want of a
buffer, which stalls the attempt. -/
theorem Attempted.mapping_iff (hattempted : Attempted queue packet admission calls next)
    (hbuilt : Built config start) (hlaid : LaidOut start queue)
    (hkept : queue.withdrawn packet = false) (error : DmaError) :
    admission = .failed (.mapping error) ↔
      queue.decision packet = .transmitInPlace ∧ start.backend = .delegated ∧
        mapAnswers calls = [(packet, .error error)] ∧ error.isExhaustion = false := by
  obtain ⟨_, _, hconsult⟩ := queue.calls_consult packet
  cases hattempted with
  | skip hwithdrawn =>
      rw [hkept] at hwithdrawn
      cases hwithdrawn
  | refuse _ hdecision | bounce _ _ _ hdecision | bounceStall _ _ _ hdecision =>
      rw [consult_decision] at hdecision
      rw [hdecision]
      exact ⟨nofun, fun hmapped => nomatch hmapped.1⟩
  | bounceFail failure pool _ hdecision hbounce hfailed =>
      rw [consult_decision] at hdecision
      obtain ⟨rfl, _⟩ := bounce_eq_error hbuilt hlaid (by rw [hdecision]; nofun) hbounce
      cases hfailed
  | map list _ hdecision hmapping =>
      refine ⟨nofun, fun ⟨_, hdelegated, hanswers, _⟩ => ?_⟩
      obtain ⟨answer, hasked, hanswer⟩ := mapping_of_delegated packet hbuilt hlaid hdelegated
      rw [mapAnswers_append, mapAnswers_append, hconsult, hasked] at hanswers
      cases hanswers
      rw [hmapping] at hanswer
      cases hanswer
  | mapStall failure _ hdecision hmapping hexhausted =>
      refine ⟨nofun, fun ⟨_, hdelegated, hanswers, hfailed⟩ => ?_⟩
      obtain ⟨answer, hasked, hanswer⟩ := mapping_of_delegated packet hbuilt hlaid hdelegated
      rw [mapAnswers_append, mapAnswers_append, hconsult, hasked] at hanswers
      cases hanswers
      rw [hmapping] at hanswer
      cases hanswer
      rw [hexhausted] at hfailed
      cases hfailed
  | mapFail failure _ hdecision hmapping hfailed =>
      rw [consult_decision] at hdecision
      -- A direct mapping would have succeeded, so the adapter was asked.
      have hdelegated : start.backend = .delegated := by
        cases hbackend : start.backend with
        | delegated => rfl
        | direct =>
            obtain ⟨list, hlist, _⟩ := mapping_of_direct hlaid hbackend hdecision
            rw [hmapping] at hlist
            cases hlist
      obtain ⟨answer, hasked, hanswer⟩ := mapping_of_delegated packet hbuilt hlaid hdelegated
      have hanswer : answer = .error failure := by
        rw [hmapping] at hanswer
        cases answer with
        | ok => cases hanswer
        | error other =>
            cases hanswer
            rfl
      have hcalls : mapAnswers ((queue.consult packet).events ++
          (queue.mapping packet).events ++ [.notice (.mappingFailed failure)]) =
            [(packet, .error failure)] := by
        rw [mapAnswers_append, mapAnswers_append, hconsult, hasked, hanswer]
        rfl
      rw [hcalls]
      constructor
      · intro heq
        cases heq
        exact ⟨hdecision, hdelegated, rfl, hfailed⟩
      · rintro ⟨_, _, heq, _⟩
        cases heq
        rfl

/-- The device reports errors only later. -/
theorem Attempted.ne_hardware (hattempted : Attempted queue packet admission calls next) :
    admission ≠ .failed .hardware := by
  cases hattempted <;> nofun

end Verdict

end TransmitQueue.Queue
