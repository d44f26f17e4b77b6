import TransmitQueue.Proofs.Grants

/-!
# The log of a scripted adapter

A scripted adapter logs the slots of the mappings that it made and of those that it got
back. Along a run whose scripts leave the log alone, the log lists exactly these calls.
-/

namespace TransmitQueue

variable {P H : Type} [Packet P]

namespace ScriptedAdapter

/-- Two adapters with the same log. -/
structure SameLog (adapter other : ScriptedAdapter) : Prop where
  mapped_eq : adapter.mapped = other.mapped
  unmapped_eq : adapter.unmapped = other.unmapped

/-- An adapter that logged calls since it was another one. -/
structure Logged (before : ScriptedAdapter) (calls : List (Event P)) (after : ScriptedAdapter) :
    Prop where
  mapped_eq : after.mapped = before.mapped ++ (mappings calls).map fun made => made.2.slot
  unmapped_eq : after.unmapped = before.unmapped ++ (unmappings calls).map Scratch.slot

theorem SameLog.refl (adapter : ScriptedAdapter) : SameLog adapter adapter := ⟨rfl, rfl⟩

omit [Packet P] in
theorem SameLog.logged {before after : ScriptedAdapter} {calls : List (Event P)}
    (hsame : after.SameLog before) (hnone : mapperSlots calls = []) :
    Logged before calls after := by
  obtain ⟨hmade, hreturned⟩ := mapperSlots_eq_nil hnone
  refine ⟨?_, ?_⟩
  · rw [hmade, hsame.mapped_eq]
    exact (List.append_nil _).symm
  · rw [hreturned, hsame.unmapped_eq]
    exact (List.append_nil _).symm

omit [Packet P] in
theorem Logged.append {first middle last : ScriptedAdapter} {calls more : List (Event P)}
    (hfirst : Logged first calls middle) (hsecond : Logged middle more last) :
    Logged first (calls ++ more) last := by
  refine ⟨?_, ?_⟩
  · rw [mappings_append, List.map_append, ← List.append_assoc, ← hfirst.mapped_eq,
      hsecond.mapped_eq]
  · rw [unmappings_append, List.map_append, ← List.append_assoc, ← hfirst.unmapped_eq,
      hsecond.unmapped_eq]

/-- Only a mapping that succeeds is logged. -/
theorem log_transfer (adapter : ScriptedAdapter) {size : Nat} (slot : Nat) (packet : P)
    (context : Vector UInt8 size) (list : SgList) :
    (adapter.transfer slot packet context list).adapter.unmapped = adapter.unmapped ∧
      (adapter.transfer slot packet context list).adapter.mapped = adapter.mapped ++
        (match (adapter.transfer slot packet context list).answer with
          | .ok () => [slot]
          | .error _ => []) := by
  unfold transfer
  split
  next => exact ⟨rfl, (List.append_nil _).symm⟩
  next =>
    dsimp only
    split
    next => exact ⟨rfl, (List.append_nil _).symm⟩
    next =>
      split
      next => exact ⟨rfl, (List.append_nil _).symm⟩
      next =>
        split
        next => exact ⟨rfl, (List.append_nil _).symm⟩
        next => exact ⟨rfl, rfl⟩

theorem log_mapTransfer (adapter : ScriptedAdapter) {size : Nat} (slot : Nat) (packet : P)
    (context : Vector UInt8 size) (list : SgList) :
    (Adapter.mapTransfer adapter slot packet context list).adapter.unmapped = adapter.unmapped ∧
      (Adapter.mapTransfer adapter slot packet context list).adapter.mapped = adapter.mapped ++
        (match (Adapter.mapTransfer adapter slot packet context list).answer with
          | .ok () => [slot]
          | .error _ => []) := by
  simp only [Adapter.mapTransfer]
  split
  next => exact ⟨rfl, (List.append_nil _).symm⟩
  next => exact log_transfer { adapter with calls := adapter.calls + 1 } slot packet context list

/-- Allocating memory is not logged. -/
theorem sameLog_allocate (adapter : ScriptedAdapter) (length alignment : Nat)
    (limit : Option Nat) :
    (Adapter.allocate adapter length alignment limit).2.SameLog adapter := by
  simp only [Adapter.allocate]
  split <;> exact ⟨rfl, rfl⟩

end ScriptedAdapter

theorem sameLog_buildPool {P : Type} (config : Config) (adapter : ScriptedAdapter) :
    (BouncePool.build config adapter : Traced P _).value.2.SameLog adapter := by
  unfold BouncePool.build
  split
  next => exact .refl adapter
  next size _ =>
    dsimp only
    split
    next => exact .refl adapter
    next =>
      have hsame := adapter.sameLog_allocate (size * config.bounceBuffers) config.alignment.bytes
        config.maxAddress?
      rw [Traced.value_bind]
      split
      next => exact hsame
      next => split <;> exact hsame

open ScriptedAdapter

namespace Mapper

variable (mapper : Mapper) (slot : Nat) (list : SgList) (adapter : ScriptedAdapter)

theorem logged_map (packet : P) :
    Logged adapter (mapper.map slot packet list adapter).events
      (mapper.map slot packet list adapter).value.adapter := by
  cases mapper with
  | direct => exact (SameLog.refl adapter).logged rfl
  | delegated contexts =>
      cases hblock : contexts.block? slot with
      | none =>
          simp only [map, hblock]
          exact (SameLog.refl adapter).logged rfl
      | some context =>
          rw [map_delegated slot packet list adapter hblock]
          obtain ⟨hunmapped, hmapped⟩ := adapter.log_mapTransfer slot packet context list.clear
          dsimp only
          cases hreply : (Adapter.mapTransfer adapter slot packet context list.clear).answer with
          | error =>
              rw [hreply] at hmapped
              exact ⟨hmapped, hunmapped.trans (List.append_nil _).symm⟩
          | ok =>
              rw [hreply] at hmapped
              exact ⟨hmapped, hunmapped.trans (List.append_nil _).symm⟩

omit [Packet P] in
theorem logged_unmap {returned : Traced P (Mapper × SgList × ScriptedAdapter)}
    (hunmap : mapper.unmap slot list adapter = returned) :
    Logged adapter returned.events returned.value.2.2 := by
  subst hunmap
  cases mapper with
  | direct => exact (SameLog.refl adapter).logged rfl
  | delegated contexts =>
      cases hblock : contexts.block? slot with
      | none =>
          simp only [unmap, hblock]
          exact (SameLog.refl adapter).logged rfl
      | some context =>
          rw [unmap_delegated slot list adapter hblock]
          exact ⟨(List.append_nil _).symm, rfl⟩

end Mapper

/-- Moves that leave the adapter to the queue. -/
def Move.sparesAdapter {P H D : Type} : Move P H D → Bool
  | changeAdapter _ => false
  | post _ | pop | cancel | attempt | flush | scan | pause _ | giveUp | resetStatistics
  | changeDevice _ => true

/-- An operation that leaves the adapter's log alone, as a change of a script does. -/
def Operation.KeepsLog : Operation P H ScriptedAdapter → Prop
  | .changeAdapter change => ∀ adapter, (change adapter).SameLog adapter
  | _ => True

namespace Queue

/-- A move that deals with no packet leaves the adapter and the slots' contexts alone, unless
it is a change of the adapter. -/
theorem move_eq_of_sparesAdapter {D : Type} [Device P H] [Adapter D] (queue : Queue P H D)
    {move : Move P H D} (hmove : move.isDealing = false) (hspared : move.sparesAdapter = true) :
    ∃ ring device statistics, (queue.move move).value =
      { queue with ring := ring, device := device, statistics := statistics } := by
  cases move with
  | attempt | scan => cases hmove
  | changeAdapter change => cases hspared
  | post packet =>
      cases hpost : queue.ring.post packet <;> simp only [Queue.move, post, hpost]
      all_goals exact ⟨_, _, _, rfl⟩
  | pop =>
      cases hpop : queue.ring.pop? <;> simp only [Queue.move, pop?, hpop]
      all_goals exact ⟨_, _, _, rfl⟩
  | _ => exact ⟨_, _, _, rfl⟩

variable [Device P H] {queue next : Queue P H ScriptedAdapter} {packet : P}
  {calls : List (Event P)}

theorem Attempted.logged {admission : Admission}
    (hattempted : Attempted queue packet admission calls next) :
    Logged queue.adapter calls next.adapter := by
  have hasked : Logged queue.adapter (queue.consult packet).events queue.adapter :=
    (SameLog.refl queue.adapter).logged (queue.mapperSlots_consult packet)
  have hmapped : Logged queue.adapter (queue.mapping packet).events
      (queue.mapping packet).value.adapter :=
    queue.mapper.logged_map queue.admitPosition (queue.context queue.admitPosition).list
      queue.adapter packet
  cases hattempted with
  | skip => exact (SameLog.refl _).logged rfl
  | refuse | bounceStall | bounceFail | bounce =>
      exact hasked.append ((SameLog.refl _).logged rfl)
  | map | mapStall | mapFail =>
      exact (hasked.append hmapped).append ((SameLog.refl _).logged rfl)

omit [Packet P] in
theorem Scanned.logged {outcome : Option Completion}
    (hscanned : Scanned queue packet outcome calls next) :
    Logged queue.adapter calls next.adapter := by
  cases hscanned with
  | pending => exact (SameLog.refl _).logged rfl
  | released completion calls returns settled returned hsettled hreturned =>
      have hsilent := hsettled.mapperSlots_eq_nil
      obtain ⟨device, statistics, rfl⟩ := hsettled.exists_device
      refine ((SameLog.refl queue.adapter).logged hsilent).append ?_
      cases hreturned with
      | unmapped => exact (SameLog.refl _).logged rfl
      | mapped mapper list adapter calls _ hunmap =>
          exact queue.mapper.logged_unmap queue.releasePosition
            (queue.context queue.releasePosition).list queue.adapter hunmap

/-- A move logs its calls, unless it is a change of the adapter that spoils the log. -/
theorem Moved.logged {move : Move P H ScriptedAdapter} (hmoved : Moved queue move next)
    (hnext : (queue.move move).value = next)
    (hkeeps : ∀ change, move = .changeAdapter change →
      ∀ adapter, (change adapter).SameLog adapter) :
    Logged queue.adapter (queue.move move).events next.adapter := by
  have hquiet : move.isDealing = false → move.sparesAdapter = true →
      Logged queue.adapter (queue.move move).events next.adapter := by
    intro hmove hspared
    obtain ⟨ring, device, statistics, hvalue⟩ := queue.move_eq_of_sparesAdapter hmove hspared
    rw [← hnext, hvalue]
    exact (SameLog.refl queue.adapter).logged (queue.mapperSlots_move hmove)
  cases move with
  | attempt =>
      obtain ⟨packet, admission, _, _, hattempted⟩ := hmoved.of_attempt
      exact hattempted.logged
  | scan =>
      obtain ⟨packet, outcome, _, _, hscanned⟩ := hmoved.of_scan
      exact hscanned.logged
  | changeAdapter change =>
      subst hnext
      exact (hkeeps change rfl queue.adapter).logged rfl
  | _ => exact hquiet rfl rfl

omit [Packet P] [Device P H] in
/-- Building a queue maps nothing. -/
theorem sameLog_build {config : Config} {device : H} {adapter : ScriptedAdapter}
    (hbuild : (build config device adapter).value = .ok queue) : queue.adapter.SameLog adapter := by
  obtain ⟨pool, _, rfl⟩ := build_eq_ok hbuild
  exact sameLog_buildPool config adapter

variable {start last : Queue P H ScriptedAdapter} {steps : List (Step P H ScriptedAdapter)}

theorem Course.logged (hcourse : Course start steps last) (hstart : start.Sound)
    (hkeeps : ∀ step ∈ steps, ∀ change, step.move = .changeAdapter change →
      ∀ adapter, (change adapter).SameLog adapter) :
    Logged start.adapter (steps.flatMap Step.calls) last.adapter := by
  induction hcourse with
  | refl => exact (SameLog.refl _).logged rfl
  | @snoc steps queue move before ready ih =>
      have hmoved := (before.sound hstart).moved ready
      have hstep := hmoved.logged rfl
        (hkeeps ⟨queue, move⟩ (List.mem_append_right _ (List.mem_singleton_self _)))
      rw [List.flatMap_append, List.flatMap_singleton]
      exact (ih fun step hbefore => hkeeps step (List.mem_append_left _ hbefore)).append hstep

end Queue

end TransmitQueue
