import TransmitQueue.Proofs.Holdings
import TransmitQueue.Proofs.Mapping.Scratch

/-!
# Mappings in flight

The mappings that the adapter made along a course, in order, and those that it got back.
A slot keeps the scratch of its packet's mapping until the packet is released, and then
hands it back, so the mappings got back are the first of those made.
-/

namespace TransmitQueue

/-- A packet that the adapter mapped, with its cursor and what the adapter left. -/
structure Grant (P : Type) where
  cursor : Nat
  packet : P
  scratch : Scratch

variable {P H D : Type} [Packet P] [Device P H] [Adapter D]

/-- The mapping that a step makes. -/
def Step.granted? (step : Step P H D) : Option (Grant P) :=
  match step.move, mappings step.calls with
  | .attempt, [(packet, scratch)] => some ⟨step.before.ring.admitted, packet, scratch⟩
  | _, _ => none

/-- The mappings that steps make, in order. -/
def grants (steps : List (Step P H D)) : List (Grant P) := steps.filterMap Step.granted?

theorem grants_concat (steps : List (Step P H D)) (step : Step P H D) :
    grants (steps ++ [step]) = grants steps ++ step.granted?.toList := by
  unfold grants
  rw [List.filterMap_append, List.filterMap_cons, List.filterMap_nil]
  cases step.granted? <;> rfl

theorem exists_of_mem_grants {steps : List (Step P H D)} {grant : Grant P}
    (hgrant : grant ∈ grants steps) : ∃ step ∈ steps, step.move = .attempt ∧
      step.before.ring.admitted = grant.cursor ∧
      (grant.packet, grant.scratch) ∈ mappings step.calls := by
  obtain ⟨step, hstep, hgranted⟩ := List.mem_filterMap.mp hgrant
  unfold Step.granted? at hgranted
  split at hgranted
  next packet scratch hmove hmappings =>
    cases hgranted
    exact ⟨step, hstep, hmove, rfl, by rw [hmappings]; exact List.mem_singleton_self _⟩
  next => cases hgranted

namespace Queue

/-- What the delegated backend keeps for the slot of a cursor. -/
def scratch? (queue : Queue P H D) (cursor : Nat) : Option Scratch :=
  (queue.mapper.block? (queue.ring.position cursor)).map fun context =>
    ⟨queue.ring.position cursor, context, (queue.context (queue.ring.position cursor)).list⟩

variable {start queue next last : Queue P H D} {config : Config} {packet : P}
  {admission : Admission} {outcome : Option Completion} {calls : List (Event P)}

omit [Packet P] [Device P H] [Adapter D] in
theorem scratch?_congr {cursor : Nat} (hcapacity : next.ring.capacity = queue.ring.capacity)
    (hblock : next.mapper.block? (queue.ring.position cursor) =
      queue.mapper.block? (queue.ring.position cursor))
    (hcontext : next.context (queue.ring.position cursor) =
      queue.context (queue.ring.position cursor)) :
    next.scratch? cursor = queue.scratch? cursor := by
  unfold scratch?
  rw [PacketRing.position_congr hcapacity, hblock, hcontext]

omit [Packet P] [Device P H] [Adapter D] in
theorem scratch?_eq_some {cursor position : Nat} {context : Bytes} {list : SgList}
    (hposition : queue.ring.position cursor = position)
    (hblock : queue.mapper.block? position = some context)
    (hlist : (queue.context position).list = list) :
    queue.scratch? cursor = some ⟨position, context, list⟩ := by
  unfold scratch?
  rw [hposition, hblock, hlist]
  rfl

omit [Packet P] [Device P H] [Adapter D] in
theorem context_of_set_self {position : Nat} {context : SlotContext}
    (hcontexts : next.contexts = queue.contexts.set position context)
    (hinside : position < queue.contexts.length) : next.context position = context := by
  unfold Queue.context
  rw [hcontexts, List.getElem?_set_self hinside]
  rfl

omit [Packet P] [Device P H] [Adapter D] in
theorem context_of_set {position : Nat} {context : SlotContext}
    (hcontexts : next.contexts = queue.contexts.set position context) {other : Nat}
    (hother : other ≠ position) : next.context other = queue.context other := by
  unfold Queue.context
  rw [hcontexts, List.getElem?_set_ne (Ne.symm hother)]

omit [Adapter D] in
theorem mapperSlots_consult (queue : Queue P H D) (packet : P) :
    mapperSlots (queue.consult packet).events = [] := by
  unfold consult decideBounce
  split <;> rfl

omit [Adapter D] in
/-- What an attempt that got a mapping has mapped. -/
theorem mappings_consult_map (queue : Queue P H D) (packet : P) (scratch : Scratch)
    (contextGiven : Bytes) (listGiven : SgList) :
    mappings ((queue.consult packet).events ++
      [.map scratch.slot packet contextGiven listGiven (.ok ()) scratch.context scratch.list,
        .program packet scratch.list]) = [(packet, scratch)] := by
  rw [mappings_append, (mapperSlots_eq_nil (queue.mapperSlots_consult packet)).1]
  rfl

/-- Only an attempt or a look calls the mapper. -/
theorem mapperSlots_move (queue : Queue P H D) {move : Move P H D}
    (hmove : move.isDealing = false) : mapperSlots (queue.move move).events = [] := by
  cases move with
  | attempt | scan => cases hmove
  | post packet =>
      simp only [Queue.move]
      split <;> rfl
  | pop =>
      simp only [Queue.move]
      split <;> rfl
  | _ => rfl

section Attempt

/-- An attempt calls the mapper for its own slot only, and returns no mapping. -/
theorem Attempted.mapper_calls (hattempted : Attempted queue packet admission calls next) :
    (∀ slot ∈ mapperSlots calls, slot = queue.admitPosition) ∧ unmappings calls = [] := by
  have hconsult := queue.mapperSlots_consult packet
  have hslots := queue.mapper.mapperSlots_map queue.admitPosition packet
    (queue.context queue.admitPosition).list queue.adapter
  have hnone := queue.mapper.unmappings_map queue.admitPosition packet
    (queue.context queue.admitPosition).list queue.adapter
  have hquiet := (mapperSlots_eq_nil hconsult).2
  cases hattempted with
  | skip => exact ⟨nofun, rfl⟩
  | refuse | bounceStall | bounceFail | bounce =>
      simp only [mapperSlots_append, unmappings_append, hconsult, hquiet]
      exact ⟨nofun, rfl⟩
  | map | mapStall | mapFail =>
      simp only [mapperSlots_append, unmappings_append, hconsult, hquiet, List.nil_append]
      refine ⟨fun slot hslot => ?_, ?_⟩
      · rcases List.mem_append.mp hslot with hmapped | hnotice
        · exact hslots slot hmapped
        · cases hnotice
      · exact (congrArg (· ++ _) hnone).trans rfl

/-- An attempt leaves the scratch of other slots as it was. -/
theorem Attempted.frame (hattempted : Attempted queue packet admission calls next)
    {position : Nat} (hposition : position ≠ queue.admitPosition) :
    next.mapper.block? position = queue.mapper.block? position ∧
      next.context position = queue.context position := by
  cases hattempted with
  | skip | refuse | bounceStall | bounceFail => exact ⟨rfl, rfl⟩
  | bounce => exact ⟨rfl, context_of_set rfl hposition⟩
  | map | mapStall | mapFail =>
      exact ⟨queue.mapper.block?_map_of_ne _ _ _ _ hposition, context_of_set rfl hposition⟩

/-- An attempt gets a mapping exactly where it has its packet's slot hold one. What it got
is what it hands to the device and what the slot keeps. -/
theorem Attempted.granted_or (hattempted : Attempted queue packet admission calls next)
    (hlaid : LaidOut start queue) (hpos : 0 < queue.ring.capacity) :
    (queue.provision packet admission).dmaMapped = false ∧ mappings calls = [] ∨
      (queue.provision packet admission).dmaMapped = true ∧ ∃ scratch contextGiven listGiven,
        calls = (queue.consult packet).events ++
            [.map scratch.slot packet contextGiven listGiven (.ok ()) scratch.context scratch.list,
              .program packet scratch.list] ∧
          scratch.slot = queue.admitPosition ∧
          next.scratch? queue.ring.admitted = some scratch := by
  have hconsult := (mapperSlots_eq_nil (queue.mapperSlots_consult packet)).1
  cases hattempted with
  | skip => exact Or.inl ⟨rfl, rfl⟩
  | refuse | bounceStall | bounceFail =>
      rw [mappings_append, hconsult]
      exact Or.inl ⟨rfl, rfl⟩
  | bounce list pool _ hdecision =>
      rw [consult_decision] at hdecision
      rw [mappings_append, hconsult]
      refine Or.inl ⟨?_, rfl⟩
      unfold provision
      rw [hdecision]
      rfl
  | mapStall error _ _ hmapping | mapFail error _ _ hmapping =>
      have hnone := queue.mapper.mappings_map_of_error _ _ _ _ hmapping
      refine Or.inl ⟨rfl, ?_⟩
      rw [mappings_append, mappings_append, hconsult, List.nil_append]
      exact (congrArg (· ++ _) hnone).trans rfl
  | map list _ hdecision hmapping =>
      rw [consult_decision] at hdecision
      cases hbackend : queue.backend with
      | direct =>
          have hnone := queue.mapper.mappings_map_of_direct queue.admitPosition packet
            (queue.context queue.admitPosition).list queue.adapter hbackend
          refine Or.inl ⟨?_, ?_⟩
          · unfold provision
            rw [hdecision, hbackend]
            rfl
          · rw [mappings_append, mappings_append, hconsult, List.nil_append]
            exact (congrArg (· ++ _) hnone).trans rfl
      | delegated =>
          obtain ⟨hlist, contextGiven, context, hblock, hcalls⟩ := queue.mapper.map_of_ok
            queue.admitPosition packet (queue.context queue.admitPosition).list queue.adapter
            hbackend hmapping
          have hlist : (queue.mapping packet).value.slotList = list := hlist
          have hcalls : (queue.mapping packet).events = _ := hcalls
          refine Or.inr ⟨?_, ⟨queue.admitPosition, context, list⟩, contextGiven,
            (queue.context queue.admitPosition).list.clear, ?_, rfl, ?_⟩
          · unfold provision
            rw [hdecision, hbackend]
            rfl
          · rw [hcalls, List.append_assoc]
            rfl
          · have hinside : queue.admitPosition < queue.contexts.length := by
              rw [hlaid.contexts_length, ← hlaid.capacity_eq]
              exact PacketRing.position_lt hpos _
            have hposition : (queue.ring.concluded .programmed).position queue.ring.admitted =
                queue.admitPosition :=
              PacketRing.position_congr (queue.ring.capacity_concluded _) _
            refine scratch?_eq_some hposition hblock ?_
            exact (congrArg SlotContext.list (context_of_set_self rfl hinside)).trans hlist

end Attempt

section Scan

omit [Packet P] [Device P H] in
theorem Returned.mapper_calls {position : Nat} (hreturned : Returned queue position calls next) :
    (∀ slot ∈ mapperSlots calls, slot = position) ∧ mappings calls = [] ∧
      ((queue.context position).dmaMapped = false → unmappings calls = []) := by
  rw [hreturned.calls_eq]
  rcases queue.returnCalls_or (P := P) position with hnone | ⟨hmapped, context, hcall⟩
  · rw [hnone]
    exact ⟨nofun, rfl, fun _ => rfl⟩
  · rw [hcall]
    exact ⟨fun slot hslot => List.mem_singleton.mp hslot, rfl,
      fun hother => absurd (hother.symm.trans hmapped) Bool.false_ne_true⟩

omit [Packet P] [Adapter D] in
theorem Settled.mapperSlots_eq_nil {completion : Completion}
    (hsettled : Settled queue packet completion calls next) : mapperSlots calls = [] := by
  cases hsettled <;> rfl

omit [Packet P] in
/-- A look calls the mapper for its own slot only, and makes no mapping. It returns one
only where the slot holds one. -/
theorem Scanned.mapper_calls (hscanned : Scanned queue packet outcome calls next) :
    (∀ slot ∈ mapperSlots calls, slot = queue.releasePosition) ∧ mappings calls = [] ∧
      ((queue.holdingAt queue.ring.released).dmaMapped = false → unmappings calls = []) := by
  cases hscanned with
  | pending => exact ⟨nofun, rfl, fun _ => rfl⟩
  | released completion calls returns settled returned hsettled hreturned =>
      have hsilent := hsettled.mapperSlots_eq_nil
      obtain ⟨hunmapped, hquiet⟩ := TransmitQueue.mapperSlots_eq_nil hsilent
      obtain ⟨device, statistics, rfl⟩ := hsettled.exists_device
      rw [mapperSlots_append, mappings_append, unmappings_append, hsilent, hunmapped, hquiet]
      exact hreturned.mapper_calls

omit [Packet P] in
/-- A look that leaves its packet in flight does not call the mapper. -/
theorem Scanned.mapper_of_pending (hscanned : Scanned queue packet none calls next) :
    mapperSlots calls = [] ∧ next.mapper = queue.mapper ∧ next.contexts = queue.contexts := by
  cases hscanned
  exact ⟨rfl, rfl, rfl⟩

omit [Packet P] in
theorem Scanned.frame (hscanned : Scanned queue packet outcome calls next)
    {position : Nat} (hposition : position ≠ queue.releasePosition) :
    next.mapper.block? position = queue.mapper.block? position ∧
      next.context position = queue.context position := by
  cases hscanned with
  | pending => exact ⟨rfl, rfl⟩
  | released completion calls returns settled returned hsettled hreturned =>
      obtain ⟨device, statistics, rfl⟩ := hsettled.exists_device
      cases hreturned with
      | unmapped => exact ⟨rfl, context_of_set rfl hposition⟩
      | mapped mapper list adapter calls _ hunmap =>
          refine ⟨?_, context_of_set rfl hposition⟩
          have hblock := queue.mapper.block?_unmap_of_ne (P := P) queue.releasePosition
            (queue.context queue.releasePosition).list queue.adapter hposition
          exact (congrArg (·.value.1.block? position) hunmap).symm.trans hblock

omit [Packet P] in
/-- A look leaves what the packets that stay in flight hold. -/
theorem Scanned.held_eq (hscanned : Scanned queue packet outcome calls next)
    (hstaged : queue.ring.Staged) {cursor : Nat} (hlow : next.ring.released ≤ cursor)
    (hhigh : cursor < queue.ring.admitted) :
    next.holdingAt cursor = queue.holdingAt cursor ∧
      next.scratch? cursor = queue.scratch? cursor := by
  have hcapacity : next.ring.capacity = queue.ring.capacity := by
    rw [hscanned.ring_eq, PacketRing.capacity_scanned]
  have hframe : next.mapper.block? (queue.ring.position cursor) =
        queue.mapper.block? (queue.ring.position cursor) ∧
      next.context (queue.ring.position cursor) = queue.context (queue.ring.position cursor) := by
    cases outcome with
    | none =>
        obtain ⟨_, hmapper, hcontexts⟩ := hscanned.mapper_of_pending
        unfold Queue.context
        rw [hmapper, hcontexts]
        exact ⟨rfl, rfl⟩
    | some completion =>
        have htaken := hstaged.ordered.taken_le
        have hadmitted := hstaged.ordered.admitted_le
        have hspan := hstaged.ordered.posted_le
        have hpassed : queue.ring.released + 1 ≤ cursor := by rwa [hscanned.ring_eq] at hlow
        exact hscanned.frame (PacketRing.position_ne_of_lt hpassed (by omega)).symm
  refine ⟨?_, scratch?_congr hcapacity hframe.1 hframe.2⟩
  unfold holdingAt
  rw [PacketRing.position_congr hcapacity, hframe.2]

omit [Packet P] in
/-- A release leaves the packets behind its own as they were. -/
theorem Scanned.behind_eq {completion : Completion}
    (hscanned : Scanned queue packet (some completion) calls next) (hstaged : queue.ring.Staged)
    {cursor : Nat} (hlow : queue.ring.released < cursor) (hhigh : cursor < queue.ring.admitted) :
    next.ring.slot cursor = queue.ring.slot cursor ∧
      next.holdingAt cursor = queue.holdingAt cursor := by
  have htaken := hstaged.ordered.taken_le
  have hadmitted := hstaged.ordered.admitted_le
  have hpassed : next.ring.released ≤ cursor := by
    rw [hscanned.ring_eq]
    exact hlow
  refine ⟨?_, (hscanned.held_eq hstaged hpassed hhigh).1⟩
  rw [hscanned.ring_eq, hstaged.slot_scanned (by omega) (some completion) (by omega) (by omega),
    if_neg (by omega)]

omit [Packet P] in
/-- A look that releases a packet whose slot holds a mapping hands the slot's scratch back,
after it found out how the packet ended. -/
theorem Scanned.calls_of_mapping {completion : Completion}
    (hscanned : Scanned queue packet (some completion) calls next)
    (hheld : (queue.holdingAt queue.ring.released).dmaMapped = true) {scratch : Scratch}
    (hscratch : queue.scratch? queue.ring.released = some scratch) :
    ∃ asked settled, Settled queue packet completion asked settled ∧
      calls = asked ++ [.unmap scratch.slot scratch.context scratch.list] := by
  cases hscanned with
  | released _ asked returns settled returned hsettled hreturned =>
      refine ⟨asked, settled, hsettled, congrArg (asked ++ ·) ?_⟩
      obtain ⟨device, statistics, rfl⟩ := hsettled.exists_device
      obtain ⟨context, hblock, rfl⟩ := Option.map_eq_some_iff.mp hscratch
      have hreturns : returns = queue.returnCalls queue.releasePosition := hreturned.calls_eq
      have hmapped : (queue.context queue.releasePosition).dmaMapped = true := hheld
      have hkept : queue.mapper.block? queue.releasePosition = some context := hblock
      rw [hreturns, returnCalls, if_pos hmapped, hkept]
      rfl

omit [Packet P] in
theorem Scanned.unmappings_eq {completion : Completion}
    (hscanned : Scanned queue packet (some completion) calls next)
    (hheld : (queue.holdingAt queue.ring.released).dmaMapped = true) {scratch : Scratch}
    (hscratch : queue.scratch? queue.ring.released = some scratch) :
    unmappings calls = [scratch] := by
  obtain ⟨asked, settled, hsettled, rfl⟩ := hscanned.calls_of_mapping hheld hscratch
  rw [unmappings_append, (TransmitQueue.mapperSlots_eq_nil hsettled.mapperSlots_eq_nil).2]
  rfl

end Scan

/-- A queue whose slots keep the scratches of the mappings in flight, and which handed
back those of the packets released, in the order in which the mappings were made. -/
structure Lends (steps : List (Step P H D)) (queue : Queue P H D) : Prop where
  made : mappings (steps.flatMap Step.calls) =
    (grants steps).map fun grant => (grant.packet, grant.scratch)
  returned : unmappings (steps.flatMap Step.calls) = ((grants steps).filter fun grant =>
    decide (grant.cursor < queue.ring.released)).map Grant.scratch
  increasing : (grants steps).Pairwise fun first second => first.cursor < second.cursor
  admitted : ∀ grant ∈ grants steps, grant.cursor < queue.ring.admitted
  slot_eq : ∀ grant ∈ grants steps, grant.scratch.slot = queue.ring.position grant.cursor
  kept : ∀ grant ∈ grants steps, queue.ring.released ≤ grant.cursor →
    queue.scratch? grant.cursor = some grant.scratch
  holding_iff : ∀ cursor, queue.ring.released ≤ cursor → cursor < queue.ring.admitted →
    ((queue.holdingAt cursor).dmaMapped = true ↔ ∃ grant ∈ grants steps, grant.cursor = cursor)

section Increasing

variable {made : List (Grant P)}
  (hincreasing : made.Pairwise fun first second => first.cursor < second.cursor)
include hincreasing

omit [Packet P]

/-- The mappings of the packets before a cursor, and then the others. -/
theorem filter_append_of_increasing (bound : Nat) :
    made.filter (fun grant => decide (grant.cursor < bound)) ++
      made.filter (fun grant => decide (bound ≤ grant.cursor)) = made := by
  induction made with
  | nil => rfl
  | cons first rest ih =>
      obtain ⟨hfirst, hrest⟩ := List.pairwise_cons.mp hincreasing
      rcases Nat.lt_or_ge first.cursor bound with hbelow | habove
      · simp only [List.filter_cons, decide_eq_true hbelow,
          decide_eq_false (Nat.not_le.mpr hbelow), if_true, Bool.false_eq_true, if_false,
          List.cons_append, ih hrest]
      · -- Cursors rise, so none of the rest is below the bound either.
        have hnone : (first :: rest).filter (fun grant => decide (grant.cursor < bound)) = [] := by
          rw [List.filter_eq_nil_iff]
          intro grant hgrant
          rw [decide_eq_true_eq]
          rcases List.mem_cons.mp hgrant with rfl | hlater
          · omega
          · have hless := hfirst grant hlater
            omega
        have hall : (first :: rest).filter (fun grant => decide (bound ≤ grant.cursor)) =
            first :: rest := by
          rw [List.filter_eq_self]
          intro grant hgrant
          rw [decide_eq_true_eq]
          rcases List.mem_cons.mp hgrant with rfl | hlater
          · exact habove
          · have hless := hfirst grant hlater
            omega
        rw [hnone, hall, List.nil_append]

/-- One packet more, where it was mapped. -/
theorem filter_succ_of_mem {grant : Grant P} (hgrant : grant ∈ made) :
    made.filter (fun other => decide (other.cursor < grant.cursor + 1)) =
      made.filter (fun other => decide (other.cursor < grant.cursor)) ++ [grant] := by
  obtain ⟨front, back, rfl⟩ := List.append_of_mem hgrant
  obtain ⟨_, hlast, hbefore⟩ := List.pairwise_append.mp hincreasing
  have hafter := (List.pairwise_cons.mp hlast).1
  have hfront : ∀ bound, grant.cursor ≤ bound →
      front.filter (fun other => decide (other.cursor < bound)) = front := by
    intro bound hbound
    rw [List.filter_eq_self]
    intro other hother
    have hless := hbefore other hother grant (List.mem_cons_self)
    rw [decide_eq_true_eq]
    omega
  have hback : ∀ bound, bound ≤ grant.cursor + 1 →
      back.filter (fun other => decide (other.cursor < bound)) = [] := by
    intro bound hbound
    rw [List.filter_eq_nil_iff]
    intro other hother
    have hless := hafter other hother
    rw [decide_eq_true_eq]
    omega
  simp only [List.filter_append, List.filter_cons, hfront _ (Nat.le_succ _),
    hfront _ (Nat.le_refl _), hback _ (Nat.le_refl _), hback _ (Nat.le_succ _), Nat.lt_succ_self,
    Nat.lt_irrefl, decide_true, decide_false, if_true, Bool.false_eq_true, if_false,
    List.append_nil]

omit hincreasing in
/-- One packet more, where it was not mapped. -/
theorem filter_succ_of_not_mem {cursor : Nat} (hnone : ∀ grant ∈ made, grant.cursor ≠ cursor) :
    made.filter (fun grant => decide (grant.cursor < cursor + 1)) =
      made.filter (fun grant => decide (grant.cursor < cursor)) := by
  apply List.filter_congr
  intro grant hgrant
  have hne := hnone grant hgrant
  rw [decide_eq_decide]
  omega

end Increasing

namespace Lends

variable {steps : List (Step P H D)} {step : Step P H D} (hlends : Lends steps queue)
include hlends

/-- The slots of mappings are the positions of their packets. -/
theorem slots_eq {made : List (Grant P)} (hmade : made ⊆ grants steps) :
    made.map (fun grant => grant.scratch.slot) =
      (made.map Grant.cursor).map queue.ring.position := by
  rw [List.map_map]
  exact List.map_congr_left fun grant hgrant => hlends.slot_eq grant (hmade hgrant)

/-- The mappings that the last step made. -/
theorem mappings_last (hnext : Lends (steps ++ [step]) next) :
    mappings step.calls = step.granted?.toList.map fun grant => (grant.packet, grant.scratch) := by
  have hmade := hnext.made
  rw [grants_concat, List.flatMap_append, List.flatMap_singleton, mappings_append, hlends.made,
    List.map_append] at hmade
  exact List.append_cancel_left hmade

omit hlends in
theorem granted?_eq_none (hnone : mappings step.calls = []) : step.granted? = none := by
  unfold Step.granted?
  rw [hnone]
  split
  next hmappings => cases hmappings
  next => rfl

/-- A step that makes no mapping. It may hand back those of packets that it releases. -/
theorem retained (hmade : mappings step.calls = [])
    (hreturned : unmappings ((steps ++ [step]).flatMap Step.calls) =
      ((grants steps).filter fun grant =>
        decide (grant.cursor < next.ring.released)).map Grant.scratch)
    (hcapacity : next.ring.capacity = queue.ring.capacity)
    (hreleased : queue.ring.released ≤ next.ring.released)
    (hadmitted : queue.ring.admitted ≤ next.ring.admitted)
    (hscratch : ∀ cursor, next.ring.released ≤ cursor → cursor < queue.ring.admitted →
      next.scratch? cursor = queue.scratch? cursor)
    (hholding : ∀ cursor, next.ring.released ≤ cursor → cursor < next.ring.admitted →
      ((next.holdingAt cursor).dmaMapped = true ↔
        cursor < queue.ring.admitted ∧ (queue.holdingAt cursor).dmaMapped = true)) :
    Lends (steps ++ [step]) next := by
  have hgrants : grants (steps ++ [step]) = grants steps :=
    filterMap_concat_of_none (granted?_eq_none hmade)
  refine ⟨?_, ?_, ?_, ?_, ?_, ?_, ?_⟩ <;> rw [hgrants]
  · rw [List.flatMap_append, List.flatMap_singleton, mappings_append, hmade, List.append_nil,
      hlends.made]
  · exact hreturned
  · exact hlends.increasing
  · exact fun grant hgrant => Nat.lt_of_lt_of_le (hlends.admitted grant hgrant) hadmitted
  · intro grant hgrant
    rw [hlends.slot_eq grant hgrant, PacketRing.position_congr hcapacity]
  · intro grant hgrant hlow
    rw [hscratch grant.cursor hlow (hlends.admitted grant hgrant)]
    exact hlends.kept grant hgrant (Nat.le_trans hreleased hlow)
  · intro cursor hlow hhigh
    have hbusy := Nat.le_trans hreleased hlow
    rw [hholding cursor hlow hhigh]
    constructor
    · rintro ⟨hbefore, hheld⟩
      exact (hlends.holding_iff cursor hbusy hbefore).mp hheld
    · rintro ⟨grant, hgrant, rfl⟩
      have hbefore := hlends.admitted grant hgrant
      exact ⟨hbefore, (hlends.holding_iff _ hbusy hbefore).mpr ⟨grant, hgrant, rfl⟩⟩

/-- A step that neither makes nor returns a mapping. -/
theorem unchanged (hmade : mappings step.calls = []) (hreturned : unmappings step.calls = [])
    (hcapacity : next.ring.capacity = queue.ring.capacity)
    (hreleased : next.ring.released = queue.ring.released)
    (hadmitted : queue.ring.admitted ≤ next.ring.admitted)
    (hscratch : ∀ cursor, queue.ring.released ≤ cursor → cursor < queue.ring.admitted →
      next.scratch? cursor = queue.scratch? cursor)
    (hholding : ∀ cursor, queue.ring.released ≤ cursor → cursor < next.ring.admitted →
      ((next.holdingAt cursor).dmaMapped = true ↔
        cursor < queue.ring.admitted ∧ (queue.holdingAt cursor).dmaMapped = true)) :
    Lends (steps ++ [step]) next := by
  rw [← hreleased] at hscratch hholding
  refine hlends.retained hmade ?_ hcapacity (Nat.le_of_eq hreleased.symm) hadmitted hscratch
    hholding
  rw [List.flatMap_append, List.flatMap_singleton, unmappings_append, hreturned,
    List.append_nil, hlends.returned, hreleased]

/-- An attempt that gets a mapping for its packet. -/
theorem granted {scratch : Scratch} (hmove : step.move = .attempt)
    (hbefore : step.before.ring.admitted = queue.ring.admitted)
    (hmade : mappings step.calls = [(packet, scratch)]) (hreturned : unmappings step.calls = [])
    (hcapacity : next.ring.capacity = queue.ring.capacity)
    (hreleased : next.ring.released = queue.ring.released)
    (hadmitted : next.ring.admitted = queue.ring.admitted + 1)
    (horder : queue.ring.released ≤ queue.ring.admitted)
    (hslot : scratch.slot = queue.ring.position queue.ring.admitted)
    (hleft : next.scratch? queue.ring.admitted = some scratch)
    (hscratch : ∀ cursor, queue.ring.released ≤ cursor → cursor < queue.ring.admitted →
      next.scratch? cursor = queue.scratch? cursor)
    {held : Holding} (hmapped : held.dmaMapped = true)
    (hholding : ∀ cursor, queue.ring.released ≤ cursor → cursor < next.ring.admitted →
      next.holdingAt cursor =
        if cursor = queue.ring.admitted then held else queue.holdingAt cursor) :
    Lends (steps ++ [step]) next := by
  have hgranted : step.granted? = some ⟨queue.ring.admitted, packet, scratch⟩ := by
    unfold Step.granted?
    rw [hmove, hmade, ← hbefore]
  have hgrants : grants (steps ++ [step]) =
      grants steps ++ [⟨queue.ring.admitted, packet, scratch⟩] :=
    filterMap_concat_of_some hgranted
  have hcases : ∀ grant ∈ grants (steps ++ [step]), grant ∈ grants steps ∨
      grant = ⟨queue.ring.admitted, packet, scratch⟩ := by
    intro grant hgrant
    rw [hgrants] at hgrant
    exact (List.mem_append.mp hgrant).imp_right List.mem_singleton.mp
  refine ⟨?_, ?_, ?_, ?_, ?_, ?_, ?_⟩
  · rw [hgrants, List.flatMap_append, List.flatMap_singleton, mappings_append, hmade,
      hlends.made, List.map_append]
    rfl
  · rw [hgrants, List.flatMap_append, List.flatMap_singleton, unmappings_append, hreturned,
      List.append_nil, hlends.returned, hreleased]
    simp only [List.filter_append, List.filter_cons, List.filter_nil,
      decide_eq_false (Nat.not_lt.mpr horder), Bool.false_eq_true, if_false, List.append_nil]
  · rw [hgrants, List.pairwise_append]
    refine ⟨hlends.increasing, List.pairwise_singleton _ _, fun grant hgrant new hnew => ?_⟩
    rw [List.mem_singleton.mp hnew]
    exact hlends.admitted grant hgrant
  · intro grant hgrant
    rcases hcases grant hgrant with hbefore | rfl
    · exact hadmitted ▸ Nat.lt_succ_of_lt (hlends.admitted grant hbefore)
    · exact hadmitted ▸ Nat.lt_succ_self _
  · intro grant hgrant
    rw [PacketRing.position_congr hcapacity]
    rcases hcases grant hgrant with hbefore | rfl
    · exact hlends.slot_eq grant hbefore
    · exact hslot
  · intro grant hgrant hlow
    rw [hreleased] at hlow
    rcases hcases grant hgrant with hbefore | rfl
    · rw [hscratch grant.cursor hlow (hlends.admitted grant hbefore)]
      exact hlends.kept grant hbefore hlow
    · exact hleft
  · rw [hreleased]
    intro cursor hlow hhigh
    rw [hholding cursor hlow hhigh, hgrants]
    split
    next hnew =>
      exact ⟨fun _ => ⟨_, List.mem_append_right _ (List.mem_singleton_self _), hnew.symm⟩,
        fun _ => hmapped⟩
    next hold =>
      rw [hlends.holding_iff cursor hlow (by omega)]
      constructor
      · rintro ⟨grant, hgrant, hcursor⟩
        exact ⟨grant, List.mem_append_left _ hgrant, hcursor⟩
      · rintro ⟨grant, hgrant, rfl⟩
        rcases hcases grant (hgrants ▸ hgrant) with hbefore | rfl
        · exact ⟨grant, hbefore, rfl⟩
        · exact absurd rfl hold

/-- A look that releases a packet, and hands back the mapping of that packet if it has
one. -/
theorem handedBack (hmade : mappings step.calls = [])
    (hnone : (queue.holdingAt queue.ring.released).dmaMapped = false → unmappings step.calls = [])
    (hsome : (queue.holdingAt queue.ring.released).dmaMapped = true → ∀ scratch,
      queue.scratch? queue.ring.released = some scratch → unmappings step.calls = [scratch])
    (hbusy : queue.ring.released < queue.ring.admitted)
    (hcapacity : next.ring.capacity = queue.ring.capacity)
    (hreleased : next.ring.released = queue.ring.released + 1)
    (hadmitted : next.ring.admitted = queue.ring.admitted)
    (hscratch : ∀ cursor, queue.ring.released < cursor → cursor < queue.ring.admitted →
      next.scratch? cursor = queue.scratch? cursor)
    (hholding : ∀ cursor, queue.ring.released < cursor → cursor < queue.ring.admitted →
      next.holdingAt cursor = queue.holdingAt cursor) :
    Lends (steps ++ [step]) next := by
  have holdest := hlends.holding_iff queue.ring.released (Nat.le_refl _) hbusy
  refine hlends.retained hmade ?_ hcapacity (hreleased ▸ Nat.le_succ _)
    (Nat.le_of_eq hadmitted.symm) ?_ ?_
  · rw [List.flatMap_append, List.flatMap_singleton, unmappings_append, hlends.returned, hreleased]
    cases hheld : (queue.holdingAt queue.ring.released).dmaMapped with
    | true =>
        obtain ⟨grant, hgrant, hcursor⟩ := holdest.mp hheld
        have hkept := hlends.kept grant hgrant (Nat.le_of_eq hcursor.symm)
        rw [hcursor] at hkept
        rw [hsome hheld _ hkept, ← hcursor, filter_succ_of_mem hlends.increasing hgrant,
          List.map_append]
        rfl
    | false =>
        rw [hnone hheld, List.append_nil, filter_succ_of_not_mem]
        intro grant hgrant hcursor
        exact Bool.false_ne_true (hheld.symm.trans (holdest.mpr ⟨grant, hgrant, hcursor⟩))
  · intro cursor hlow
    rw [hreleased] at hlow
    exact hscratch cursor hlow
  · intro cursor hlow hhigh
    rw [hreleased] at hlow
    rw [hadmitted] at hhigh
    rw [hholding cursor hlow hhigh, and_iff_right hhigh]

/-- A move that deals with no packet. -/
theorem untouched {move : Move P H D} (hmoved : Moved queue move next)
    (hstaged : queue.ring.Staged) (hmove : move.isDealing = false) :
    Lends (steps ++ [⟨queue, move⟩]) next := by
  have hsame := hmoved.untouched hstaged hmove
  obtain ⟨hmade, hreturned⟩ := mapperSlots_eq_nil (queue.mapperSlots_move hmove)
  refine hlends.unchanged hmade hreturned hsame.capacity_eq hsame.released_eq
    (Nat.le_of_eq hsame.admitted_eq.symm) (fun cursor _ _ => ?_) (fun cursor _ hhigh => ?_)
  · refine scratch?_congr hsame.capacity_eq (by rw [hsame.mapper_eq]) ?_
    unfold Queue.context
    rw [hsame.contexts_eq]
  · rw [hsame.holdingAt_eq]
    exact (and_iff_right (hsame.admitted_eq ▸ hhigh)).symm

theorem attempted (hlaid : LaidOut start queue) (hstaged : queue.ring.Staged)
    (hready : queue.ring.admitted < queue.ring.posted)
    (hattempted : Attempted queue packet admission (Step.calls ⟨queue, .attempt⟩) next)
    (hvacant : queue.holdingAt queue.ring.admitted = .nothing) :
    Lends (steps ++ [⟨queue, .attempt⟩]) next := by
  have htaken := hstaged.ordered.taken_le
  have hspan := hstaged.ordered.posted_le
  have hring := hattempted.ring_eq
  have hcapacity : next.ring.capacity = queue.ring.capacity := by
    rw [hring, PacketRing.capacity_concluded]
  have hsame : next.ring.released = queue.ring.released := by
    rw [hring, PacketRing.released_concluded]
  have hlow := queue.ring.admitted_le_concluded admission
  have hhigh := queue.ring.concluded_admitted_le admission
  rw [← hring] at hlow hhigh
  have hreturned := hattempted.mapper_calls.2
  have hholding : ∀ cursor, queue.ring.released ≤ cursor → cursor < next.ring.admitted →
      next.holdingAt cursor = if cursor = queue.ring.admitted then
        queue.provision packet admission else queue.holdingAt cursor :=
    fun cursor hfirst hlast =>
      hattempted.holdingAt_eq hlaid hstaged hready hvacant cursor hfirst (by omega)
  have hscratch : ∀ cursor, queue.ring.released ≤ cursor → cursor < queue.ring.admitted →
      next.scratch? cursor = queue.scratch? cursor := by
    intro cursor hfirst hlast
    -- The packet waits in none of the slots in use.
    obtain ⟨hblock, hcontext⟩ :=
      hattempted.frame (PacketRing.position_ne_of_lt hlast (by omega))
    exact scratch?_congr hcapacity hblock hcontext
  rcases hattempted.granted_or hlaid hstaged.ordered.capacity_pos with
    ⟨hother, hmade⟩ | ⟨hmapped, scratch, _, _, hshape, hslot, hleft⟩
  · refine hlends.unchanged hmade hreturned hcapacity hsame hlow
      hscratch fun cursor hfirst hlast => ?_
    rw [hholding cursor hfirst hlast]
    split
    next hcursor =>
      exact ⟨fun hmapped => absurd (hother.symm.trans hmapped) Bool.false_ne_true,
        fun hold => by omega⟩
    next hcursor => exact ⟨fun hheld => ⟨by omega, hheld⟩, fun hheld => hheld.2⟩
  · have hpassed : admission ≠ .stalled := by
      rintro rfl
      exact Bool.false_ne_true hmapped
    have hnext := queue.ring.admitted_concluded admission hpassed
    rw [← hring] at hnext
    have hmade : mappings (Step.calls ⟨queue, .attempt⟩) = [(packet, scratch)] := by
      rw [hshape]
      exact queue.mappings_consult_map packet scratch _ _
    exact hlends.granted rfl rfl hmade hreturned hcapacity hsame hnext
      hstaged.ordered.released_le hslot hleft hscratch hmapped hholding

theorem scanned (hlaid : LaidOut start queue) (hstaged : queue.ring.Staged)
    (hbusy : queue.ring.released < queue.ring.admitted)
    (hscanned : Scanned queue packet outcome (Step.calls ⟨queue, .scan⟩) next) :
    Lends (steps ++ [⟨queue, .scan⟩]) next := by
  have htaken := hstaged.ordered.taken_le
  have hadmitted := hstaged.ordered.admitted_le
  have hspan := hstaged.ordered.posted_le
  have hring := hscanned.ring_eq
  have hcapacity : next.ring.capacity = queue.ring.capacity := by
    rw [hring, PacketRing.capacity_scanned]
  obtain ⟨_, hmade, hnone⟩ := hscanned.mapper_calls
  have hholding := hscanned.holdingAt_eq hlaid hstaged.ordered.capacity_pos
  cases outcome with
  | none =>
      obtain ⟨hnone, hmapper, hcontexts⟩ := hscanned.mapper_of_pending
      refine hlends.unchanged hmade (mapperSlots_eq_nil hnone).2 hcapacity
        (by rw [hring]; rfl) (Nat.le_of_eq (by rw [hring]; rfl)) (fun cursor _ _ => ?_)
        fun cursor hfirst hlast => ?_
      · refine scratch?_congr hcapacity (by rw [hmapper]) ?_
        unfold Queue.context
        rw [hcontexts]
      · have hlast : cursor < queue.ring.admitted := by rwa [hring] at hlast
        rw [hholding cursor hfirst (by omega), if_neg fun hreleased => hreleased.2 rfl]
        exact (and_iff_right hlast).symm
  | some completion =>
      refine hlends.handedBack hmade hnone
        (fun hheld scratch hkept => hscanned.unmappings_eq hheld hkept) hbusy
        hcapacity (by rw [hring]; rfl) (by rw [hring]; rfl) (fun cursor hfirst hlast => ?_)
        fun cursor hfirst hlast => ?_
      · obtain ⟨hblock, hcontext⟩ :=
          hscanned.frame (PacketRing.position_ne_of_lt hfirst (by omega)).symm
        exact scratch?_congr hcapacity hblock hcontext
      · rw [hholding cursor (by omega) (by omega), if_neg (by omega)]

end Lends

/-- Along every course the slots keep the scratches of the mappings in flight. -/
theorem Course.lends {steps : List (Step P H D)} (hcourse : Course start steps last)
    (hbuilt : Built config start) : Lends steps last := by
  refine hcourse.invariant Lends hbuilt.sound ?_ ?_
  · refine ⟨rfl, rfl, .nil, nofun, nofun, nofun, fun cursor _ hhigh => ?_⟩
    rw [hbuilt.ring_eq] at hhigh
    exact absurd hhigh (Nat.not_lt_zero cursor)
  · intro steps queue move next hfirst hstaged _ hmoved hlends
    have hlaid := hfirst.laidOut hbuilt
    cases move with
    | attempt =>
        obtain ⟨packet, admission, hready, _, hattempted⟩ := hmoved.of_attempt
        exact hlends.attempted hlaid hstaged hready hattempted
          (hfirst.vacant_of_waiting hbuilt hready)
    | scan =>
        obtain ⟨packet, outcome, hbusy, _, hscanned⟩ := hmoved.of_scan
        exact hlends.scanned hlaid hstaged hbusy hscanned
    | _ => exact hlends.untouched hmoved hstaged rfl

end Queue

end TransmitQueue
