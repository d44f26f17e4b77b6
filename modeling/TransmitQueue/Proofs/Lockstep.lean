import TransmitQueue.Proofs.FaultFree
import TransmitQueue.Proofs.Simulation

/-!
# Two backends in lockstep

Two queues that differ in their backend only make the same moves and the same calls, apart
from those that map packets and return mappings. The one thing that could part them is a
packet that one of them maps and the other does not.
-/

namespace TransmitQueue

variable {P H D : Type}

/-- Whether an event is a call that maps a packet or returns a mapping. -/
def Event.isMapping : Event P → Bool
  | .map .. | .unmap .. => true
  | .program .. | .status .. | .flush | .policy .. | .bypassCapable _ | .contextSize _
  | .allocate .. | .wait _ | .notice _ => false

/-- The calls that have nothing to do with mappings. -/
def outward (calls : List (Event P)) : List (Event P) := calls.filter fun call => !call.isMapping

@[simp] theorem outward_append (first second : List (Event P)) :
    outward (first ++ second) = outward first ++ outward second :=
  List.filter_append _ _

namespace Mapper

variable [Adapter D] (mapper : Mapper) (slot : Nat) (list : SgList) (adapter : D)

theorem outward_map [Packet P] (packet : P) :
    outward (mapper.map slot packet list adapter).events = [] := by
  cases mapper with
  | direct scratch => rfl
  | delegated contexts =>
      cases hblock : contexts.block? slot with
      | none =>
          simp only [map, hblock]
          rfl
      | some context =>
          rw [map_delegated slot packet list adapter hblock]
          rfl

theorem outward_unmap : outward (mapper.unmap slot list adapter : Traced P _).events = [] := by
  cases mapper with
  | direct scratch => rfl
  | delegated contexts =>
      cases hblock : contexts.block? slot with
      | none =>
          simp only [unmap, hblock]
          rfl
      | some context =>
          rw [unmap_delegated slot list adapter hblock]
          rfl

end Mapper

namespace Queue

/-- Two queues that differ in their backend only. -/
structure Twins (direct delegated : Queue P H D) : Prop where
  limits_eq : delegated.limits = direct.limits
  device_eq : delegated.device = direct.device
  ring_eq : delegated.ring = direct.ring
  pool_eq : delegated.pool = direct.pool
  statistics_eq : delegated.statistics = direct.statistics
  bounced_eq : delegated.contexts.map SlotContext.bounced =
    direct.contexts.map SlotContext.bounced
  /-- The direct backend leaves no mappings to return. -/
  unmapped : ∀ context ∈ direct.contexts, context.dmaMapped = false

namespace Twins

variable {direct delegated : Queue P H D} (htwins : Twins direct delegated)
include htwins

theorem context_bounced (position : Nat) :
    (delegated.context position).bounced = (direct.context position).bounced := by
  have hread : ∀ queue : Queue P H D, (queue.context position).bounced =
      ((queue.contexts.map SlotContext.bounced)[position]?).getD false := by
    intro queue
    unfold context
    rw [List.getElem?_map]
    cases queue.contexts[position]? <;> rfl
  rw [hread, hread, htwins.bounced_eq]

theorem context_unmapped (position : Nat) : (direct.context position).dmaMapped = false := by
  unfold context
  cases hcontext : direct.contexts[position]? with
  | none => rfl
  | some context => exact htwins.unmapped context (List.mem_of_getElem? hcontext)

/-- Both queues replace the context of one of their slots. -/
theorem setContext (position : Nat) (first second : SlotContext)
    (hbounced : second.bounced = first.bounced) (hunmapped : first.dmaMapped = false) :
    Twins (direct.setContext position first) (delegated.setContext position second) :=
  { htwins with
    bounced_eq := by
      unfold Queue.setContext
      rw [List.map_set, List.map_set, htwins.bounced_eq, hbounced]
    unmapped := by
      intro context hcontext
      rcases List.mem_or_eq_of_mem_set hcontext with hkept | rfl
      · exact htwins.unmapped context hkept
      · exact hunmapped }

/-- Both queues count the same thing. -/
theorem count (update : Statistics → Statistics) :
    Twins (direct.count update) (delegated.count update) :=
  { htwins with statistics_eq := congrArg update htwins.statistics_eq }

theorem unposted_eq : delegated.unposted = direct.unposted :=
  congrArg PacketRing.unposted htwins.ring_eq

theorem inFlight_eq : delegated.inFlight = direct.inFlight :=
  congrArg PacketRing.inFlight htwins.ring_eq

theorem outstanding_eq : delegated.outstanding = direct.outstanding :=
  congrArg PacketRing.outstanding htwins.ring_eq

theorem ready {move : Move P H D} (hready : direct.Ready move) : delegated.Ready move := by
  cases move with
  | attempt => rwa [ready_attempt_iff, htwins.unposted_eq, ← ready_attempt_iff]
  | scan => rwa [ready_scan_iff, htwins.inFlight_eq, ← ready_scan_iff]
  | _ => trivial

section Post

variable [Packet P] [Device P H] [Adapter D]

theorem post (packet : P) :
    Traced.Similar (!·.isMapping) (Agreed Twins) (direct.perform (.post packet))
      (delegated.perform (.post packet)) := by
  simp only [perform, Queue.post, htwins.ring_eq]
  cases direct.ring.post packet with
  | ok ring => exact .pure ⟨rfl, { htwins with ring_eq := rfl }⟩
  | error rejected => exact .pure ⟨rfl, htwins⟩

theorem pop :
    Traced.Similar (!·.isMapping) (Agreed Twins) (direct.perform .pop)
      (delegated.perform .pop) := by
  simp only [perform, pop?, htwins.ring_eq]
  cases direct.ring.pop? with
  | none => exact .pure ⟨rfl, htwins⟩
  | some popped => exact .pure ⟨rfl, { htwins with ring_eq := rfl }⟩

theorem cancel :
    Traced.Similar (!·.isMapping) (Agreed Twins) (direct.perform .cancel)
      (delegated.perform .cancel) := by
  simp only [perform, Queue.cancel, htwins.ring_eq]
  exact .pure ⟨rfl, { htwins with ring_eq := rfl }⟩

end Post

section Admit

variable [Packet P] [Device P H]

omit [Device P H] in
theorem withdrawn_eq (packet : P) : delegated.withdrawn packet = direct.withdrawn packet := by
  unfold withdrawn
  rw [htwins.ring_eq]

theorem consult_eq (packet : P) : delegated.consult packet = direct.consult packet := by
  unfold consult
  rw [htwins.limits_eq, htwins.device_eq]

omit [Packet P] [Device P H] in
theorem admitPosition_eq : delegated.admitPosition = direct.admitPosition := by
  unfold admitPosition
  rw [htwins.ring_eq]

omit [Packet P] [Device P H] in
theorem awaits {packet : P} (hawaits : direct.Awaits packet) : delegated.Awaits packet := by
  have hlength := congrArg List.length htwins.bounced_eq
  rw [List.length_map, List.length_map] at hlength
  refine ⟨?_, ?_⟩
  · rw [htwins.ring_eq, hawaits.packet_eq]
  · rw [htwins.admitPosition_eq, hlength]
    exact hawaits.position_lt

theorem asked (packet : P) : Twins (direct.asked packet) (delegated.asked packet) :=
  { htwins with
    device_eq := congrArg (fun consulted => consulted.value.2) (htwins.consult_eq packet)
    ring_eq := congrArg (fun ring : PacketRing P => ring.setState ring.admitted .admitted)
      htwins.ring_eq }

omit [Packet P] [Device P H] in
theorem conclude (admission : Admission) :
    Twins (direct.conclude admission) (delegated.conclude admission) :=
  { htwins with
    ring_eq := congrArg (PacketRing.concluded · admission) htwins.ring_eq
    statistics_eq := by
      unfold Queue.conclude
      rw [htwins.statistics_eq] }

omit [Packet P] [Device P H] in
theorem refuse (analysis : BounceAnalysis) :
    Traced.Similar (!·.isMapping) (Agreed Twins) (direct.refuse analysis)
      (delegated.refuse analysis) :=
  ⟨⟨rfl, htwins.count fun counters =>
    { counters with cannotTransmit := counters.cannotTransmit + 1 }⟩, rfl⟩

omit [Packet P] [Device P H] in
theorem failMapping (error : DmaError) :
    Agreed Twins (direct.failMapping error) (delegated.failMapping error) :=
  ⟨rfl, htwins.count fun counters =>
    { counters with otherDmaErrors := counters.otherDmaErrors + 1 }⟩

/-- Both queues copy the packet into the same buffer, or neither does. -/
theorem admitBounced (position : Nat) (packet : P) :
    Traced.Similar (!·.isMapping) (Agreed Twins) (direct.admitBounced position packet)
      (delegated.admitBounced position packet) := by
  have hpool := htwins.pool_eq
  rcases hbounce : direct.pool.bounce packet with ⟨error | list, pool⟩
  · have hother : delegated.pool.bounce packet = (.error error, pool) := by rw [hpool, hbounce]
    have hkept : Twins { direct with pool := pool } { delegated with pool := pool } :=
      { htwins with pool_eq := rfl }
    cases hexhausted : error.isExhaustion with
    | true =>
        rw [direct.admitBounced_of_exhausted position hbounce hexhausted,
          delegated.admitBounced_of_exhausted position hother hexhausted]
        exact ⟨⟨rfl, hkept.count fun counters =>
          { counters with bounceFailure := counters.bounceFailure + 1 }⟩, rfl⟩
    | false =>
        rw [direct.admitBounced_of_failed position hbounce hexhausted,
          delegated.admitBounced_of_failed position hother hexhausted]
        exact ⟨hkept.failMapping error, rfl⟩
  · have hother : delegated.pool.bounce packet = (.ok list, pool) := by rw [hpool, hbounce]
    rw [direct.admitBounced_of_ok position hbounce, delegated.admitBounced_of_ok position hother]
    have hmarked := htwins.setContext position
      { direct.context position with bounced := true }
      { delegated.context position with bounced := true } rfl (htwins.context_unmapped position)
    exact ⟨⟨rfl, { hmarked with
      device_eq := congrArg (Device.program · packet list) htwins.device_eq
      pool_eq := rfl
      statistics_eq := by rw [htwins.statistics_eq] }⟩, rfl⟩

variable [Adapter D]

/-- A packet for which both queues build the same list is handed over by both. Only the
delegated backend has something to return. -/
theorem admitInPlace (position : Nat) {packet : P} {sent : SgList}
    (hdirect : direct.backend = .direct)
    (hfirst : (direct.mapper.map position packet (direct.context position).list
      direct.adapter).value.answer = .ok sent)
    (hsecond : (delegated.mapper.map position packet (delegated.context position).list
      delegated.adapter).value.answer = .ok sent) :
    Traced.Similar (!·.isMapping) (Agreed Twins) (direct.admitInPlace position packet)
      (delegated.admitInPlace position packet) := by
  have hquiet := direct.mapper.outward_map position (direct.context position).list direct.adapter
    packet
  have hsilent := delegated.mapper.outward_map position (delegated.context position).list
    delegated.adapter packet
  rcases hmapping : direct.mapper.map position packet (direct.context position).list
    direct.adapter with ⟨mapping, calls⟩
  rcases hmapped : delegated.mapper.map position packet (delegated.context position).list
    delegated.adapter with ⟨mapped, more⟩
  rw [hmapping] at hfirst hquiet
  rw [hmapped] at hsecond hsilent
  rw [direct.admitInPlace_of_ok position hmapping hfirst,
    delegated.admitInPlace_of_ok position hmapped hsecond]
  have hmarked := htwins.setContext position
    { direct.context position with
      list := mapping.slotList
      dmaMapped := direct.backend == .delegated }
    { delegated.context position with
      list := mapped.slotList
      dmaMapped := delegated.backend == .delegated }
    (htwins.context_bounced position) (by rw [hdirect]; rfl)
  refine ⟨⟨rfl, { hmarked with
    device_eq := congrArg (Device.program · packet sent) htwins.device_eq }⟩, ?_⟩
  change outward (more ++ _) = outward (calls ++ _)
  rw [outward_append, outward_append, hquiet, hsilent]

/-- Where both queues would build the same list, they make the same attempt. -/
theorem admitOldest {packet : P} (hdirect : direct.backend = .direct)
    (hawaits : direct.Awaits packet)
    (hmapping : direct.decision packet = .transmitInPlace →
      ∃ sent, (direct.mapping packet).value.answer = .ok sent ∧
        (delegated.mapping packet).value.answer = .ok sent) :
    Traced.Similar (!·.isMapping) (Agreed Twins) direct.admitOldest delegated.admitOldest := by
  have hother := htwins.awaits hawaits
  have hattempt :
      Traced.Similar (!·.isMapping) (Agreed Twins) direct.attempt delegated.attempt := by
    cases hwithdrawn : direct.withdrawn packet with
    | true =>
        rw [direct.attempt_of_withdrawn hawaits hwithdrawn,
          delegated.attempt_of_withdrawn hother ((htwins.withdrawn_eq packet).trans hwithdrawn)]
        exact .pure ⟨rfl, { htwins with
          ring_eq := congrArg (fun ring : PacketRing P => ring.setState ring.admitted .admitted)
            htwins.ring_eq
          statistics_eq := by rw [htwins.statistics_eq] }⟩
    | false =>
        have hconsult := htwins.consult_eq packet
        rw [direct.attempt_of_kept hawaits hwithdrawn _ rfl, delegated.attempt_of_kept hother
          ((htwins.withdrawn_eq packet).trans hwithdrawn) _ rfl, hconsult,
          htwins.admitPosition_eq]
        have hasked := htwins.asked packet
        have hpursued : Traced.Similar (!·.isMapping) (Agreed Twins)
            ((direct.asked packet).pursue direct.admitPosition packet
              (direct.consult packet).value.1)
            ((delegated.asked packet).pursue direct.admitPosition packet
              (direct.consult packet).value.1) := by
          cases hdecision : (direct.consult packet).value.1 with
          | cannotTransmit =>
              have hlimits : (delegated.asked packet).limits = (direct.asked packet).limits :=
                htwins.limits_eq
              unfold pursue
              rw [hlimits]
              exact hasked.refuse _
          | transmitAfterBouncing => exact hasked.admitBounced _ packet
          | transmitInPlace =>
              rw [consult_decision] at hdecision
              obtain ⟨sent, hfirst, hsecond⟩ := hmapping hdecision
              unfold mapping at hsecond
              rw [htwins.admitPosition_eq] at hsecond
              exact hasked.admitInPlace direct.admitPosition hdirect hfirst hsecond
        refine ⟨hpursued.related, ?_⟩
        rw [List.filter_append, List.filter_append, hpursued.inView_eq]
  refine hattempt.bind fun hagreed => .pure ⟨hagreed.answer_eq, ?_⟩
  rw [hagreed.answer_eq]
  exact hagreed.related.conclude _

end Admit

section Release

variable [Device P H]

theorem flush : Traced.Similar (!·.isMapping) Twins direct.flush delegated.flush := by
  have hcounted := htwins.count fun counters => { counters with flushes := counters.flushes + 1 }
  exact ⟨{ hcounted with device_eq := congrArg Device.flush htwins.device_eq }, rfl⟩

/-- Both queues know how the oldest packet in flight ended, or ask the device. -/
theorem settle {packet : P}
    (hpacket : (direct.ring.slot direct.ring.released).packet = some packet) :
    Traced.Similar (!·.isMapping) (Agreed Twins) direct.settle delegated.settle := by
  have hring := htwins.ring_eq
  have hother : (delegated.ring.slot delegated.ring.released).packet = some packet := by
    rw [hring, hpacket]
  by_cases hknown : ∃ completion,
      (direct.ring.slot direct.ring.released).state = .completed completion
  · obtain ⟨completion, hstate⟩ := hknown
    rw [direct.settle_of_known hstate, delegated.settle_of_known (by rw [hring, hstate])]
    exact .pure ⟨rfl, htwins⟩
  · have hstate : ∀ completion,
        (direct.ring.slot direct.ring.released).state ≠ .completed completion :=
      fun completion heq => hknown ⟨completion, heq⟩
    rcases hstatus : Device.status direct.device packet with ⟨status, device⟩
    rw [direct.settle_of_asked hstate hpacket hstatus,
      delegated.settle_of_asked (by rw [hring]; exact hstate) hother
        (by rw [htwins.device_eq, hstatus])]
    have hasked : Twins { direct with device := device } { delegated with device := device } :=
      { htwins with device_eq := rfl }
    refine (Traced.Similar.record _).bind fun _ => ?_
    cases status with
    | pending =>
        exact .pure ⟨rfl, { hasked with
          ring_eq := congrArg
            (fun ring : PacketRing P => ring.setState ring.released .completionPending) hring }⟩
    | success => exact .pure ⟨rfl, hasked⟩
    | error =>
        exact (Traced.Similar.record _).bind fun _ => .pure ⟨rfl, hasked.count fun counters =>
          { counters with completedWithError := counters.completedWithError + 1 }⟩

variable [Adapter D]

omit [Device P H] in
/-- Both queues return a bounce buffer, or neither does. -/
theorem returnResources (position : Nat) :
    Traced.Similar (!·.isMapping) Twins (direct.returnResources position : Traced P _)
      (delegated.returnResources position) := by
  have hkept := htwins.context_unmapped position
  have hpool : delegated.poolReturned position = direct.poolReturned position := by
    unfold poolReturned
    rw [htwins.context_bounced, htwins.pool_eq]
  rw [direct.returnResources_of_unmapped hkept, direct.returnBuffer_of_unmapped hkept]
  cases hmapped : (delegated.context position).dmaMapped with
  | false =>
      rw [delegated.returnResources_of_unmapped hmapped,
        delegated.returnBuffer_of_unmapped hmapped]
      have hreturned := htwins.setContext position
        { list := (direct.context position).list } { list := (delegated.context position).list }
        rfl rfl
      exact .pure { hreturned with pool_eq := hpool }
  | true =>
      have hsilent := delegated.mapper.outward_unmap (P := P) position
        (delegated.context position).list delegated.adapter
      rcases hunmap : (delegated.mapper.unmap position (delegated.context position).list
        delegated.adapter : Traced P _) with ⟨⟨mapper, list, adapter⟩, calls⟩
      rw [hunmap] at hsilent
      rw [delegated.returnResources_of_mapped hmapped hunmap]
      have hreturned := htwins.setContext position
        { list := (direct.context position).list } { list := list } rfl rfl
      exact ⟨{ hreturned with pool_eq := hpool }, hsilent⟩

/-- Both queues release the oldest packet in flight, or neither does. -/
theorem releaseOldest {packet : P}
    (hpacket : (direct.ring.slot direct.ring.released).packet = some packet) :
    Traced.Similar (!·.isMapping) (Agreed Twins) direct.releaseOldest delegated.releaseOldest := by
  refine (htwins.settle hpacket).bind fun hagreed => ?_
  generalize direct.settle.value = left at hagreed ⊢
  generalize delegated.settle.value = right at hagreed ⊢
  obtain ⟨outcome, settled⟩ := left
  obtain ⟨answer, other⟩ := right
  obtain ⟨hanswer, hsettled⟩ := hagreed
  obtain rfl : answer = outcome := hanswer
  cases answer with
  | none => exact .pure ⟨rfl, hsettled⟩
  | some completion =>
      have hposition : other.releasePosition = settled.releasePosition := by
        unfold releasePosition
        rw [hsettled.ring_eq]
      dsimp only
      rw [hposition]
      refine (hsettled.returnResources settled.releasePosition).bind fun hreturned => ?_
      have hcounted := hreturned.count fun counters =>
        { counters with completed := counters.completed + 1 }
      exact .pure ⟨rfl, { hcounted with
        ring_eq := congrArg (PacketRing.release · completion) hreturned.ring_eq }⟩

end Release

end Twins

end Queue

end TransmitQueue
