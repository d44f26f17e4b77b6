import TransmitQueue.Proofs.Lockstep

/-!
# Backends

The two backends are interchangeable. A queue with the direct backend and one with the
delegated backend over an adapter without faults answer every run alike, and the device, the
clock and the log cannot tell them apart.
-/

namespace TransmitQueue

namespace ScriptedAdapter

/-- Two adapters that hand out the same memory. -/
structure SameMemory (adapter other : ScriptedAdapter) : Prop where
  base_eq : adapter.base = other.base
  shortfall_eq : adapter.shortfall = other.shortfall
  surplus_eq : adapter.surplus = other.surplus

end ScriptedAdapter

/-- An operation that leaves the adapter to the queue. -/
def Operation.SparesAdapter {P H D : Type} : Operation P H D → Prop
  | .changeAdapter _ => False
  | .post _ | .pop | .cancel | .advance | .drain .. | .resetStatistics | .changeDevice _ => True

namespace Queue

variable {P H : Type} [Packet P] [Device P H]

section Reached

variable {D : Type} [Adapter D] {start queue next : Queue P H D}

/-- A queue reached from another one by moves that leave the adapter to the queue. -/
def Reached (start queue : Queue P H D) : Prop :=
  ∃ steps, Course start steps queue ∧ ∀ step ∈ steps, step.move.sparesAdapter = true

theorem Reached.refl (queue : Queue P H D) : Reached queue queue :=
  ⟨[], .refl, fun _ hstep => absurd hstep List.not_mem_nil⟩

theorem Reached.follow (hreached : Reached start queue) {more : List (Step P H D)}
    (hmore : Course queue more next) (hspared : ∀ step ∈ more, step.move.sparesAdapter = true) :
    Reached start next := by
  obtain ⟨steps, hcourse, hbefore⟩ := hreached
  refine ⟨steps ++ more, hcourse.append hmore, fun step hstep => ?_⟩
  rcases List.mem_append.mp hstep with hearlier | hlater
  · exact hbefore step hearlier
  · exact hspared step hlater

theorem Reached.move (hreached : Reached start queue) {move : Move P H D}
    (hready : queue.Ready move) (hspared : move.sparesAdapter = true) :
    Reached start (queue.move move).value := by
  refine hreached.follow (.single hready) fun step hstep => ?_
  rw [List.mem_singleton.mp hstep]
  exact hspared

end Reached

/-- Two queues as they are built, one for each backend. -/
structure Opposed (first second : Queue P H ScriptedAdapter) : Prop where
  direct_built : Built first.config first
  delegated_built : Built second.config second
  direct_eq : first.backend = .direct
  delegated_eq : second.backend = .delegated
  obliging : Obliging second
  mapped_eq : second.adapter.mapped = []
  unmapped_eq : second.adapter.unmapped = []
  twins : Twins first second

/-- Two queues reached from the start of a run, which still differ in their backend only. -/
structure Paired (first second direct delegated : Queue P H ScriptedAdapter) : Prop where
  twins : Twins direct delegated
  direct_reached : Reached first direct
  delegated_reached : Reached second delegated

omit [Packet P] [Device P H] in
/-- The memory of a pool is the memory that the adapter hands out. -/
theorem pool_eq_of_build {config : Config} {device : H} {adapter : ScriptedAdapter}
    {queue : Queue P H ScriptedAdapter}
    (hbuild : (build config device adapter).value = .ok queue) {size : Nat}
    (hsize : config.bounceBufferSize? = some size) :
    queue.pool = ⟨.zeroed (size * config.bounceBuffers - adapter.shortfall + adapter.surplus)
      adapter.base, size, config.bounceBuffers, 0, 0⟩ := by
  obtain ⟨pool, hpool, rfl⟩ := build_eq_ok hbuild
  change pool = _
  unfold BouncePool.build at hpool
  rw [hsize] at hpool
  dsimp only at hpool
  split at hpool
  next => cases hpool
  next =>
    simp only [Traced.value_bind, Adapter.allocate] at hpool
    cases hfailed : adapter.failAllocation with
    | true =>
        rw [hfailed] at hpool
        cases hpool
    | false =>
        rw [hfailed] at hpool
        simp only [Bool.false_eq_true, if_false] at hpool
        split at hpool
        next => cases hpool
        next => exact (Except.ok.inj hpool).symm

omit [Packet P] [Device P H] in
theorem opposed_of_build {config : Config} {device : H} {bypassed trusted : Bool}
    {idle adapter : ScriptedAdapter} {direct delegated : Queue P H ScriptedAdapter}
    (hfirst : (build { config with allowBypass := bypassed } device idle).value = .ok direct)
    (hsecond : (build { config with allowBypass := trusted } device adapter).value = .ok delegated)
    (hdirect : direct.backend = .direct) (hdelegated : delegated.backend = .delegated)
    (hmemory : idle.SameMemory adapter) (hfree : adapter.FaultFree config.ringCapacity)
    (hmapped : adapter.mapped = []) (hunmapped : adapter.unmapped = []) :
    Opposed direct delegated := by
  have hbuilt := built_of_build hfirst
  have hother := built_of_build hsecond
  have hsame := sameLog_build hsecond
  have hobliging := obliging_build hsecond hdelegated hfree
  obtain ⟨size, hsize⟩ := Option.isSome_iff_exists.mp
    ((Config.valid_iff _).mp hbuilt.valid).2.2.1
  have hpool : delegated.pool = direct.pool := by
    rw [pool_eq_of_build hfirst hsize, pool_eq_of_build hsecond hsize, hmemory.base_eq,
      hmemory.shortfall_eq, hmemory.surplus_eq]
    rfl
  obtain ⟨_, _, rfl⟩ := build_eq_ok hfirst
  obtain ⟨_, _, rfl⟩ := build_eq_ok hsecond
  refine ⟨hbuilt, hother, hdirect, hdelegated, hobliging, hsame.mapped_eq.trans hmapped,
    hsame.unmapped_eq.trans hunmapped, ⟨rfl, rfl, rfl, hpool, rfl,
      by simp only [List.map_replicate], fun context hcontext => ?_⟩⟩
  rw [(List.mem_replicate.mp hcontext).2]

namespace Paired

variable {first second direct delegated : Queue P H ScriptedAdapter}

theorem refl (hopposed : Opposed first second) : Paired first second first second :=
  ⟨hopposed.twins, .refl first, .refl second⟩

variable (hpaired : Paired first second direct delegated) (hopposed : Opposed first second)
include hpaired hopposed

/-- A packet that goes in place is mapped by both backends, to the same list. -/
theorem mapped {packet : P} (hroom : direct.ring.admitted < direct.ring.posted)
    (hdecision : direct.decision packet = .transmitInPlace) :
    (direct.mapping packet).value.answer = .ok (direct.inPlaceList packet) ∧
      (delegated.mapping packet).value.answer = .ok (direct.inPlaceList packet) := by
  have htwins := hpaired.twins
  obtain ⟨steps, hcourse, _⟩ := hpaired.direct_reached
  obtain ⟨others, hother, hspared⟩ := hpaired.delegated_reached
  have hlaid := hcourse.laidOut hopposed.direct_built
  have hbeside := hother.laidOut hopposed.delegated_built
  have hordered := (hother.staged hopposed.delegated_built.sound).ordered
  have hsame : delegated.decision packet = direct.decision packet := by
    rw [← consult_decision, ← consult_decision, htwins.consult_eq]
  have hlist : delegated.inPlaceList packet = direct.inPlaceList packet := by
    unfold inPlaceList
    rw [show delegated.config.elementLimit = direct.config.elementLimit from
      congrArg BounceLimits.maximumElements htwins.limits_eq]
  have hobliging := hother.obliging hopposed.delegated_built.sound hspared hopposed.obliging
  -- As many mappings as the ring has slots would leave no packet to admit.
  have houtstanding := hother.outstanding_le hopposed.delegated_built hspared hopposed.mapped_eq
    hopposed.unmapped_eq
  have hcapacity : delegated.adapter.outstanding < delegated.config.ringCapacity := by
    have htaken := hordered.taken_le
    have hreleased := hordered.released_le
    have hspan := hordered.posted_le
    unfold inFlight PacketRing.inFlight at houtstanding
    rw [← htwins.ring_eq] at hroom
    rw [hbeside.config_eq, ← hbeside.capacity_eq]
    omega
  have hanswer := hobliging.inPlaceList hopposed.delegated_built hbeside
    (hbeside.backend_eq.trans hopposed.delegated_eq) hcapacity (hsame.trans hdecision)
  exact ⟨inPlaceList_of_direct hlaid (hlaid.backend_eq.trans hopposed.direct_eq) hdecision,
    hanswer.trans (congrArg Except.ok hlist)⟩

/-- The one thing that could part the two queues is a packet that only one of them maps. -/
theorem admitOldest (hready : direct.Ready .attempt) :
    Traced.Similar (!·.isMapping) (Agreed (Paired first second)) direct.admitOldest
      delegated.admitOldest := by
  have hroom : direct.ring.admitted < direct.ring.posted := hready
  obtain ⟨steps, hcourse, _⟩ := hpaired.direct_reached
  have hdirect := (hcourse.laidOut hopposed.direct_built).backend_eq.trans hopposed.direct_eq
  obtain ⟨packet, hawaits⟩ := (hcourse.sound hopposed.direct_built.sound).exists_awaits hroom
  have hsimilar := hpaired.twins.admitOldest hdirect hawaits
    fun hdecision => ⟨_, hpaired.mapped hopposed hroom hdecision⟩
  exact hsimilar.imp fun hagreed => ⟨hagreed.answer_eq, hagreed.related,
    hpaired.direct_reached.move hready rfl,
    hpaired.delegated_reached.move (hpaired.twins.ready hready) rfl⟩

omit hopposed in
theorem flush :
    Traced.Similar (!·.isMapping) (Paired first second) direct.flush delegated.flush := by
  refine hpaired.twins.flush.imp fun htwins => ⟨htwins, ?_, ?_⟩
  · exact hpaired.direct_reached.move (show direct.Ready .flush from trivial) rfl
  · exact hpaired.delegated_reached.move (show delegated.Ready .flush from trivial) rfl

theorem releaseOldest (hready : direct.Ready .scan) :
    Traced.Similar (!·.isMapping) (Agreed (Paired first second)) direct.releaseOldest
      delegated.releaseOldest := by
  obtain ⟨steps, hcourse, _⟩ := hpaired.direct_reached
  have hstaged := hcourse.staged hopposed.direct_built.sound
  have hroom : direct.ring.released < direct.ring.admitted := hready
  obtain ⟨packet, hpacket⟩ := hstaged.occupied direct.ring.released hstaged.ordered.taken_le
    (Nat.lt_of_lt_of_le hroom hstaged.ordered.admitted_le)
  exact (hpaired.twins.releaseOldest hpacket).imp fun hagreed =>
    ⟨hagreed.answer_eq, hagreed.related, hpaired.direct_reached.move hready rfl,
      hpaired.delegated_reached.move (hpaired.twins.ready hready) rfl⟩

omit hpaired in
theorem simulation : Simulation (fun call => !call.isMapping) (Paired first second) where
  unposted_eq hpaired := hpaired.twins.unposted_eq
  inFlight_eq hpaired := hpaired.twins.inFlight_eq
  outstanding_eq hpaired := hpaired.twins.outstanding_eq
  admitOldest hpaired hready := hpaired.admitOldest hopposed hready
  flush hpaired := hpaired.flush
  releaseOldest hpaired hready := hpaired.releaseOldest hopposed hready

omit hopposed in
/-- An operation that is one move keeps the queues paired. -/
theorem follow {operation : Operation P H ScriptedAdapter} {move : Move P H ScriptedAdapter}
    (hsteps : ∀ queue : Queue P H ScriptedAdapter, queue.steps operation = [⟨queue, move⟩])
    (hspared : move.sparesAdapter = true)
    (hsimilar : Traced.Similar (!·.isMapping) (Agreed Twins) (direct.perform operation)
      (delegated.perform operation)) :
    Traced.Similar (!·.isMapping) (Agreed (Paired first second)) (direct.perform operation)
      (delegated.perform operation) := by
  have hfollow : ∀ {start queue : Queue P H ScriptedAdapter}, Reached start queue →
      Reached start (queue.perform operation).value.2 := by
    intro start queue hreached
    have hcourse := (queue.course_perform operation).1
    rw [hsteps] at hcourse
    refine hreached.follow hcourse fun step hstep => ?_
    rw [List.mem_singleton.mp hstep]
    exact hspared
  exact hsimilar.imp fun hagreed => ⟨hagreed.answer_eq, hagreed.related,
    hfollow hpaired.direct_reached, hfollow hpaired.delegated_reached⟩

/-- Every operation that leaves the adapter to the queue is answered alike. -/
theorem perform {operation : Operation P H ScriptedAdapter} (hspared : operation.SparesAdapter) :
    Traced.Similar (!·.isMapping) (Agreed (Paired first second)) (direct.perform operation)
      (delegated.perform operation) := by
  have htwins := hpaired.twins
  cases operation with
  | post packet => exact hpaired.follow (fun _ => rfl) rfl (htwins.post packet)
  | pop => exact hpaired.follow (fun _ => rfl) rfl htwins.pop
  | cancel => exact hpaired.follow (fun _ => rfl) rfl htwins.cancel
  | advance => exact (simulation hopposed).performAdvance hpaired
  | drain interval timeout => exact (simulation hopposed).performDrain hpaired interval timeout
  | resetStatistics =>
      exact hpaired.follow (fun _ => rfl) rfl
        (.pure ⟨rfl, { htwins with statistics_eq := rfl }⟩)
  | changeDevice change =>
      exact hpaired.follow (fun _ => rfl) rfl
        (.pure ⟨rfl, { htwins with device_eq := congrArg change htwins.device_eq }⟩)
  | changeAdapter change => cases hspared

theorem run (operations : List (Operation P H ScriptedAdapter))
    (hspared : ∀ operation ∈ operations, operation.SparesAdapter) :
    Traced.Similar (!·.isMapping) (Agreed (Paired first second)) (direct.run operations)
      (delegated.run operations) := by
  refine similar_run (fun entry => entry.1.SparesAdapter) ?_ hpaired operations ?_
  · exact fun hrelated hspared => hrelated.perform hopposed hspared
  · exact fun entry hentry => hspared _ (operation_mem_of_mem_transcript hentry)

end Paired

/-- Two queues that neither the caller nor the device can tell apart. -/
structure Indistinct (direct delegated : Queue P H ScriptedAdapter) : Prop where
  packetState?_eq : ∀ cursor, delegated.packetState? cursor = direct.packetState? cursor
  unposted_eq : delegated.unposted = direct.unposted
  inFlight_eq : delegated.inFlight = direct.inFlight
  completed_eq : delegated.completed = direct.completed
  outstanding_eq : delegated.outstanding = direct.outstanding
  statistics_eq : delegated.statistics = direct.statistics
  bounceBuffersInUse_eq : delegated.bounceBuffersInUse = direct.bounceBuffersInUse
  /-- The counts of buffers taken and given back, and what every buffer holds. -/
  pool_eq : delegated.pool = direct.pool
  /-- The device with everything that it was told. -/
  device_eq : delegated.device = direct.device

omit [Packet P] [Device P H] in
theorem Twins.indistinct {direct delegated : Queue P H ScriptedAdapter}
    (htwins : Twins direct delegated) : Indistinct direct delegated where
  packetState?_eq cursor := congrArg (PacketRing.state? · cursor) htwins.ring_eq
  unposted_eq := htwins.unposted_eq
  inFlight_eq := htwins.inFlight_eq
  completed_eq := congrArg PacketRing.reclaimable htwins.ring_eq
  outstanding_eq := htwins.outstanding_eq
  statistics_eq := htwins.statistics_eq
  bounceBuffersInUse_eq := congrArg BouncePool.inUse htwins.pool_eq
  pool_eq := htwins.pool_eq
  device_eq := htwins.device_eq

/-- The two backends are interchangeable. A queue with the direct backend and one with the
delegated backend over an adapter without faults, built alike otherwise, give the same
answers in every run and are indistinct after it; and apart from mappings they make the same
calls in the same order, with the same lists. -/
theorem backends_interchangeable {config : Config} {device : H} {bypassed trusted : Bool}
    {idle adapter : ScriptedAdapter} {direct delegated : Queue P H ScriptedAdapter}
    (hfirst : (build { config with allowBypass := bypassed } device idle).value = .ok direct)
    (hsecond : (build { config with allowBypass := trusted } device adapter).value = .ok delegated)
    (hdirect : direct.backend = .direct) (hdelegated : delegated.backend = .delegated)
    (hmemory : idle.SameMemory adapter) (hfree : adapter.FaultFree config.ringCapacity)
    (hmapped : adapter.mapped = []) (hunmapped : adapter.unmapped = [])
    (operations : List (Operation P H ScriptedAdapter))
    (hspared : ∀ operation ∈ operations, operation.SparesAdapter) :
    delegated.transcript operations = direct.transcript operations ∧
      Indistinct (direct.after operations) (delegated.after operations) ∧
      outward (delegated.run operations).events = outward (direct.run operations).events := by
  have hopposed := opposed_of_build hfirst hsecond hdirect hdelegated hmemory hfree hmapped
    hunmapped
  have hsimilar := (Paired.refl hopposed).run hopposed operations hspared
  exact ⟨hsimilar.related.answer_eq, hsimilar.related.related.twins.indistinct,
    hsimilar.inView_eq⟩

/-- The sample queue with the direct backend. -/
def sampleDirectQueue (device : ScriptedDevice) :
    Queue ScriptedPacket ScriptedDevice ScriptedAdapter :=
  (build { sampleConfig with allowBypass := true } device
    { bypass := true : ScriptedAdapter }).value.toOption.get rfl

/-- The mapped packet found pending, then done and released. -/
def sampleReleasedRun : List (Operation ScriptedPacket ScriptedDevice ScriptedAdapter) :=
  [.post sampleMappedPacket, .advance, .changeDevice fun device => device.complete 2, .advance]

theorem sample_backends_interchangeable :
    (sampleDirectQueue (.hold {} 2)).backend = .direct ∧
      (sampleQueue (.hold {} 2)).backend = .delegated ∧
      ((sampleQueue (.hold {} 2)).after sampleReleasedRun).adapter.mapped = [0] ∧
      ((sampleQueue (.hold {} 2)).after sampleReleasedRun).adapter.unmapped = [0] ∧
      (sampleQueue (.hold {} 2)).transcript sampleReleasedRun =
        (sampleDirectQueue (.hold {} 2)).transcript sampleReleasedRun ∧
      Indistinct ((sampleDirectQueue (.hold {} 2)).after sampleReleasedRun)
        ((sampleQueue (.hold {} 2)).after sampleReleasedRun) ∧
      outward ((sampleQueue (.hold {} 2)).run sampleReleasedRun).events =
        outward ((sampleDirectQueue (.hold {} 2)).run sampleReleasedRun).events := by
  have hfirst : (build { sampleConfig with allowBypass := true } (ScriptedDevice.hold {} 2)
      { bypass := true : ScriptedAdapter }).value = .ok (sampleDirectQueue (.hold {} 2)) := rfl
  have hsecond : (build { sampleConfig with allowBypass := false } (ScriptedDevice.hold {} 2)
      ({} : ScriptedAdapter)).value = .ok (sampleQueue (.hold {} 2)) := rfl
  have hfree : ({} : ScriptedAdapter).FaultFree sampleConfig.ringCapacity :=
    ⟨rfl, rfl, rfl, by decide⟩
  have hspared : ∀ operation ∈ sampleReleasedRun, operation.SparesAdapter := by
    intro operation hoperation
    simp only [sampleReleasedRun, List.mem_cons, List.not_mem_nil, or_false] at hoperation
    rcases hoperation with rfl | rfl | rfl | rfl <;> trivial
  exact ⟨rfl, rfl, rfl, rfl, backends_interchangeable hfirst hsecond rfl rfl ⟨rfl, rfl, rfl⟩
    hfree rfl rfl sampleReleasedRun hspared⟩

end Queue

end TransmitQueue
