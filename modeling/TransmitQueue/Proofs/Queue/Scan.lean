import TransmitQueue.Proofs.Mapping.Scratch
import TransmitQueue.Proofs.Ring.Operations
import TransmitQueue.Queue.Advance

/-!
# One look at the oldest packet in flight

Everything that a look at the oldest packet in flight can do: whether the packet is
released and how it ended, the calls that are made, and the queue that is left.
-/

namespace TransmitQueue.Queue

variable {P H D : Type}

/-- The slot number of the release cursor. -/
def releasePosition (queue : Queue P H D) : Nat := queue.ring.position queue.ring.released

variable [Packet P] [Device P H] [Adapter D]

/-- Looks at the oldest packet in flight, and releases it if its outcome is known. -/
def releaseOldest (queue : Queue P H D) : Traced P (Option Completion × Queue P H D) := do
  let (outcome, next) ← queue.settle
  match outcome with
  | none => pure (none, next)
  | some completion =>
      let next ← next.returnResources next.releasePosition
      pure (some completion,
        { next with ring := next.ring.release completion }.count fun counters =>
          { counters with completed := counters.completed + 1 })

/-- The ways in which the outcome of a packet becomes known: the outcome, the calls
that were made, and the queue that is left. -/
inductive Settled (queue : Queue P H D) (packet : P) :
    Completion → List (Event P) → Queue P H D → Prop where
  | known (completion : Completion)
      (hstate : (queue.ring.slot queue.ring.released).state = .completed completion) :
      Settled queue packet completion [] queue
  | success (device : H)
      (hstate : ∀ completion, (queue.ring.slot queue.ring.released).state ≠ .completed completion)
      (hstatus : Device.status queue.device packet = (.success, device)) :
      Settled queue packet .success [.status packet .success] { queue with device := device }
  | error (device : H)
      (hstate : ∀ completion, (queue.ring.slot queue.ring.released).state ≠ .completed completion)
      (hstatus : Device.status queue.device packet = (.error, device)) :
      Settled queue packet (.failed .hardware)
        [.status packet .error, .notice .transmitError]
        { queue with
          device := device
          statistics :=
            { queue.statistics with
              completedWithError := queue.statistics.completedWithError + 1 } }

/-- The pool after a slot returned its bounce buffer, if it holds one. -/
def poolReturned (queue : Queue P H D) (position : Nat) : BouncePool :=
  if (queue.context position).bounced then queue.pool.release.2 else queue.pool

/-- The ways in which the mapping resources of a slot are returned: the calls that were
made, and the queue that is left. In either way a bounce buffer goes back as well. -/
inductive Returned (queue : Queue P H D) (position : Nat) :
    List (Event P) → Queue P H D → Prop where
  | unmapped (hmapped : (queue.context position).dmaMapped = false) :
      Returned queue position []
        { queue with
          pool := queue.poolReturned position
          contexts := queue.contexts.set position { list := (queue.context position).list } }
  | mapped (mapper : Mapper) (list : SgList) (adapter : D) (calls : List (Event P))
      (hmapped : (queue.context position).dmaMapped = true)
      (hunmap : queue.mapper.unmap position (queue.context position).list queue.adapter =
        ⟨(mapper, list, adapter), calls⟩) :
      Returned queue position calls
        { queue with
          mapper := mapper
          adapter := adapter
          pool := queue.poolReturned position
          contexts := queue.contexts.set position { list := list } }

/-- The calls of a return: a slot with an adapter mapping hands back its list, with the
context block as it is. -/
def returnCalls (queue : Queue P H D) (position : Nat) : List (Event P) :=
  if (queue.context position).dmaMapped then
    (queue.mapper.block? position).toList.map fun context =>
      .unmap position context (queue.context position).list
  else []

/-- The ways in which a look at the oldest packet in flight ends. -/
inductive Scanned (queue : Queue P H D) (packet : P) :
    Option Completion → List (Event P) → Queue P H D → Prop where
  | pending (device : H)
      (hstate : ∀ completion, (queue.ring.slot queue.ring.released).state ≠ .completed completion)
      (hstatus : Device.status queue.device packet = (.pending, device)) :
      Scanned queue packet none [.status packet .pending]
        { queue with
          device := device
          ring := queue.ring.setState queue.ring.released .completionPending }
  | released (completion : Completion) (calls returns : List (Event P))
      (settled next : Queue P H D)
      (hsettled : Settled queue packet completion calls settled)
      (hreturned : Returned settled settled.releasePosition returns next) :
      Scanned queue packet (some completion) (calls ++ returns)
        { next with
          ring := next.ring.release completion
          statistics := { next.statistics with completed := next.statistics.completed + 1 } }

omit [Packet P] [Device P H] in
theorem Returned.ring {queue next : Queue P H D} {position : Nat} {calls : List (Event P)}
    (hreturned : Returned queue position calls next) : next.ring = queue.ring := by
  cases hreturned <;> rfl

omit [Packet P] [Device P H] in
theorem Returned.calls_eq {queue next : Queue P H D} {position : Nat} {calls : List (Event P)}
    (hreturned : Returned queue position calls next) : calls = queue.returnCalls position := by
  unfold returnCalls
  cases hreturned with
  | unmapped hmapped => exact (if_neg (Bool.eq_false_iff.mp hmapped)).symm
  | mapped mapper list adapter calls hmapped hunmap =>
      rw [if_pos hmapped, ← queue.mapper.events_unmap position _ queue.adapter, hunmap]

omit [Packet P] [Device P H] [Adapter D] in
/-- A return makes one call at most, for its own slot. -/
theorem returnCalls_or (queue : Queue P H D) (position : Nat) :
    (queue.returnCalls position : List (Event P)) = [] ∨
      (queue.context position).dmaMapped = true ∧ ∃ context, queue.returnCalls position =
        [.unmap position context (queue.context position).list] := by
  unfold returnCalls
  cases (queue.context position).dmaMapped with
  | false => exact Or.inl rfl
  | true =>
      cases queue.mapper.block? position with
      | none => exact Or.inl rfl
      | some context => exact Or.inr ⟨rfl, context, rfl⟩

omit [Packet P] [Adapter D] in
/-- Learning how a packet ended changes nothing but the device and the counters. -/
theorem Settled.exists_device {queue next : Queue P H D} {packet : P} {completion : Completion}
    {calls : List (Event P)} (hsettled : Settled queue packet completion calls next) :
    ∃ device statistics,
      next = { queue with device := device, statistics := statistics } := by
  cases hsettled with
  | known hstate => exact ⟨_, _, rfl⟩
  | success device hstate hstatus => exact ⟨device, _, rfl⟩
  | error device hstate hstatus => exact ⟨device, _, rfl⟩

section Return

omit [Packet P] [Device P H]

omit [Adapter D] in
/-- A slot without an adapter mapping holds nothing once its bounce buffer is back. -/
theorem returnBuffer_of_unmapped (queue : Queue P H D) {position : Nat}
    (hmapped : (queue.context position).dmaMapped = false) :
    queue.returnBuffer position =
      { queue with
        pool := queue.poolReturned position
        contexts := queue.contexts.set position { list := (queue.context position).list } } := by
  have hsame := queue.contexts_set_context position
  unfold returnBuffer poolReturned
  generalize queue.context position = context at hmapped hsame ⊢
  obtain ⟨list, bounced, dmaMapped⟩ := context
  obtain rfl : dmaMapped = false := hmapped
  cases bounced with
  | true => rfl
  | false => simp only [Bool.false_eq_true, if_false, hsame]

theorem returnResources_of_unmapped (queue : Queue P H D) {position : Nat}
    (hmapped : (queue.context position).dmaMapped = false) :
    (queue.returnResources position : Traced P _) = pure (queue.returnBuffer position) := by
  have hkept : (queue.returnMapping position : Traced P _) = pure queue := by
    unfold returnMapping
    exact if_neg (by rw [hmapped]; exact Bool.false_ne_true)
  unfold returnResources
  rw [hkept]
  rfl

omit [Adapter D] in
/-- Only a slot that there is holds anything. -/
theorem position_lt_of_mapped (queue : Queue P H D) {position : Nat}
    (hmapped : (queue.context position).dmaMapped = true) : position < queue.contexts.length := by
  refine Nat.lt_of_not_le fun hout => ?_
  unfold context at hmapped
  rw [List.getElem?_eq_none hout] at hmapped
  cases hmapped

theorem returnResources_of_mapped (queue : Queue P H D) {position : Nat} {mapper : Mapper}
    {list : SgList} {adapter : D} {calls : List (Event P)}
    (hmapped : (queue.context position).dmaMapped = true)
    (hunmap : queue.mapper.unmap position (queue.context position).list queue.adapter =
      ⟨(mapper, list, adapter), calls⟩) :
    queue.returnResources position =
      ⟨{ queue with
          mapper := mapper
          adapter := adapter
          pool := queue.poolReturned position
          contexts := queue.contexts.set position { list := list } }, calls⟩ := by
  let given : Queue P H D :=
    { queue with mapper := mapper, adapter := adapter }.setContext position
      { queue.context position with list := list, dmaMapped := false }
  have hgiven : queue.returnMapping position = ⟨given, calls⟩ := by
    unfold returnMapping
    refine (if_pos hmapped).trans ?_
    rw [hunmap]
    exact Traced.ext rfl (List.append_nil _)
  have hcontext : given.context position =
      { queue.context position with list := list, dmaMapped := false } :=
    context_setContext _ (queue.position_lt_of_mapped hmapped) _
  unfold returnResources
  rw [hgiven, Traced.mk_bind]
  refine Traced.ext ?_ (List.append_nil _)
  change given.returnBuffer position = _
  rw [given.returnBuffer_of_unmapped (by rw [hcontext])]
  simp only [poolReturned, hcontext]
  simp only [given, setContext, List.set_set]

/-- Every return of resources goes one of the ways listed. -/
theorem returned_returnResources (queue : Queue P H D) (position : Nat) :
    Returned queue position (queue.returnResources position).events
      (queue.returnResources position).value := by
  cases hmapped : (queue.context position).dmaMapped with
  | false =>
      rw [queue.returnResources_of_unmapped hmapped, queue.returnBuffer_of_unmapped hmapped]
      exact .unmapped hmapped
  | true =>
      rcases hunmap : (queue.mapper.unmap position (queue.context position).list queue.adapter :
        Traced P _) with ⟨⟨mapper, list, adapter⟩, calls⟩
      rw [queue.returnResources_of_mapped hmapped hunmap]
      exact .mapped mapper list adapter calls hmapped hunmap

end Return

section Settle

omit [Packet P] [Adapter D]

theorem settle_of_known (queue : Queue P H D) {completion : Completion}
    (hstate : (queue.ring.slot queue.ring.released).state = .completed completion) :
    queue.settle = pure (some completion, queue) := by
  unfold settle
  simp only [hstate]

theorem settle_of_vacant (queue : Queue P H D)
    (hstate : ∀ completion, (queue.ring.slot queue.ring.released).state ≠ .completed completion)
    (hpacket : (queue.ring.slot queue.ring.released).packet = none) :
    queue.settle = pure (none, queue) := by
  unfold settle
  cases hslot : (queue.ring.slot queue.ring.released).state with
  | completed completion => exact False.elim (hstate completion hslot)
  | _ => simp only [hslot, hpacket]

theorem settle_of_asked (queue : Queue P H D) {packet : P} {status : DeviceStatus} {device : H}
    (hstate : ∀ completion, (queue.ring.slot queue.ring.released).state ≠ .completed completion)
    (hpacket : (queue.ring.slot queue.ring.released).packet = some packet)
    (hstatus : Device.status queue.device packet = (status, device)) :
    queue.settle = (do
      Traced.record (.status packet status)
      match status with
      | .pending => pure (none, ({ queue with
          device := device
          ring := queue.ring.setState queue.ring.released .completionPending } :
            Queue P H D))
      | .success => pure (some .success, { queue with device := device })
      | .error =>
          Traced.record (.notice .transmitError)
          pure (some (.failed .hardware), ({ queue with device := device } :
            Queue P H D).count fun counters =>
              { counters with completedWithError := counters.completedWithError + 1 })) := by
  unfold settle
  cases hslot : (queue.ring.slot queue.ring.released).state with
  | completed completion => exact False.elim (hstate completion hslot)
  | _ => cases status <;> simp only [hslot, hpacket, hstatus]

end Settle

section Release

omit [Packet P]

theorem releaseOldest_of_settle (queue : Queue P H D) {completion : Completion}
    {settled : Queue P H D} {calls : List (Event P)}
    (hsettle : queue.settle = ⟨(some completion, settled), calls⟩) :
    queue.releaseOldest =
      ⟨(some completion,
        { (settled.returnResources settled.releasePosition).value with
          ring := (settled.returnResources settled.releasePosition).value.ring.release completion
          statistics :=
            { (settled.returnResources settled.releasePosition).value.statistics with
              completed := (settled.returnResources
                settled.releasePosition).value.statistics.completed + 1 } }),
        calls ++ (settled.returnResources settled.releasePosition).events⟩ := by
  unfold releaseOldest
  rw [hsettle, Traced.mk_bind]
  simp only [Traced.value_bind, Traced.events_bind, Traced.events_pure, List.append_nil]
  rfl

/-- A packet whose outcome is not known yet is asked about, and only a busy device
leaves it in flight. -/
theorem scanned_releaseOldest (queue : Queue P H D) {packet : P}
    (hpacket : (queue.ring.slot queue.ring.released).packet = some packet) :
    Scanned queue packet queue.releaseOldest.value.1 queue.releaseOldest.events
      queue.releaseOldest.value.2 := by
  have hrelease : ∀ completion calls settled, Settled queue packet completion calls settled →
      queue.settle = ⟨(some completion, settled), calls⟩ →
      Scanned queue packet queue.releaseOldest.value.1 queue.releaseOldest.events
        queue.releaseOldest.value.2 := by
    intro completion calls settled hsettled hsettle
    rw [queue.releaseOldest_of_settle hsettle]
    exact .released completion calls _ settled _ hsettled
      (settled.returned_returnResources settled.releasePosition)
  by_cases hknown : ∃ completion,
      (queue.ring.slot queue.ring.released).state = .completed completion
  · obtain ⟨completion, hstate⟩ := hknown
    exact hrelease completion [] queue (.known completion hstate) (queue.settle_of_known hstate)
  · have hstate : ∀ completion,
        (queue.ring.slot queue.ring.released).state ≠ .completed completion :=
      fun completion heq => hknown ⟨completion, heq⟩
    rcases hstatus : Device.status queue.device packet with ⟨status, device⟩
    have hsettle := queue.settle_of_asked hstate hpacket hstatus
    cases status with
    | pending =>
        have hcase := Scanned.pending (D := D) device hstate hstatus
        unfold releaseOldest
        rw [hsettle]
        exact hcase
    | success => exact hrelease _ _ _ (.success device hstate hstatus) hsettle
    | error => exact hrelease _ _ _ (.error device hstate hstatus) hsettle

theorem Scanned.ring_of_released {queue next : Queue P H D} {packet : P}
    {completion : Completion} {calls : List (Event P)}
    (hscanned : Scanned queue packet (some completion) calls next) :
    next.ring = queue.ring.release completion := by
  cases hscanned with
  | released _ _ _ settled returned hsettled hreturned =>
      obtain ⟨device, statistics, rfl⟩ := hsettled.exists_device
      exact congrArg (·.release completion) hreturned.ring

/-- A release moves the release cursor past its packet, and no other cursor. -/
theorem ring_releaseOldest (queue : Queue P H D) {completion : Completion}
    (houtcome : queue.releaseOldest.value.1 = some completion) :
    queue.releaseOldest.value.2.ring = queue.ring.release completion := by
  by_cases hknown : ∃ known, (queue.ring.slot queue.ring.released).state = .completed known
  · obtain ⟨known, hstate⟩ := hknown
    have hrelease := queue.releaseOldest_of_settle (queue.settle_of_known hstate)
    rw [hrelease] at houtcome ⊢
    obtain rfl := Option.some.inj houtcome
    exact congrArg (·.release known) (queue.returned_returnResources queue.releasePosition).ring
  · have hstate : ∀ known, (queue.ring.slot queue.ring.released).state ≠ .completed known :=
      fun known heq => hknown ⟨known, heq⟩
    cases hpacket : (queue.ring.slot queue.ring.released).packet with
    | none =>
        unfold releaseOldest at houtcome
        rw [queue.settle_of_vacant hstate hpacket] at houtcome
        cases houtcome
    | some packet =>
        have hscanned := queue.scanned_releaseOldest hpacket
        rw [houtcome] at hscanned
        exact hscanned.ring_of_released

end Release

end TransmitQueue.Queue
