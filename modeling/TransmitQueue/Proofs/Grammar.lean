import TransmitQueue.Proofs.Grants

/-!
# Calls about one packet

Which calls a queue may make of its device and its adapter when it tries to admit a packet, and
when it releases one, and in which order. The calls depend on the packet, on what its slot says
of it, and on the answers; nothing else that happened before changes them.
-/

namespace TransmitQueue

variable {P : Type}

/-- Whether an event is a call of a collaborator. A record for the log is not. -/
def Event.isCall : Event P → Bool
  | .notice _ => false
  | .program .. | .status .. | .flush | .policy .. | .bypassCapable _ | .contextSize _
  | .allocate .. | .map .. | .unmap .. | .wait _ => true

/-- The calls of collaborators among events, in order. -/
def collaboratorCalls (events : List (Event P)) : List (Event P) := events.filter Event.isCall

@[simp] theorem collaboratorCalls_append (first second : List (Event P)) :
    collaboratorCalls (first ++ second) = collaboratorCalls first ++ collaboratorCalls second :=
  List.filter_append ..

@[simp] theorem collaboratorCalls_concat_notice (events : List (Event P)) (note : Notice) :
    collaboratorCalls (events ++ [.notice note]) = collaboratorCalls events := by
  rw [collaboratorCalls_append]
  exact List.append_nil _

theorem programs_collaboratorCalls (events : List (Event P)) :
    programs (collaboratorCalls events) = programs events := by
  induction events with
  | nil => rfl
  | cons event rest ih =>
      cases event with
      | program packet list => exact congrArg ((packet, list) :: ·) ih
      | _ => exact ih

namespace Queue

/-- How an attempt ends whose mapping the adapter turned down. -/
def Admission.ofError (error : DmaError) : Admission :=
  if error.isExhaustion then .stalled else .failed (.mapping error)

section Calls

variable [Packet P]

/-- The calls made to decide on a packet. The device's policy is asked once if the analysis
would send the packet in place, and not otherwise. -/
inductive PolicyCalls (limits : BounceLimits) (packet : P) :
    BounceDecision → List (Event P) → Prop where
  | settled {decision : BounceDecision}
      (hanalysis : (BounceAnalysis.ofPacket limits packet).decision = decision)
      (hdecision : decision ≠ .transmitInPlace) : PolicyCalls limits packet decision []
  | asked (answer : Option BounceDecision)
      (hanalysis : (BounceAnalysis.ofPacket limits packet).decision = .transmitInPlace) :
      PolicyCalls limits packet (BounceDecision.transmitInPlace.overriddenBy answer)
        [.policy packet answer]

omit [Packet P] in
/-- The calls made to map a packet that goes in place. Only the delegated backend makes one,
and it may be turned down. -/
inductive MapCalls (position : Nat) (packet : P) :
    Backend → Except DmaError Unit → List (Event P) → Prop where
  | direct : MapCalls position packet .direct (.ok ()) []
  | delegated (context : Bytes) (list : SgList) (answer : Except DmaError Unit)
      (contextLeft : Bytes) (listLeft : SgList) :
      MapCalls position packet .delegated answer
        [.map position packet context list answer contextLeft listLeft]

/-- The calls of one attempt to admit a packet, and how the attempt ends. A packet is handed
over at the end of the attempt that leaves it programmed, and in no other. -/
inductive AttemptCalls (limits : BounceLimits) (backend : Backend) (position : Nat)
    (withdrawn : Bool) (packet : P) : Admission → List (Event P) → Prop where
  | skipped (hwithdrawn : withdrawn = true) :
      AttemptCalls limits backend position withdrawn packet (.failed .skipped) []
  | refused {asking : List (Event P)} (hkept : withdrawn = false)
      (hpolicy : PolicyCalls limits packet .cannotTransmit asking) :
      AttemptCalls limits backend position withdrawn packet (.failed .cannotTransmit) asking
  | copied {asking : List (Event P)} (list : SgList) (hkept : withdrawn = false)
      (hpolicy : PolicyCalls limits packet .transmitAfterBouncing asking) :
      AttemptCalls limits backend position withdrawn packet .programmed
        (asking ++ [.program packet list])
  | uncopied {asking : List (Event P)} (hkept : withdrawn = false)
      (hpolicy : PolicyCalls limits packet .transmitAfterBouncing asking) :
      AttemptCalls limits backend position withdrawn packet .stalled asking
  | mapped {asking mapping : List (Event P)} (list : SgList) (hkept : withdrawn = false)
      (hpolicy : PolicyCalls limits packet .transmitInPlace asking)
      (hmapping : MapCalls position packet backend (.ok ()) mapping) :
      AttemptCalls limits backend position withdrawn packet .programmed
        (asking ++ mapping ++ [.program packet list])
  | unmapped {asking mapping : List (Event P)} (error : DmaError) (hkept : withdrawn = false)
      (hpolicy : PolicyCalls limits packet .transmitInPlace asking)
      (hmapping : MapCalls position packet backend (.error error) mapping) :
      AttemptCalls limits backend position withdrawn packet (.ofError error) (asking ++ mapping)

omit [Packet P] in
/-- The calls with which a packet in flight is released. The device is asked about a packet
that it was given, and the packet's mapping is returned as soon as the device is done. -/
inductive ReleaseCalls (state : PacketState) (holding : Holding) (position : Nat) (packet : P) :
    List (Event P) → Prop where
  | known {completion : Completion} (hstate : state = .completed completion)
      (hholding : holding = .nothing) : ReleaseCalls state holding position packet []
  | answered {answer : DeviceStatus} (hstate : state.isOnDevice = true)
      (hanswer : answer ≠ .pending) (hholding : holding.dmaMapped = false) :
      ReleaseCalls state holding position packet [.status packet answer]
  | unmapped {answer : DeviceStatus} (context : Bytes) (list : SgList)
      (hstate : state.isOnDevice = true) (hanswer : answer ≠ .pending)
      (hholding : holding = .mapping) :
      ReleaseCalls state holding position packet
        [.status packet answer, .unmap position context list]

end Calls

variable {H D : Type} [Packet P] [Device P H] {start queue next : Queue P H D}
  {config : Config} {packet : P} {calls : List (Event P)}

theorem policyCalls_consult (queue : Queue P H D) (packet : P) :
    PolicyCalls queue.limits packet (queue.consult packet).value.1
      (collaboratorCalls (queue.consult packet).events) := by
  unfold consult decideBounce
  cases hanalysis : (BounceAnalysis.ofPacket queue.limits packet).decision with
  | transmitInPlace => exact .asked _ hanalysis
  | transmitAfterBouncing | cannotTransmit => exact .settled hanalysis nofun

variable [Adapter D]

/-- A packet that goes in place is mapped by the backend that the queue was built with. -/
theorem mapCalls_mapping (packet : P) (hbuilt : Built config start) (hlaid : LaidOut start queue)
    (hdecision : queue.decision packet = .transmitInPlace) :
    MapCalls queue.admitPosition packet start.backend
      ((queue.mapping packet).value.answer.map fun _ => ())
      (collaboratorCalls (queue.mapping packet).events) := by
  cases hbackend : start.backend with
  | direct =>
      obtain ⟨list, hlist, _⟩ := mapping_of_direct hlaid hbackend hdecision
      have hsilent : (queue.mapping packet).events = [] := by
        have hsame := hlaid.backend_eq.trans hbackend
        unfold backend at hsame
        unfold mapping
        cases hmapper : queue.mapper with
        | direct scratch => rfl
        | delegated contexts =>
            rw [hmapper] at hsame
            cases hsame
      rw [hlist, hsilent]
      exact .direct
  | delegated =>
      obtain ⟨context, list, answer, contextLeft, hcall, hanswer⟩ :=
        exists_mapping_call packet hbuilt hlaid hbackend
      have hsame : ((queue.mapping packet).value.answer.map fun _ => ()) = answer := by
        rw [hanswer]
        cases answer <;> rfl
      rw [hsame, hcall]
      exact .delegated context list answer contextLeft _

/-- Every attempt makes the calls that its packet calls for. -/
theorem Attempted.attemptCalls {admission : Admission}
    (hattempted : Attempted queue packet admission calls next) (hbuilt : Built config start)
    (hlaid : LaidOut start queue) :
    AttemptCalls queue.limits start.backend queue.admitPosition (queue.withdrawn packet) packet
      admission (collaboratorCalls calls) := by
  have hpolicy := queue.policyCalls_consult packet
  have hmapping := mapCalls_mapping packet hbuilt hlaid
  rw [← consult_decision] at hmapping
  -- The adapter turns a mapping down for now or for good, and the calls are the same.
  have hunmapped : ∀ error, queue.withdrawn packet = false →
      (queue.consult packet).value.1 = .transmitInPlace →
      (queue.mapping packet).value.answer = .error error →
      AttemptCalls queue.limits start.backend queue.admitPosition (queue.withdrawn packet) packet
        (.ofError error) (collaboratorCalls (queue.consult packet).events ++
          collaboratorCalls (queue.mapping packet).events) := by
    intro error hkept hdecision hanswer
    have hmapping := hmapping hdecision
    rw [hanswer] at hmapping
    exact .unmapped error hkept (hdecision ▸ hpolicy) hmapping
  cases hattempted with
  | skip hwithdrawn => exact .skipped hwithdrawn
  | refuse hkept hdecision =>
      rw [collaboratorCalls_concat_notice]
      exact .refused hkept (hdecision ▸ hpolicy)
  | bounce list pool hkept hdecision =>
      rw [collaboratorCalls_append]
      exact .copied list hkept (hdecision ▸ hpolicy)
  | bounceStall error pool hkept hdecision =>
      rw [collaboratorCalls_concat_notice]
      exact .uncopied hkept (hdecision ▸ hpolicy)
  | bounceFail error pool hkept hdecision hbounce hfailed =>
      rw [consult_decision] at hdecision
      obtain ⟨rfl, _⟩ := bounce_eq_error hbuilt hlaid (by rw [hdecision]; nofun) hbounce
      cases hfailed
  | map list hkept hdecision hanswer =>
      have hmapping := hmapping hdecision
      rw [hanswer] at hmapping
      rw [collaboratorCalls_append, collaboratorCalls_append]
      exact .mapped list hkept (hdecision ▸ hpolicy) hmapping
  | mapStall error hkept hdecision hanswer hexhausted =>
      have hcalls := hunmapped error hkept hdecision hanswer
      rw [Admission.ofError, if_pos hexhausted] at hcalls
      rw [collaboratorCalls_concat_notice, collaboratorCalls_append]
      exact hcalls
  | mapFail error hkept hdecision hanswer hfailed =>
      have hcalls := hunmapped error hkept hdecision hanswer
      rw [Admission.ofError, hfailed, if_neg Bool.false_ne_true] at hcalls
      rw [collaboratorCalls_concat_notice, collaboratorCalls_append]
      exact hcalls

omit [Packet P] [Device P H] [Adapter D] in
/-- The delegated backend keeps a scratch for every slot. -/
theorem exists_scratch (hbuilt : Built config start) (hlaid : LaidOut start queue)
    (hdelegated : start.backend = .delegated) (cursor : Nat) :
    ∃ scratch, queue.scratch? cursor = some scratch ∧
      scratch.slot = queue.ring.position cursor := by
  obtain ⟨slots, stride, contexts, context, hmapper, hblock⟩ :=
    hlaid.exists_block hbuilt hdelegated cursor
  unfold scratch?
  rw [hmapper, Mapper.block?, hblock]
  exact ⟨_, rfl, rfl⟩

omit [Packet P] [Adapter D] in
/-- The outcome of a packet in flight is known beforehand, or the device tells it when asked. -/
theorem Settled.known_or_asked {completion : Completion}
    (hsettled : Settled queue packet completion calls next)
    (hflight : (queue.ring.slot queue.ring.released).state.isInFlight = true) :
    (queue.ring.slot queue.ring.released).state = .completed completion ∧
        collaboratorCalls calls = [] ∨
      (queue.ring.slot queue.ring.released).state.isOnDevice = true ∧
        ∃ answer, answer ≠ .pending ∧ collaboratorCalls calls = [.status packet answer] := by
  cases hsettled with
  | known _ hstate => exact Or.inl ⟨hstate, rfl⟩
  | success _ hstate =>
      exact Or.inr ⟨PacketState.isOnDevice_of_isInFlight hflight hstate, .success, nofun, rfl⟩
  | error _ hstate =>
      exact Or.inr ⟨PacketState.isOnDevice_of_isInFlight hflight hstate, .error, nofun, rfl⟩

section Release

variable {completion : Completion}
  (hscanned : Scanned queue packet (some completion) calls next) (hfurnished : queue.Furnished)
  (hstaged : queue.ring.Staged) (hbusy : queue.ring.released < queue.ring.admitted)
include hscanned hfurnished hstaged hbusy

omit [Packet P] in
/-- A release that has no mapping to return asks the device at most. -/
theorem Scanned.releaseCalls_of_unmapped
    (hholding : (queue.holdingAt queue.ring.released).dmaMapped = false) :
    ReleaseCalls (queue.ring.slot queue.ring.released).state
      (queue.holdingAt queue.ring.released) queue.releasePosition packet
      (collaboratorCalls calls) := by
  have hflight := hstaged.inFlight queue.ring.released (Nat.le_refl _) hbusy
  have hprovided := hfurnished queue.ring.released (Nat.le_refl _) hbusy
  cases hscanned with
  | released _ asked returns settled returned hsettled hreturned =>
      have hreturns : returns = [] := by
        obtain ⟨device, statistics, rfl⟩ := hsettled.exists_device
        exact hreturned.calls_eq.trans (if_neg (Bool.eq_false_iff.mp hholding))
      rw [hreturns, List.append_nil]
      rcases hsettled.known_or_asked hflight with ⟨hstate, hcalls⟩ | ⟨hdevice, _, hanswer, hcalls⟩
      · rw [hcalls]
        refine .known hstate (Decidable.of_not_not fun hheld => ?_)
        have hdevice := hprovided.of_held hheld
        rw [hstate] at hdevice
        cases hdevice
      · rw [hcalls]
        exact .answered hdevice hanswer hholding

omit [Packet P] in
/-- Every release makes the calls that its packet calls for. -/
theorem Scanned.releaseCalls (hbuilt : Built config start) (hlaid : LaidOut start queue) :
    ReleaseCalls (queue.ring.slot queue.ring.released).state
      (queue.holdingAt queue.ring.released) queue.releasePosition packet
      (collaboratorCalls calls) := by
  have hflight := hstaged.inFlight queue.ring.released (Nat.le_refl _) hbusy
  have hprovided := hfurnished queue.ring.released (Nat.le_refl _) hbusy
  cases hmapped : (queue.holdingAt queue.ring.released).dmaMapped with
  | false => exact hscanned.releaseCalls_of_unmapped hfurnished hstaged hbusy hmapped
  | true =>
      have hholding := hprovided.eq_mapping hmapped
      have hdevice := hprovided.onDevice_of_mapped hmapped
      have hdelegated : start.backend = .delegated := by
        cases hbackend : start.backend with
        | delegated => rfl
        | direct =>
            have hunmapped := hprovided.of_direct (hlaid.backend_eq.trans hbackend)
            exact absurd (hunmapped.symm.trans hmapped) Bool.false_ne_true
      obtain ⟨scratch, hscratch, hslot⟩ :=
        exists_scratch hbuilt hlaid hdelegated queue.ring.released
      obtain ⟨asked, settled, hsettled, rfl⟩ := hscanned.calls_of_mapping hmapped hscratch
      rcases hsettled.known_or_asked hflight with ⟨hstate, _⟩ | ⟨_, _, hanswer, hcalls⟩
      · rw [hstate] at hdevice
        cases hdevice
      · rw [collaboratorCalls_append, hcalls, hslot]
        exact .unmapped _ _ hdevice hanswer hholding

end Release

end Queue

end TransmitQueue
