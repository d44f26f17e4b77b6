import TransmitQueue.Proofs.Queue.Move

/-!
# The calls of a step

Which of the calls of a step hand a packet to the device, ask about one, or ask the
adapter for a mapping. An attempt at admission hands over its packet at most once and
asks the device nothing; a look at a packet in flight hands over none.
-/

namespace TransmitQueue

section Calls

variable {P : Type}

/-- The packets handed to the device, each with its list, in order. -/
def programs (calls : List (Event P)) : List (P × SgList) :=
  calls.filterMap fun
    | .program packet list => some (packet, list)
    | _ => none

/-- The device's answers about packets, in order. -/
def statuses (calls : List (Event P)) : List (P × DeviceStatus) :=
  calls.filterMap fun
    | .status packet answer => some (packet, answer)
    | _ => none

/-- The adapter's answers to mapping calls, in order. -/
def mapAnswers (calls : List (Event P)) : List (P × Except DmaError Unit) :=
  calls.filterMap fun
    | .map _ packet _ _ answer _ _ => some (packet, answer)
    | _ => none

variable (first second : List (Event P))

@[simp] theorem programs_append : programs (first ++ second) = programs first ++ programs second :=
  List.filterMap_append

@[simp] theorem statuses_append : statuses (first ++ second) = statuses first ++ statuses second :=
  List.filterMap_append

@[simp] theorem mapAnswers_append :
    mapAnswers (first ++ second) = mapAnswers first ++ mapAnswers second :=
  List.filterMap_append

theorem mem_programs {calls : List (Event P)} {packet : P} {list : SgList} :
    (packet, list) ∈ programs calls ↔ .program packet list ∈ calls := by
  unfold programs
  rw [List.mem_filterMap]
  constructor
  · rintro ⟨event, hevent, heq⟩
    cases event with
    | program =>
        cases heq
        exact hevent
    | _ => cases heq
  · intro hevent
    exact ⟨_, hevent, rfl⟩

theorem mem_statuses {calls : List (Event P)} {packet : P} {answer : DeviceStatus} :
    (packet, answer) ∈ statuses calls ↔ .status packet answer ∈ calls := by
  unfold statuses
  rw [List.mem_filterMap]
  constructor
  · rintro ⟨event, hevent, heq⟩
    cases event with
    | status =>
        cases heq
        exact hevent
    | _ => cases heq
  · intro hevent
    exact ⟨_, hevent, rfl⟩

end Calls

namespace Queue

variable {P H D : Type} [Packet P] [Device P H] {queue next : Queue P H D} {packet : P}

/-- Asking the device's policy is neither handing over a packet nor asking about one. -/
theorem calls_consult (queue : Queue P H D) (packet : P) :
    programs (queue.consult packet).events = [] ∧ statuses (queue.consult packet).events = [] ∧
      mapAnswers (queue.consult packet).events = [] := by
  unfold consult decideBounce
  split <;> exact ⟨rfl, rfl, rfl⟩

variable [Adapter D]

omit [Device P H] in
theorem calls_mapping (queue : Queue P H D) (packet : P) :
    programs (queue.mapping packet).events = [] ∧ statuses (queue.mapping packet).events = [] := by
  unfold mapping
  cases hmapper : queue.mapper with
  | direct scratch => exact ⟨rfl, rfl⟩
  | delegated contexts =>
      cases hblock : contexts.block? queue.admitPosition with
      | none =>
          simp only [Mapper.map, hblock]
          exact ⟨rfl, rfl⟩
      | some context =>
          rw [Mapper.map_delegated _ _ _ _ hblock]
          exact ⟨rfl, rfl⟩

/-- An attempt asks the device nothing about packets, and hands over its packet only
where it ends so. -/
theorem Attempted.calls {admission : Admission} {calls : List (Event P)}
    (hattempted : Attempted queue packet admission calls next) :
    statuses calls = [] ∧ (admission ≠ .programmed → programs calls = []) ∧
      (admission = .programmed → ∃ list, programs calls = [(packet, list)]) := by
  obtain ⟨hnone, hsilent, _⟩ := queue.calls_consult packet
  obtain ⟨hunsent, hquiet⟩ := queue.calls_mapping packet
  cases hattempted with
  | skip => exact ⟨rfl, fun _ => rfl, nofun⟩
  | refuse | bounceStall | bounceFail =>
      simp only [statuses_append, programs_append, hnone, hsilent]
      exact ⟨rfl, fun _ => rfl, nofun⟩
  | mapStall | mapFail =>
      simp only [statuses_append, programs_append, hnone, hsilent, hunsent, hquiet]
      exact ⟨rfl, fun _ => rfl, nofun⟩
  | bounce list =>
      simp only [statuses_append, programs_append, hnone, hsilent]
      exact ⟨rfl, fun hother => absurd rfl hother, fun _ => ⟨list, rfl⟩⟩
  | map list =>
      simp only [statuses_append, programs_append, hnone, hsilent, hunsent, hquiet]
      exact ⟨rfl, fun hother => absurd rfl hother, fun _ => ⟨list, rfl⟩⟩

omit [Packet P] [Device P H] in
/-- Returning a mapping is neither handing over a packet nor asking about one. -/
theorem Returned.calls {position : Nat} {calls : List (Event P)}
    (hreturned : Returned queue position calls next) :
    programs calls = [] ∧ statuses calls = [] := by
  rw [hreturned.calls_eq]
  rcases queue.returnCalls_or (P := P) position with hnone | ⟨_, _, hcall⟩
  · rw [hnone]
    exact ⟨rfl, rfl⟩
  · rw [hcall]
    exact ⟨rfl, rfl⟩

omit [Packet P] in
/-- A look hands over no packet. -/
theorem Scanned.programs_eq_nil {outcome : Option Completion} {calls : List (Event P)}
    (hscanned : Scanned queue packet outcome calls next) : programs calls = [] := by
  cases hscanned with
  | pending => rfl
  | released completion calls returns settled returned hsettled hreturned =>
      rw [programs_append, hreturned.calls.1, List.append_nil]
      cases hsettled <;> rfl

omit [Packet P] in
/-- A look that leaves its packet in flight asked the device, which was busy. -/
theorem Scanned.of_none {calls : List (Event P)}
    (hscanned : Scanned queue packet none calls next) :
    statuses calls = [(packet, .pending)] ∧
      ∀ completion, (queue.ring.slot queue.ring.released).state ≠ .completed completion := by
  cases hscanned with
  | pending device hstate => exact ⟨rfl, hstate⟩

omit [Packet P] in
/-- A look that releases its packet takes the outcome as it is known, or asks the device
once. -/
theorem Scanned.of_some {completion : Completion} {calls : List (Event P)}
    (hscanned : Scanned queue packet (some completion) calls next) :
    (queue.ring.slot queue.ring.released).state = .completed completion ∧ statuses calls = [] ∨
      (∀ known, (queue.ring.slot queue.ring.released).state ≠ .completed known) ∧
        (statuses calls = [(packet, .success)] ∧ completion = .success ∨
          statuses calls = [(packet, .error)] ∧ completion = .failed .hardware) := by
  cases hscanned with
  | released _ calls returns settled returned hsettled hreturned =>
      rw [statuses_append, hreturned.calls.2, List.append_nil]
      cases hsettled with
      | known _ hstate => exact Or.inl ⟨hstate, rfl⟩
      | success device hstate => exact Or.inr ⟨hstate, Or.inl ⟨rfl, rfl⟩⟩
      | error device hstate => exact Or.inr ⟨hstate, Or.inr ⟨rfl, rfl⟩⟩

/-- Only an attempt at admission hands a packet to the device. -/
theorem Moved.admit_of_program {move : Move P H D} {list : SgList}
    (hmoved : Moved queue move next)
    (hprogram : .program packet list ∈ (queue.move move).events) :
    move = .attempt ∧ queue.ring.admitted < queue.ring.posted ∧
      (queue.ring.slot queue.ring.admitted).packet = some packet ∧
      Attempted queue packet .programmed (queue.move move).events next := by
  have hcalls := mem_programs.mpr hprogram
  cases hmoved with
  | admitted found admission calls _ hready hpacket hanswered hattempted =>
      have hevents : (queue.move .attempt).events = calls :=
        queue.events_move_attempt.trans (congrArg Traced.events hanswered)
      rw [hevents] at hcalls ⊢
      obtain ⟨_, hnone, hsome⟩ := hattempted.calls
      by_cases hadmission : admission = .programmed
      · obtain ⟨sent, hsent⟩ := hsome hadmission
        rw [hsent, List.mem_singleton] at hcalls
        cases hcalls
        subst hadmission
        exact ⟨rfl, hready, hpacket, hattempted⟩
      · rw [hnone hadmission] at hcalls
        cases hcalls
  | scanned found outcome calls _ hready hpacket hrelease hscanned =>
      have hevents : (queue.move .scan).events = calls :=
        queue.events_move_scan.trans (congrArg Traced.events hrelease)
      rw [hevents, hscanned.programs_eq_nil] at hcalls
      cases hcalls
  | posted | rejected | popped | nothingPopped =>
      simp only [move] at hcalls
      split at hcalls <;> cases hcalls
  | cancelled => cases hcalls
  | quiet move device adapter statistics hquiet =>
      cases move with
      | flush | pause | giveUp | resetStatistics | changeDevice | changeAdapter => cases hcalls
      | _ => cases hquiet

end Queue

end TransmitQueue
