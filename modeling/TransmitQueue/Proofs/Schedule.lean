import Mathlib.Algebra.GroupWithZero.Nat
import TransmitQueue.Proofs.Run

/-!
# The schedule of a drain

A drain is plain advances with equal pauses between them. It stops at the first advance that
leaves nothing outstanding, and at the latest when its pauses have used up the time. How many
pauses that allows is exact, although the microseconds waited are counted in 32 bits: the count
stays at its largest value once it is there, and no time that a caller can name lies beyond.
-/

namespace TransmitQueue

section Pauses

variable {P : Type}

/-- The pauses that were made, in microseconds, oldest first. -/
def pauses (calls : List (Event P)) : List Nat :=
  calls.filterMap fun
    | .wait microseconds => some microseconds
    | _ => none

@[simp] theorem pauses_append (first second : List (Event P)) :
    pauses (first ++ second) = pauses first ++ pauses second :=
  List.filterMap_append

theorem waited_eq_sum_pauses {α : Type} (computation : Traced P α) :
    computation.waited = (pauses computation.events).sum := by
  unfold Traced.waited pauses
  induction computation.events with
  | nil => rfl
  | cons event rest ih =>
      cases event with
      | wait microseconds => exact congrArg (microseconds + ·) ih
      | _ => exact (Nat.zero_add _).trans ih

end Pauses

namespace Queue

variable {P H D : Type} [Packet P] [Device P H] [Adapter D]

section Unpaused

omit [Packet P] [Adapter D] in
theorem pauses_decideBounce (device : H) (packet : P) (decision : BounceDecision) :
    pauses (decideBounce device packet decision).events = [] := by
  unfold decideBounce
  split <;> rfl

omit [Device P H] in
theorem pauses_map (mapper : Mapper) (slot : Nat) (packet : P) (list : SgList) (adapter : D) :
    pauses (mapper.map slot packet list adapter).events = [] := by
  unfold Mapper.map
  split
  next => rfl
  next => split <;> rfl

omit [Adapter D] in
theorem pauses_admitBounced (queue : Queue P H D) (position : Nat) (packet : P) :
    pauses (queue.admitBounced position packet).events = [] := by
  unfold admitBounced
  rcases queue.pool.bounce packet with ⟨_ | _, pool⟩
  · dsimp only
    split <;> rfl
  · rfl

theorem pauses_admitInPlace (queue : Queue P H D) (position : Nat) (packet : P) :
    pauses (queue.admitInPlace position packet).events = [] := by
  unfold admitInPlace
  rw [Traced.events_bind, pauses_append, pauses_map, List.nil_append]
  dsimp only
  split
  next => rfl
  next => split <;> rfl

theorem pauses_admitPacket (queue : Queue P H D) (position : Nat) (packet : P) :
    pauses (queue.admitPacket position packet).events = [] := by
  unfold admitPacket
  rw [Traced.events_bind, pauses_append, pauses_decideBounce, List.nil_append]
  dsimp only
  split
  next => rfl
  next => exact pauses_admitBounced _ _ _
  next => exact pauses_admitInPlace _ _ _

theorem pauses_attempt (queue : Queue P H D) : pauses queue.attempt.events = [] := by
  unfold attempt
  dsimp only
  split
  next => rfl
  next =>
    split
    next => rfl
    next =>
      split
      next => rfl
      next => exact pauses_admitPacket _ _ _

theorem pauses_transmit (count : Nat) (queue : Queue P H D) :
    pauses (transmit count queue).events = [] := by
  induction count generalizing queue with
  | zero => rfl
  | succ count ih =>
      unfold transmit
      rw [Traced.events_bind, pauses_append, pauses_attempt, List.nil_append]
      rcases queue.attempt.value with ⟨admission, next⟩
      cases admission with
      | stalled => rfl
      | failed failure => exact ih _
      | programmed =>
          dsimp only
          rw [Traced.events_bind, pauses_append, ih]
          rfl

omit [Packet P] [Device P H] in
theorem pauses_returnResources (queue : Queue P H D) (position : Nat) :
    pauses (queue.returnResources position).events = [] := by
  unfold returnResources returnMapping Mapper.unmap
  dsimp only
  split
  next =>
    split
    next => rfl
    next => split <;> rfl
  next => rfl

omit [Packet P] [Adapter D] in
theorem pauses_settle (queue : Queue P H D) : pauses queue.settle.events = [] := by
  unfold settle
  dsimp only
  split
  next => rfl
  next =>
    split
    next => rfl
    next =>
      rw [Traced.events_bind]
      split <;> rfl

omit [Packet P] in
theorem pauses_complete (count : Nat) (queue : Queue P H D) :
    pauses (complete count queue).events = [] := by
  induction count generalizing queue with
  | zero => rfl
  | succ count ih =>
      unfold complete
      rw [Traced.events_bind, pauses_append, pauses_settle, List.nil_append]
      rcases queue.settle.value with ⟨outcome, next⟩
      cases outcome with
      | none => rfl
      | some completion =>
          dsimp only
          rw [Traced.events_bind, pauses_append, pauses_returnResources, List.nil_append,
            Traced.events_bind, pauses_append, ih]
          rfl

/-- An advance never pauses. -/
theorem pauses_advance (queue : Queue P H D) : pauses queue.advance.events = [] := by
  unfold advance
  rw [Traced.events_bind, pauses_append, pauses_transmit, List.nil_append]
  dsimp only
  split <;>
    rw [Traced.events_bind, pauses_append, Traced.events_bind, pauses_append, pauses_complete] <;>
    rfl

end Unpaused

/-- The queue after a number of advances. -/
def advanced (queue : Queue P H D) (count : Nat) : Queue P H D :=
  queue.after (List.replicate count .advance)

theorem advanced_succ (queue : Queue P H D) (count : Nat) :
    queue.advanced (count + 1) = queue.advance.value.2.advanced count := rfl

/-- The calls of a number of advances with a pause after each. -/
def rounds (queue : Queue P H D) (step count : Nat) : List (Event P) :=
  (List.range count).flatMap fun done => (queue.advanced done).advance.events ++ [.wait step]

theorem rounds_succ (queue : Queue P H D) (step count : Nat) :
    queue.rounds step (count + 1) =
      queue.advance.events ++ .wait step :: queue.advance.value.2.rounds step count := by
  rw [rounds, List.range_succ_eq_map, List.flatMap_cons, List.flatMap_map, List.append_assoc]
  rfl

/-- The pauses that a timeout leaves time for: as many steps as it takes to use it up. -/
def pauseLimit (step timeout : Nat) : Nat := (timeout + (step - 1)) / step

section PauseLimit

variable {step timeout : Nat} (hstep : 0 < step)
include hstep

theorem pauseLimit_eq_zero_iff : pauseLimit step timeout = 0 ↔ timeout = 0 := by
  unfold pauseLimit
  rw [Nat.div_eq_zero_iff]
  omega

/-- Where time is left there is time for a pause, and then for those that the rest allows. -/
theorem pauseLimit_of_pos (htimeout : timeout ≠ 0) :
    pauseLimit step timeout = pauseLimit step (timeout - step) + 1 := by
  unfold pauseLimit
  have hsplit : timeout + (step - 1) = timeout - 1 + step := by omega
  rw [hsplit, Nat.add_div_right _ hstep]
  rcases Nat.le_total step timeout with hlong | hshort
  · congr 2
    omega
  · rw [Nat.sub_eq_zero_of_le hshort, Nat.div_eq_of_lt (by omega), Nat.div_eq_of_lt (by omega)]

/-- The last pause begins before the time is up. -/
theorem mul_lt_of_le_pauseLimit {count : Nat} (hcount : count ≤ pauseLimit step timeout) :
    count * step < timeout + step := by
  have hspan := Nat.le_trans (Nat.mul_le_mul_right step hcount) (Nat.div_mul_le_self _ step)
  omega

end PauseLimit

/-- How many pauses a drain makes that has time for `limit` of them: the least number after which
an advance leaves nothing outstanding, or all of them if there is none. -/
structure StopsAfter (queue : Queue P H D) (limit count : Nat) : Prop where
  le_limit : count ≤ limit
  busy : ∀ earlier < count, (queue.advanced (earlier + 1)).outstanding ≠ 0
  idle_or_limit : (queue.advanced (count + 1)).outstanding = 0 ∨ count = limit

theorem exists_stopsAfter (queue : Queue P H D) (limit : Nat) :
    ∃ count, queue.StopsAfter limit count := by
  induction limit generalizing queue with
  | zero => exact ⟨0, Nat.le_refl 0, nofun, Or.inr rfl⟩
  | succ limit ih =>
      by_cases hidle : (queue.advanced 1).outstanding = 0
      · exact ⟨0, Nat.zero_le _, nofun, Or.inl hidle⟩
      · obtain ⟨count, hle, hbusy, hlast⟩ := ih queue.advance.value.2
        refine ⟨count + 1, Nat.succ_le_succ hle, fun earlier hearlier => ?_, ?_⟩
        · cases earlier with
          | zero => exact hidle
          | succ earlier =>
              rw [advanced_succ]
              exact hbusy earlier (Nat.lt_of_succ_lt_succ hearlier)
        · rw [advanced_succ]
          exact hlast.imp_right (congrArg (· + 1))

/-- After its first pause a drain goes on as one with time for a pause less. -/
theorem StopsAfter.tail {queue : Queue P H D} {limit count : Nat}
    (hstops : queue.StopsAfter (limit + 1) (count + 1)) :
    queue.advance.value.2.StopsAfter limit count where
  le_limit := Nat.le_of_succ_le_succ hstops.le_limit
  busy earlier hearlier := by
    have hbusy := hstops.busy (earlier + 1) (Nat.succ_lt_succ hearlier)
    rwa [advanced_succ] at hbusy
  idle_or_limit := by
    have hlast := hstops.idle_or_limit
    rw [advanced_succ] at hlast
    exact hlast.imp_right Nat.succ.inj

section Rounds

variable {queue : Queue P H D} {pause budget : Nat}

theorem drainWithin_of_idle (hidle : (queue.advanced 1).outstanding = 0) :
    queue.drainWithin pause budget = ⟨(.ok (), queue.advanced 1), queue.advance.events⟩ := by
  have hidle : queue.advance.value.2.isIdle = true := beq_iff_eq.mpr hidle
  rw [drainWithin]
  apply Traced.ext
  · simp only [Traced.value_bind, hidle, if_true]
    rfl
  · simp only [Traced.events_bind, hidle, if_true]
    exact List.append_nil _

theorem drainWithin_of_late (hbusy : (queue.advanced 1).outstanding ≠ 0) :
    queue.drainWithin pause 0 = ⟨(.error .timeout, queue.advanced 1),
      queue.advance.events ++ [.notice (.drainTimedOut (queue.advanced 1).outstanding)]⟩ := by
  have hbusy : queue.advance.value.2.isIdle = false := beq_eq_false_iff_ne.mpr hbusy
  rw [drainWithin]
  apply Traced.ext
  · simp only [Traced.value_bind, hbusy]
    rfl
  · simp only [Traced.events_bind, hbusy]
    rfl

theorem drainWithin_of_early (hbusy : (queue.advanced 1).outstanding ≠ 0) (hbudget : budget ≠ 0) :
    queue.drainWithin pause budget =
      let rest := queue.advance.value.2.drainWithin pause (budget - (pause + 1))
      ⟨rest.value, queue.advance.events ++ .wait (pause + 1) :: rest.events⟩ := by
  have hbusy : queue.advance.value.2.isIdle = false := beq_eq_false_iff_ne.mpr hbusy
  rw [drainWithin]
  apply Traced.ext
  · simp only [Traced.value_bind, hbusy, hbudget]
    rfl
  · simp only [Traced.events_bind, hbusy, hbudget]
    rfl

end Rounds

/-- A drain that makes a number of pauses: one after each advance but the last, whose outcome is
that of the drain. -/
structure Scheduled (queue : Queue P H D) (step count : Nat)
    (drain : Traced P (Except IoError Unit × Queue P H D)) : Prop where
  queue_eq : drain.value.2 = queue.advanced (count + 1)
  outcome_eq : drain.value.1 =
    if (queue.advanced (count + 1)).outstanding = 0 then .ok () else .error .timeout
  events_eq : drain.events =
    queue.rounds step count ++ (queue.advanced count).advance.events ++
      if (queue.advanced (count + 1)).outstanding = 0 then []
      else [.notice (.drainTimedOut (queue.advanced (count + 1)).outstanding)]
  pauses_eq : pauses drain.events = List.replicate count step

theorem StopsAfter.scheduled {queue : Queue P H D} {pause budget count : Nat}
    (hstops : queue.StopsAfter (pauseLimit (pause + 1) budget) count) :
    queue.Scheduled (pause + 1) count (queue.drainWithin pause budget) := by
  induction count generalizing queue budget with
  | zero =>
      by_cases hidle : (queue.advanced 1).outstanding = 0
      · rw [drainWithin_of_idle hidle]
        exact ⟨rfl, (if_pos hidle).symm, by rw [if_pos hidle]; exact (List.append_nil _).symm,
          queue.pauses_advance⟩
      · have hlimit : 0 = pauseLimit (pause + 1) budget :=
          hstops.idle_or_limit.resolve_left hidle
        obtain rfl := (pauseLimit_eq_zero_iff (Nat.succ_pos pause)).mp hlimit.symm
        rw [drainWithin_of_late hidle]
        refine ⟨rfl, (if_neg hidle).symm, by rw [if_neg hidle]; rfl, ?_⟩
        rw [pauses_append, pauses_advance]
        rfl
  | succ count ih =>
      have hbusy : (queue.advanced 1).outstanding ≠ 0 := hstops.busy 0 (Nat.succ_pos count)
      have hbudget : budget ≠ 0 := fun hzero => by
        have hle := hstops.le_limit
        rw [(pauseLimit_eq_zero_iff (Nat.succ_pos pause)).mpr hzero] at hle
        exact Nat.not_succ_le_zero _ hle
      rw [pauseLimit_of_pos (Nat.succ_pos pause) hbudget] at hstops
      obtain ⟨hqueue, houtcome, hevents, hpauses⟩ := ih hstops.tail
      rw [drainWithin_of_early hbusy hbudget]
      rw [← advanced_succ] at hqueue houtcome
      refine ⟨hqueue, houtcome, ?_, ?_⟩
      · rw [rounds_succ, advanced_succ, advanced_succ, List.append_assoc, List.append_assoc,
          List.cons_append, ← List.append_assoc]
        exact congrArg (fun later => queue.advance.events ++ .wait (pause + 1) :: later) hevents
      · rw [pauses_append, pauses_advance]
        exact congrArg (List.cons (pause + 1)) hpauses

section Clock

/-- The sum of two 32-bit counts, or the largest count where the sum is larger. -/
def saturatingAdd (first second : UInt32) : UInt32 :=
  if first.toNat + second.toNat < UInt32.size then first + second else 0xFFFFFFFF

theorem toNat_saturatingAdd (first second : UInt32) :
    (saturatingAdd first second).toNat = min (first.toNat + second.toNat) (UInt32.size - 1) := by
  unfold saturatingAdd
  split
  next hfits =>
    rw [UInt32.toNat_add, Nat.mod_eq_of_lt hfits, Nat.min_eq_left (Nat.le_sub_one_of_lt hfits)]
  next hwide =>
    rw [Nat.min_eq_right (by unfold UInt32.size at *; omega)]
    rfl

theorem toNat_max_one (interval : UInt32) : (max interval 1).toNat = max interval.toNat 1 := by
  change (if interval ≤ 1 then 1 else interval).toNat = _
  split
  next hshort => exact (Nat.max_eq_right (UInt32.le_iff_toNat_le.mp hshort)).symm
  next hlong =>
    have hlt : (1 : UInt32).toNat < interval.toNat :=
      UInt32.lt_iff_toNat_lt.mp (UInt32.not_le.mp hlong)
    exact (Nat.max_eq_left (Nat.le_of_lt hlt)).symm

variable {interval timeout waited : UInt32}

/-- A pause brings the count closer to the timeout, also where the count is held. -/
theorem remaining_saturatingAdd_lt (interval : UInt32) (hearly : ¬ timeout ≤ waited) :
    timeout.toNat - (saturatingAdd waited (max interval 1)).toNat <
      timeout.toNat - waited.toNat := by
  have hlt : waited.toNat < timeout.toNat := UInt32.lt_iff_toNat_lt.mp (UInt32.not_le.mp hearly)
  have hrange := timeout.toNat_lt
  rw [toNat_saturatingAdd, toNat_max_one]
  unfold UInt32.size
  omega

/-- A drain that counts the microseconds it has waited in 32 bits, and gives up once the count
has come to the timeout. -/
def drainCounting (interval timeout waited : UInt32) (queue : Queue P H D) :
    Traced P (Except IoError Unit × Queue P H D) := do
  let (_, queue) ← queue.advance
  if queue.isIdle then pure (.ok (), queue)
  else if _ : timeout ≤ waited then
    Traced.record (.notice (.drainTimedOut queue.outstanding))
    pure (.error .timeout, queue)
  else
    Traced.record (.wait (max interval 1).toNat)
    drainCounting interval timeout (saturatingAdd waited (max interval 1)) queue
termination_by timeout.toNat - waited.toNat
decreasing_by exact remaining_saturatingAdd_lt _ ‹_›

/-- Holding the count is as good as counting on: it holds at or beyond every timeout. -/
theorem drainCounting_eq (queue : Queue P H D) (elapsed : Nat)
    (hwaited : waited.toNat = min elapsed (UInt32.size - 1)) :
    queue.drainCounting interval timeout waited =
      queue.drainWithin (max interval.toNat 1 - 1) (timeout.toNat - elapsed) := by
  induction hleft : timeout.toNat - waited.toNat using Nat.strongRecOn
    generalizing queue waited elapsed with
  | ind left ih =>
      have hrange := timeout.toNat_lt
      have hstep : max interval.toNat 1 - 1 + 1 = (max interval 1).toNat := by
        rw [toNat_max_one]
        omega
      rw [drainCounting, drainWithin]
      refine congrArg (queue.advance >>= ·) (funext fun ⟨summary, next⟩ => ?_)
      dsimp only
      split
      next => rfl
      next =>
        by_cases hlate : timeout ≤ waited
        · have hle := UInt32.le_iff_toNat_le.mp hlate
          rw [dif_pos hlate, dif_pos (by unfold UInt32.size at *; omega)]
        · have hlt := UInt32.lt_iff_toNat_lt.mp (UInt32.not_le.mp hlate)
          rw [dif_neg hlate, dif_neg (by unfold UInt32.size at *; omega), hstep]
          have hnext := ih _ (hleft ▸ remaining_saturatingAdd_lt interval hlate)
            next (elapsed + (max interval 1).toNat)
            (by rw [toNat_saturatingAdd]; unfold UInt32.size at *; omega) rfl
          rw [hnext, Nat.sub_sub]

end Clock

/-- In whatever state a queue is and whatever its collaborators do, a drain ends, and its
schedule is exact. It makes one pause after each advance but the last: the least number of pauses
that is followed by an advance that leaves nothing outstanding, or as many as there is time for.
It succeeds exactly if nothing is outstanding in the end. It waits for less than the timeout and
one step more, and leaves the queue that plain advances leave, as many as it made. Counting the
time in 32 bits, held at the largest value, makes no difference. -/
theorem drain_schedule (queue : Queue P H D) (interval timeout : UInt32) :
    let step := max interval.toNat 1
    let limit := (timeout.toNat + (step - 1)) / step
    let drain := queue.drain interval.toNat timeout.toNat
    queue.drainCounting interval timeout 0 = drain ∧
      ∃ count, queue.StopsAfter limit count ∧ queue.Scheduled step count drain ∧
        drain.waited = count * step ∧ count * step < timeout.toNat + step := by
  have hpos : 0 < max interval.toNat 1 := Nat.lt_of_lt_of_le Nat.one_pos (Nat.le_max_right _ _)
  have hstep : max interval.toNat 1 - 1 + 1 = max interval.toNat 1 := Nat.sub_add_cancel hpos
  refine ⟨queue.drainCounting_eq 0 rfl, ?_⟩
  obtain ⟨count, hstops⟩ :=
    queue.exists_stopsAfter (pauseLimit (max interval.toNat 1) timeout.toNat)
  have hscheduled : queue.Scheduled (max interval.toNat 1 - 1 + 1) count _ :=
    StopsAfter.scheduled (hstep.symm ▸ hstops)
  rw [hstep] at hscheduled
  refine ⟨count, hstops, hscheduled, ?_, mul_lt_of_le_pauseLimit hpos hstops.le_limit⟩
  rw [waited_eq_sum_pauses, drain, hscheduled.pauses_eq, List.sum_replicate_nat]

end Queue

end TransmitQueue
