import TransmitQueue.Proofs.Course

/-!
# Simulations

Two queues that are related, and stay related whatever move both of them make, go through the
phases of an advance side by side: they answer alike, and the calls in view are the same. What
is particular to a relation is only what its moves keep.
-/

namespace TransmitQueue

variable {P H D : Type}

/-- Two computations with related values that make the same calls, as far as these are in
view. -/
structure Traced.Similar {α β : Type} (inView : Event P → Bool) (Related : α → β → Prop)
    (left : Traced P α) (right : Traced P β) : Prop where
  related : Related left.value right.value
  inView_eq : right.events.filter inView = left.events.filter inView

namespace Traced.Similar

variable {α β γ δ : Type} {inView : Event P → Bool} {Related : α → β → Prop}
  {Last : γ → δ → Prop}

theorem pure {left : α} {right : β} (hrelated : Related left right) :
    Similar inView Related (Pure.pure left : Traced P α) (Pure.pure right) := ⟨hrelated, rfl⟩

theorem bind {left : Traced P α} {right : Traced P β} {next : α → Traced P γ}
    {other : β → Traced P δ} (hfirst : Similar inView Related left right)
    (hnext : Related left.value right.value →
      Similar inView Last (next left.value) (other right.value)) :
    Similar inView Last (left >>= next) (right >>= other) := by
  have hlast := hnext hfirst.related
  refine ⟨hlast.related, ?_⟩
  rw [Traced.events_bind, Traced.events_bind, List.filter_append, List.filter_append,
    hfirst.inView_eq, hlast.inView_eq]

theorem record (event : Event P) : Similar inView (fun _ _ => True) (Traced.record event)
    (Traced.record event) := ⟨trivial, rfl⟩

theorem imp {Weaker : α → β → Prop} {left : Traced P α} {right : Traced P β}
    (hsimilar : Similar inView Related left right)
    (hweaker : Related left.value right.value → Weaker left.value right.value) :
    Similar inView Weaker left right := ⟨hweaker hsimilar.related, hsimilar.inView_eq⟩

/-- With every call in view, the calls are the same. -/
theorem events_eq {left : Traced P α} {right : Traced P β}
    (hsimilar : Similar (fun _ => true) Related left right) : right.events = left.events := by
  have hall : ∀ events : List (Event P), events.filter (fun _ => true) = events :=
    fun events => List.filter_eq_self.mpr fun _ _ => rfl
  have hinView := hsimilar.inView_eq
  rwa [hall, hall] at hinView

end Traced.Similar

namespace Queue

/-- Two queues that gave the same answer and are still related. -/
structure Agreed {α : Type} (Related : Queue P H D → Queue P H D → Prop)
    (left right : α × Queue P H D) : Prop where
  answer_eq : right.1 = left.1
  related : Related left.2 right.2

/-- Two transmit phases that handed over as many packets, and left related queues. -/
structure SentAlike (Related : Queue P H D → Queue P H D → Prop)
    (left right : Transmission P H D) : Prop where
  programmed_eq : right.programmed = left.programmed
  stalled_eq : right.stalled = left.stalled
  related : Related left.queue right.queue

variable [Packet P] [Device P H] [Adapter D]

/-- A relation between queues that the moves of an advance keep. -/
structure Simulation (inView : Event P → Bool) (Related : Queue P H D → Queue P H D → Prop) :
    Prop where
  unposted_eq : ∀ {left right}, Related left right → right.unposted = left.unposted
  inFlight_eq : ∀ {left right}, Related left right → right.inFlight = left.inFlight
  outstanding_eq : ∀ {left right}, Related left right → right.outstanding = left.outstanding
  admitOldest : ∀ {left right}, Related left right → left.Ready .attempt →
    Traced.Similar inView (Agreed Related) left.admitOldest right.admitOldest
  flush : ∀ {left right}, Related left right →
    Traced.Similar inView Related left.flush right.flush
  releaseOldest : ∀ {left right}, Related left right → left.Ready .scan →
    Traced.Similar inView (Agreed Related) left.releaseOldest right.releaseOldest

namespace Simulation

variable {inView : Event P → Bool} {Related : Queue P H D → Queue P H D → Prop}
  {left right : Queue P H D} (hsimulation : Simulation inView Related)
include hsimulation

theorem transmit (hrelated : Related left right) (count : Nat) (hcount : count ≤ left.unposted) :
    Traced.Similar inView (SentAlike Related) (Queue.transmit count left)
      (Queue.transmit count right) := by
  induction count generalizing left right with
  | zero => exact .pure ⟨rfl, rfl, hrelated⟩
  | succ count ih =>
      have hready : left.Ready .attempt := left.ready_attempt_iff.mpr (Nat.zero_lt_of_lt hcount)
      have hless := left.unposted_admitOldest hready
      rw [transmit_succ, transmit_succ]
      refine (hsimulation.admitOldest hrelated hready).bind fun hagreed => ?_
      generalize left.admitOldest.value = first at hagreed hless ⊢
      generalize right.admitOldest.value = second at hagreed ⊢
      obtain ⟨admission, next⟩ := first
      obtain ⟨answer, other⟩ := second
      obtain ⟨hanswer, hnext⟩ := hagreed
      obtain rfl : answer = admission := hanswer
      cases answer with
      | stalled => exact .pure ⟨rfl, rfl, hnext⟩
      | failed failure =>
          have hfewer : next.unposted + 1 = left.unposted :=
            hless.resolve_left Admission.noConfusion
          exact ih hnext (show count ≤ next.unposted by omega)
      | programmed =>
          have hfewer : next.unposted + 1 = left.unposted :=
            hless.resolve_left Admission.noConfusion
          refine (ih hnext (show count ≤ next.unposted by omega)).bind fun hsent => ?_
          exact .pure { hsent with programmed_eq := congrArg (· + 1) hsent.programmed_eq }

theorem complete (hrelated : Related left right) (count : Nat) (hcount : count ≤ left.inFlight) :
    Traced.Similar inView (Agreed Related) (Queue.complete count left)
      (Queue.complete count right) := by
  induction count generalizing left right with
  | zero => exact .pure ⟨rfl, hrelated⟩
  | succ count ih =>
      have hready : left.Ready .scan := left.ready_scan_iff.mpr (Nat.zero_lt_of_lt hcount)
      have hless := left.inFlight_releaseOldest hready
      rw [complete_succ, complete_succ]
      refine (hsimulation.releaseOldest hrelated hready).bind fun hagreed => ?_
      generalize left.releaseOldest.value = first at hagreed hless ⊢
      generalize right.releaseOldest.value = second at hagreed ⊢
      obtain ⟨outcome, next⟩ := first
      obtain ⟨answer, other⟩ := second
      obtain ⟨hanswer, hnext⟩ := hagreed
      obtain rfl : answer = outcome := hanswer
      cases answer with
      | none => exact .pure ⟨rfl, hnext⟩
      | some completion =>
          have hfewer : next.inFlight + 1 = left.inFlight :=
            hless.resolve_left (Option.some_ne_none _)
          refine (ih hnext (show count ≤ next.inFlight by omega)).bind fun hlast => ?_
          exact .pure ⟨congrArg (· + 1) hlast.answer_eq, hlast.related⟩

theorem advance (hrelated : Related left right) :
    Traced.Similar inView (Agreed Related) left.advance right.advance := by
  unfold Queue.advance
  rw [hsimulation.unposted_eq hrelated]
  refine (hsimulation.transmit hrelated left.unposted (Nat.le_refl _)).bind fun hsent => ?_
  generalize (Queue.transmit left.unposted left).value = first at hsent ⊢
  generalize (Queue.transmit left.unposted right).value = second at hsent ⊢
  have hrest : ∀ {queue other : Queue P H D}, Related queue other →
      Traced.Similar inView (Agreed Related)
        (do
          let result ← Queue.complete queue.inFlight queue
          pure ((⟨first.programmed, result.1, first.stalled⟩ : AdvanceSummary), result.2))
        (do
          let result ← Queue.complete other.inFlight other
          pure ((⟨first.programmed, result.1, first.stalled⟩ : AdvanceSummary), result.2)) := by
    intro queue other hnext
    rw [hsimulation.inFlight_eq hnext]
    refine (hsimulation.complete hnext queue.inFlight (Nat.le_refl _)).bind fun hlast => ?_
    exact .pure ⟨by rw [hlast.answer_eq], hlast.related⟩
  rw [hsent.programmed_eq, hsent.stalled_eq]
  dsimp only
  split
  next => exact (Traced.Similar.pure hsent.related).bind hrest
  next => exact (hsimulation.flush hsent.related).bind hrest

theorem drainWithin (hrelated : Related left right) (pause budget : Nat) :
    Traced.Similar inView (Agreed Related) (Queue.drainWithin pause budget left)
      (Queue.drainWithin pause budget right) := by
  induction budget using Nat.strongRecOn generalizing left right with
  | ind budget ih =>
      rw [Queue.drainWithin, Queue.drainWithin]
      refine (hsimulation.advance hrelated).bind fun hagreed => ?_
      generalize left.advance.value = first at hagreed ⊢
      generalize right.advance.value = second at hagreed ⊢
      obtain ⟨summary, next⟩ := first
      obtain ⟨answer, other⟩ := second
      obtain ⟨hanswer, hnext⟩ := hagreed
      have hleft : other.outstanding = next.outstanding := hsimulation.outstanding_eq hnext
      have hidle : other.isIdle = next.isIdle := congrArg (· == 0) hleft
      dsimp only
      rw [hidle]
      split
      next => exact .pure ⟨rfl, hnext⟩
      next =>
        split
        next =>
          rw [hleft]
          exact (Traced.Similar.record _).bind fun _ => .pure ⟨rfl, hnext⟩
        next hbudget =>
          exact (Traced.Similar.record _).bind fun _ =>
            ih (budget - (pause + 1)) (by omega) hnext

theorem performAdvance (hrelated : Related left right) :
    Traced.Similar inView (Agreed Related) (left.perform .advance) (right.perform .advance) :=
  (hsimulation.advance hrelated).bind fun hagreed =>
    .pure ⟨congrArg Answer.advanced hagreed.answer_eq, hagreed.related⟩

theorem performDrain (hrelated : Related left right) (interval timeout : Nat) :
    Traced.Similar inView (Agreed Related) (left.perform (.drain interval timeout))
      (right.perform (.drain interval timeout)) :=
  (hsimulation.drainWithin hrelated _ timeout).bind fun hagreed =>
    .pure ⟨congrArg Answer.drained hagreed.answer_eq, hagreed.related⟩

end Simulation

/-- Operations that keep two queues related and answered alike do so one after another. -/
theorem similar_run {inView : Event P → Bool} {Related : Queue P H D → Queue P H D → Prop}
    (Allowed : Operation P H D × Answer P → Prop)
    (hperform : ∀ {left right operation}, Related left right →
      Allowed (operation, (left.perform operation).value.1) →
      Traced.Similar inView (Agreed Related) (left.perform operation) (right.perform operation))
    {left right : Queue P H D} (hrelated : Related left right)
    (operations : List (Operation P H D))
    (hallowed : ∀ entry ∈ left.transcript operations, Allowed entry) :
    Traced.Similar inView (Agreed Related) (left.run operations) (right.run operations) := by
  induction operations generalizing left right with
  | nil => exact .pure ⟨rfl, hrelated⟩
  | cons operation rest ih =>
      rw [transcript_cons] at hallowed
      have hfirst := hperform hrelated (hallowed _ List.mem_cons_self)
      refine hfirst.bind fun hagreed => ?_
      have hlater := ih hagreed.related fun entry hentry =>
        hallowed entry (List.mem_cons_of_mem _ hentry)
      exact hlater.bind fun hlast =>
        .pure ⟨by rw [hlast.answer_eq, hagreed.answer_eq], hlast.related⟩

end Queue

end TransmitQueue
