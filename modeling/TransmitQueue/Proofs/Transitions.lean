import Mathlib.Logic.Relation
import TransmitQueue.Proofs.Isolation

/-!
# Transitions

The states that a packet passes through between two moves of its queue, and in what order. A
packet waits until it is programmed or fails; a programmed packet may be found pending, and
is released with what the device reported of it; and a packet that failed is released with
its failure.
-/

namespace TransmitQueue

/-- Failures for which a packet does not reach the device. -/
def Failure.precedesDevice : Failure → Bool
  | skipped | cannotTransmit => true
  | mapping error => !error.isExhaustion
  | hardware => false

/-- Completions that the device reports. -/
def Completion.isReported : Completion → Bool
  | success | failed .hardware => true
  | failed .skipped | failed .cannotTransmit | failed (.mapping _) => false

namespace PacketState

/-- The states in which a packet is found between two moves. -/
def isVisible : PacketState → Bool
  | unposted | programmed | completionPending | released _ => true
  | completed (.failed failure) => failure.precedesDevice
  | admitted | completed .success => false

/-- One move takes a packet from one state to another. -/
inductive Next : PacketState → PacketState → Prop where
  | programmed : Next unposted programmed
  | failed {failure : Failure} (hfailure : failure.precedesDevice = true) :
      Next unposted (completed (.failed failure))
  | pending {state : PacketState} (hstate : state.isOnDevice = true) :
      Next state completionPending
  | reported {state : PacketState} {completion : Completion} (hstate : state.isOnDevice = true)
      (hcompletion : completion.isReported = true) : Next state (released completion)
  | settled {completion : Completion} : Next (completed completion) (released completion)

/-- Moves take a packet from one state to another. -/
def Leads : PacketState → PacketState → Prop := Relation.ReflTransGen Next

theorem isVisible_of_leads {state : PacketState} (hleads : Leads unposted state) :
    state.isVisible = true := by
  rcases Relation.ReflTransGen.cases_tail hleads with rfl | ⟨before, _, hnext⟩
  · rfl
  · cases hnext with
    | failed hfailure => exact hfailure
    | _ => rfl

/-- How far a packet has come. -/
def progress : PacketState → Nat
  | unposted => 0
  | admitted => 1
  | programmed => 2
  | completionPending => 3
  | completed _ => 4
  | released _ => 5

theorem Next.progress_lt_or {before after : PacketState} (hnext : Next before after) :
    before.progress < after.progress ∨ before = after := by
  cases hnext with
  | programmed | failed | settled => exact Or.inl (by simp [progress])
  | pending hstate =>
      cases before with
      | programmed => exact Or.inl (by simp [progress])
      | completionPending => exact Or.inr rfl
      | unposted | admitted | completed | released => cases hstate
  | reported hstate =>
      cases before with
      | programmed | completionPending => exact Or.inl (by simp [progress])
      | unposted | admitted | completed | released => cases hstate

theorem Leads.progress_lt_or {before after : PacketState} (hleads : Leads before after) :
    before.progress < after.progress ∨ before = after := by
  induction hleads with
  | refl => exact Or.inr rfl
  | tail _ hnext ih =>
      rcases ih with hless | rfl
      · rcases hnext.progress_lt_or with hmore | rfl
        · exact Or.inl (Nat.lt_trans hless hmore)
        · exact Or.inl hless
      · exact hnext.progress_lt_or

/-- No packet comes back to a state that it has left. -/
theorem Leads.antisymm {before after : PacketState} (hleads : Leads before after)
    (hback : Leads after before) : before = after := by
  rcases hleads.progress_lt_or with hless | hsame
  · rcases hback.progress_lt_or with hmore | hsame
    · omega
    · exact hsame.symm
  · exact hsame

end PacketState

namespace Queue

variable {P H D : Type} [Packet P] [Device P H] [Adapter D] {start queue next last : Queue P H D}
  {config : Config} {packet : P} {calls : List (Event P)}

/-- An attempt leaves its packet waiting, programmed, or failed before it reached the
device. -/
theorem Attempted.next_or {admission : Admission}
    (hattempted : Attempted queue packet admission calls next) :
    admission.state = .unposted ∨ PacketState.Next .unposted admission.state := by
  cases hattempted with
  | bounce | map => exact Or.inr .programmed
  | bounceStall | mapStall => exact Or.inl rfl
  | skip | refuse => exact Or.inr (.failed rfl)
  | bounceFail error _ _ _ _ hfailed | mapFail error _ _ _ hfailed =>
      exact Or.inr (.failed (by simp only [Failure.precedesDevice, hfailed, Bool.not_false]))

omit [Packet P] in
/-- A look finds its packet pending or releases it, with the failure it had or with what the
device reported. -/
theorem Scanned.next_afterScan {outcome : Option Completion}
    (hscanned : Scanned queue packet outcome calls next)
    (hflight : (queue.ring.slot queue.ring.released).state.isInFlight = true) :
    PacketState.Next (queue.ring.slot queue.ring.released).state (.afterScan outcome) := by
  cases outcome with
  | none => exact .pending (PacketState.isOnDevice_of_isInFlight hflight hscanned.of_none.2)
  | some completion =>
      rcases hscanned.of_some with ⟨hknown, _⟩ | ⟨hunknown, hanswer⟩
      · rw [hknown]
        exact .settled
      · refine .reported (PacketState.isOnDevice_of_isInFlight hflight hunknown) ?_
        rcases hanswer with ⟨_, rfl⟩ | ⟨_, rfl⟩ <;> rfl

theorem Moved.window_le {move : Move P H D} (hmoved : Moved queue move next) :
    queue.ring.taken ≤ next.ring.taken ∧ queue.ring.posted ≤ next.ring.posted := by
  cases hmoved with
  | posted packet ring hpost =>
      obtain ⟨_, rfl⟩ := PacketRing.post_eq_ok_iff.mp hpost
      exact ⟨Nat.le_refl _, Nat.le_succ _⟩
  | popped completed ring hpop =>
      obtain ⟨_, _, _, rfl⟩ := PacketRing.pop?_eq_some_iff.mp hpop
      exact ⟨Nat.le_succ _, Nat.le_refl _⟩
  | cancelled =>
      obtain ⟨_, htaken, _, _, hposted⟩ :=
        queue.ring.cancelFrom_snd queue.ring.admitted queue.ring.unposted
      exact ⟨Nat.le_of_eq htaken.symm, Nat.le_of_eq hposted.symm⟩
  | admitted packet admission calls _ _ _ _ hattempted =>
      rw [hattempted.ring_eq, PacketRing.taken_concluded, PacketRing.posted_concluded]
      exact ⟨Nat.le_refl _, Nat.le_refl _⟩
  | scanned packet outcome calls _ _ _ _ hscanned =>
      rw [hscanned.ring_eq, PacketRing.taken_scanned, PacketRing.posted_scanned]
      exact ⟨Nat.le_refl _, Nat.le_refl _⟩
  | rejected | nothingPopped | quiet => exact ⟨Nat.le_refl _, Nat.le_refl _⟩

/-- A move leaves a packet in its state, or takes it to a next one. -/
theorem Moved.next_or {move : Move P H D} (hmoved : Moved queue move next)
    (hstaged : queue.ring.Staged) {cursor : Nat} (hlow : next.ring.taken ≤ cursor)
    (hhigh : cursor < queue.ring.posted) :
    (next.ring.slot cursor).state = (queue.ring.slot cursor).state ∨
      PacketState.Next (queue.ring.slot cursor).state (next.ring.slot cursor).state := by
  have hfirst := Nat.le_trans hmoved.window_le.1 hlow
  cases hmoved with
  | posted packet ring hpost =>
      have hslot := hstaged.ordered.slot_post hpost ⟨hfirst, Nat.le_of_lt hhigh⟩
      rw [if_neg (Nat.ne_of_lt hhigh)] at hslot
      exact Or.inl (congrArg RingSlot.state hslot)
  | popped completed ring hpop =>
      obtain ⟨_, _, _, rfl⟩ := PacketRing.pop?_eq_some_iff.mp hpop
      have hslot := hstaged.ordered.slot_pop hpop ⟨hlow, hhigh⟩
      exact Or.inl (congrArg RingSlot.state hslot)
  | cancelled =>
      refine Or.inl ?_
      dsimp only
      rw [hstaged.ordered.slot_cancelUnposted ⟨hfirst, hhigh⟩]
      split <;> rfl
  | admitted packet admission calls _ hready _ _ hattempted =>
      rw [hattempted.ring_eq, hstaged.slot_concluded hready admission hfirst hhigh]
      split
      next hcursor =>
        rw [hcursor, hstaged.waiting queue.ring.admitted (Nat.le_refl _) hready]
        exact hattempted.next_or
      next => exact Or.inl rfl
  | scanned packet outcome calls _ hbusy _ _ hscanned =>
      rw [hscanned.ring_eq, hstaged.slot_scanned hbusy outcome hfirst hhigh]
      split
      next hcursor =>
        have hflight := hstaged.inFlight queue.ring.released (Nat.le_refl _) hbusy
        rw [hcursor]
        exact Or.inr (hscanned.next_afterScan hflight)
      next => exact Or.inl rfl
  | rejected | nothingPopped | quiet => exact Or.inl rfl

/-- A packet that a move adds waits. -/
theorem Moved.state_of_posted {move : Move P H D} (hmoved : Moved queue move next)
    (hstaged : queue.ring.Staged) {cursor : Nat} (hlow : queue.ring.posted ≤ cursor)
    (hhigh : cursor < next.ring.posted) : (next.ring.slot cursor).state = .unposted := by
  have hnext := hmoved.staged hstaged
  have hadmitted : next.ring.admitted ≤ queue.ring.posted := by
    have horder := hstaged.ordered.admitted_le
    cases hmoved with
    | posted packet ring hpost =>
        obtain ⟨_, rfl⟩ := PacketRing.post_eq_ok_iff.mp hpost
        exact horder
    | popped completed ring hpop =>
        obtain ⟨_, _, _, rfl⟩ := PacketRing.pop?_eq_some_iff.mp hpop
        exact horder
    | cancelled =>
        obtain ⟨_, _, _, hsame, _⟩ :=
          queue.ring.cancelFrom_snd queue.ring.admitted queue.ring.unposted
        exact hsame.symm ▸ horder
    | admitted packet admission calls _ hready _ _ hattempted =>
        rw [hattempted.ring_eq]
        exact Nat.le_trans (queue.ring.concluded_admitted_le admission) hready
    | scanned packet outcome calls _ _ _ _ hscanned =>
        rw [hscanned.ring_eq]
        cases outcome <;> exact horder
    | rejected | nothingPopped | quiet => exact horder
  exact hnext.waiting cursor (Nat.le_trans hadmitted hlow) hhigh

variable {steps : List (Step P H D)}

theorem Course.window_le (hcourse : Course start steps last) (hstart : start.Sound) :
    start.ring.taken ≤ last.ring.taken ∧ start.ring.posted ≤ last.ring.posted := by
  induction hcourse with
  | refl => exact ⟨Nat.le_refl _, Nat.le_refl _⟩
  | snoc before ready ih =>
      obtain ⟨htaken, hposted⟩ := ((before.sound hstart).moved ready).window_le
      exact ⟨Nat.le_trans ih.1 htaken, Nat.le_trans ih.2 hposted⟩

/-- Along a course a packet that stays in the ring goes from state to state. -/
theorem Course.leads (hcourse : Course start steps last) (hstart : start.Sound)
    {cursor : Nat} (hlow : last.ring.taken ≤ cursor) (hhigh : cursor < start.ring.posted) :
    PacketState.Leads (start.ring.slot cursor).state (last.ring.slot cursor).state := by
  induction hcourse with
  | refl => exact .refl
  | snoc before ready ih =>
      have hsound := before.sound hstart
      have hmoved := hsound.moved ready
      have hbefore := ih (Nat.le_trans hmoved.window_le.1 hlow)
      have hposted := Nat.lt_of_lt_of_le hhigh (before.window_le hstart).2
      rcases hmoved.next_or hsound.staged hlow hposted with hsame | hnext
      · rw [hsame]
        exact hbefore
      · exact hbefore.tail hnext

/-- Every packet in the ring came to its state from waiting. -/
theorem Course.leads_of_unposted (hcourse : Course start steps last)
    (hbuilt : Built config start) {cursor : Nat} (hlow : last.ring.taken ≤ cursor)
    (hhigh : cursor < last.ring.posted) :
    PacketState.Leads .unposted (last.ring.slot cursor).state := by
  refine hcourse.invariant (fun _ queue => ∀ cursor, queue.ring.taken ≤ cursor →
    cursor < queue.ring.posted → PacketState.Leads .unposted (queue.ring.slot cursor).state)
    hbuilt.sound ?_ ?_ cursor hlow hhigh
  · intro cursor _ hhigh
    rw [hbuilt.ring_eq] at hhigh
    exact absurd hhigh (Nat.not_lt_zero cursor)
  · intro steps queue move next _ hstaged _ hmoved hleads cursor hlow hhigh
    rcases Nat.lt_or_ge cursor queue.ring.posted with hold | hnew
    · have hbefore := hleads cursor (Nat.le_trans hmoved.window_le.1 hlow) hold
      rcases hmoved.next_or hstaged hlow hold with hsame | hnext
      · rw [hsame]
        exact hbefore
      · exact hbefore.tail hnext
    · rw [hmoved.state_of_posted hstaged hnew hhigh]
      exact .refl

end Queue

end TransmitQueue
