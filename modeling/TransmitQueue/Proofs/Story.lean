import TransmitQueue.Proofs.Fifo
import TransmitQueue.Proofs.Queue.Calls

/-!
# The story of a packet

The steps of a course that deal with one packet, found by the packet's cursor: attempts at
admission first, all but the last of them stalled, and then looks at the packet in flight,
all but the last of which found the device busy. The state of the packet's slot says how
far its story has come.
-/

namespace TransmitQueue

variable {P H D : Type}

namespace Step

/-- Whether a step is an attempt to admit the packet of a cursor. -/
def attempts (step : Step P H D) (cursor : Nat) : Bool :=
  match step.move with
  | .attempt => step.before.ring.admitted == cursor
  | _ => false

/-- Whether a step deals with the packet of a cursor: it attempts to admit the packet, or
looks at it in flight. -/
def concerns (step : Step P H D) (cursor : Nat) : Bool :=
  match step.move with
  | .attempt => step.before.ring.admitted == cursor
  | .scan => step.before.ring.released == cursor
  | _ => false

end Step

/-- The attempts to admit the packet of a cursor. -/
def attemptsOf (steps : List (Step P H D)) (cursor : Nat) : List (Step P H D) :=
  steps.filter fun step => step.attempts cursor

/-- The steps that deal with the packet of a cursor. -/
def dealings (steps : List (Step P H D)) (cursor : Nat) : List (Step P H D) :=
  steps.filter fun step => step.concerns cursor

/-- Whether a cancellation came after the packet of a cursor was posted and before it
was admitted. -/
def CancelledWaiting (steps : List (Step P H D)) (cursor : Nat) : Prop :=
  ∃ step ∈ steps, step.move = .cancel ∧ step.before.ring.admitted ≤ cursor ∧
    cursor < step.before.ring.posted

section Append

variable {steps : List (Step P H D)} {step : Step P H D} {cursor : Nat}

theorem dealings_append_of_concerns (hstep : step.concerns cursor = true) :
    dealings (steps ++ [step]) cursor = dealings steps cursor ++ [step] := by
  simp [dealings, hstep]

theorem dealings_append_of_not_concerns (hstep : step.concerns cursor = false) :
    dealings (steps ++ [step]) cursor = dealings steps cursor := by
  simp [dealings, hstep]

theorem attemptsOf_eq_filter (steps : List (Step P H D)) (cursor : Nat) :
    attemptsOf steps cursor = (dealings steps cursor).filter fun step => step.attempts cursor := by
  unfold attemptsOf dealings
  rw [List.filter_filter]
  congr 1
  funext step
  unfold Step.attempts Step.concerns
  cases step.move <;> simp

theorem cancelledWaiting_append_iff {first second : List (Step P H D)} :
    CancelledWaiting (first ++ second) cursor ↔
      CancelledWaiting first cursor ∨ CancelledWaiting second cursor := by
  unfold CancelledWaiting
  simp only [List.mem_append, or_and_right, exists_or]

theorem cancelledWaiting_append :
    CancelledWaiting (steps ++ [step]) cursor ↔ CancelledWaiting steps cursor ∨
      step.move = .cancel ∧ step.before.ring.admitted ≤ cursor ∧
        cursor < step.before.ring.posted := by
  rw [cancelledWaiting_append_iff]
  refine or_congr_right ?_
  unfold CancelledWaiting
  simp only [List.mem_singleton, exists_eq_left]

theorem cancelledWaiting_append_of_ne (hmove : step.move ≠ .cancel) :
    CancelledWaiting (steps ++ [step]) cursor ↔ CancelledWaiting steps cursor := by
  rw [cancelledWaiting_append]
  exact or_iff_left fun hcancel => hmove hcancel.1

end Append

variable [Packet P] [Device P H] [Adapter D]

namespace Step

/-- An attempt to admit a packet, and how it ended. -/
structure Attempts (step : Step P H D) (packet : P) (admission : Queue.Admission) : Prop where
  move_eq : step.move = .attempt
  attempted : Queue.Attempted step.before packet admission step.calls step.after

/-- A look at a packet in flight, and what it found. -/
structure Scans (step : Step P H D) (packet : P) (outcome : Option Completion) : Prop where
  move_eq : step.move = .scan
  scanned : Queue.Scanned step.before packet outcome step.calls step.after

end Step

/-- The story of a packet up to the state that it is in. Attempts stall until one decides
on the packet, which is then as cancelled as it will ever be. -/
inductive Story (packet : P) (cancelled : Bool) : List (Step P H D) → PacketState → Prop
  | waiting {stalls : List (Step P H D)}
      (hstalls : ∀ step ∈ stalls, step.Attempts packet .stalled) :
      Story packet cancelled stalls .unposted
  | failed {stalls : List (Step P H D)} {last : Step P H D} {failure : Failure}
      (hstalls : ∀ step ∈ stalls, step.Attempts packet .stalled)
      (hlast : last.Attempts packet (.failed failure))
      (hcancelled : (last.before.ring.slot last.before.ring.admitted).cancelled = cancelled) :
      Story packet cancelled (stalls ++ [last]) (.completed (.failed failure))
  | sent {stalls polls : List (Step P H D)} {last : Step P H D} {state : PacketState}
      (hstalls : ∀ step ∈ stalls, step.Attempts packet .stalled)
      (hlast : last.Attempts packet .programmed)
      (hcancelled : (last.before.ring.slot last.before.ring.admitted).cancelled = cancelled)
      (hpolls : ∀ step ∈ polls, step.Scans packet none)
      (hstate : state = .programmed ∨ state = .completionPending) :
      Story packet cancelled (stalls ++ [last] ++ polls) state
  | returned {steps : List (Step P H D)} {state : PacketState} {look : Step P H D}
      {completion : Completion} (hstory : Story packet cancelled steps state)
      (hflight : state.isInFlight = true)
      (hstate : (look.before.ring.slot look.before.ring.released).state = state)
      (hlook : look.Scans packet (some completion)) :
      Story packet cancelled (steps ++ [look]) (.released completion)

/-- Until an attempt decides on it, a packet may still be cancelled. -/
theorem Story.recancel {packet : P} {cancelled : Bool} {steps : List (Step P H D)}
    (hstory : Story packet cancelled steps .unposted) (other : Bool) :
    Story packet other steps .unposted := by
  cases hstory with
  | waiting hstalls => exact .waiting hstalls
  | sent _ _ _ _ hstate => rcases hstate with hstate | hstate <;> cases hstate

theorem Story.attempt {packet : P} {cancelled : Bool} {steps : List (Step P H D)}
    (hstory : Story packet cancelled steps .unposted) {step : Step P H D}
    {admission : Queue.Admission}
    (hstep : step.Attempts packet admission)
    (hcancelled : (step.before.ring.slot step.before.ring.admitted).cancelled = cancelled) :
    Story packet cancelled (steps ++ [step]) admission.state := by
  cases hstory with
  | sent _ _ _ _ hstate => rcases hstate with hstate | hstate <;> cases hstate
  | waiting hstalls =>
      cases admission with
      | failed failure => exact .failed hstalls hstep hcancelled
      | programmed =>
          have hsent : Story packet cancelled (steps ++ [step] ++ []) .programmed :=
            .sent hstalls hstep hcancelled nofun (Or.inl rfl)
          rw [List.append_nil] at hsent
          exact hsent
      | stalled =>
          refine .waiting fun other hother => ?_
          rcases List.mem_append.mp hother with hearlier | hlast
          · exact hstalls other hearlier
          · rw [List.mem_singleton.mp hlast]
            exact hstep

theorem Story.scan {packet : P} {cancelled : Bool} {steps : List (Step P H D)} {state : PacketState}
    (hstory : Story packet cancelled steps state) (hflight : state.isInFlight = true)
    {step : Step P H D} (hstate : (step.before.ring.slot step.before.ring.released).state = state)
    {outcome : Option Completion} (hstep : step.Scans packet outcome) :
    Story packet cancelled (steps ++ [step]) (.afterScan outcome) := by
  cases outcome with
  | some completion => exact .returned hstory hflight hstate hstep
  | none =>
      cases hstory with
      | waiting => cases hflight
      | returned => cases hflight
      | failed => exact False.elim (hstep.scanned.of_none.2 _ hstate)
      | sent hstalls hlast hcancelled hpolls =>
          rw [List.append_assoc]
          refine .sent hstalls hlast hcancelled ?_ (Or.inr rfl)
          intro other hother
          rcases List.mem_append.mp hother with hearlier | hnew
          · exact hpolls other hearlier
          · rw [List.mem_singleton.mp hnew]
            exact hstep

namespace Queue

/-- A queue in which the slot of every packet says how far its story has come, and whose
popped packets carry the completions that their stories ended with. -/
structure Records (steps : List (Step P H D)) (queue : Queue P H D) : Prop where
  future : ∀ cursor, queue.ring.posted ≤ cursor →
    dealings steps cursor = [] ∧ ¬ CancelledWaiting steps cursor
  live : ∀ cursor, queue.ring.taken ≤ cursor → cursor < queue.ring.posted →
    ∀ packet, (queue.ring.slot cursor).packet = some packet →
      Story packet (queue.ring.slot cursor).cancelled (dealings steps cursor)
        (queue.ring.slot cursor).state
  marked : ∀ cursor, queue.ring.taken ≤ cursor → cursor < queue.ring.posted →
    ((queue.ring.slot cursor).cancelled = true ↔ CancelledWaiting steps cursor)
  popped : ∀ cursor completed, (poppedPackets steps)[cursor]? = some completed →
    ∃ cancelled, Story completed.packet cancelled (dealings steps cursor)
        (.released completed.completion) ∧
      (cancelled = true ↔ CancelledWaiting steps cursor)

namespace Records

variable {steps : List (Step P H D)} {queue next : Queue P H D}

/-- Stories that ended stay as they are. -/
theorem popped_concat (hrecords : Records steps queue) {step : Step P H D}
    (hpopped : step.popped? = none)
    (hsame : ∀ cursor < (poppedPackets steps).length,
      dealings (steps ++ [step]) cursor = dealings steps cursor ∧
        (CancelledWaiting (steps ++ [step]) cursor ↔ CancelledWaiting steps cursor))
    (cursor : Nat) (completed : CompletedPacket P)
    (hcompleted : (poppedPackets (steps ++ [step]))[cursor]? = some completed) :
    ∃ cancelled, Story completed.packet cancelled (dealings (steps ++ [step]) cursor)
        (.released completed.completion) ∧
      (cancelled = true ↔ CancelledWaiting (steps ++ [step]) cursor) := by
  have hpackets : poppedPackets (steps ++ [step]) = poppedPackets steps :=
    filterMap_concat_of_none hpopped
  rw [hpackets] at hcompleted
  obtain ⟨hbound, _⟩ := List.getElem?_eq_some_iff.mp hcompleted
  obtain ⟨hdealings, hcancelled⟩ := hsame cursor hbound
  rw [hdealings, hcancelled]
  exact hrecords.popped cursor completed hcompleted

/-- A step that deals with no packet leaves every story where it was. -/
theorem kept (hrecords : Records steps queue) {step : Step P H D}
    (hconcerns : ∀ cursor, step.concerns cursor = false) (hmove : step.move ≠ .cancel)
    (hpopped : step.popped? = none) (hring : next.ring = queue.ring) :
    Records (steps ++ [step]) next := by
  have hsame : ∀ cursor, dealings (steps ++ [step]) cursor = dealings steps cursor :=
    fun cursor => dealings_append_of_not_concerns (hconcerns cursor)
  refine ⟨?_, ?_, ?_, ?_⟩
  · intro cursor hcursor
    rw [hring] at hcursor
    rw [hsame, cancelledWaiting_append_of_ne hmove]
    exact hrecords.future cursor hcursor
  · intro cursor hlow hhigh packet hpacket
    rw [hring] at hlow hhigh hpacket ⊢
    rw [hsame]
    exact hrecords.live cursor hlow hhigh packet hpacket
  · intro cursor hlow hhigh
    rw [hring] at hlow hhigh ⊢
    rw [cancelledWaiting_append_of_ne hmove]
    exact hrecords.marked cursor hlow hhigh
  · exact hrecords.popped_concat hpopped fun cursor _ =>
      ⟨hsame cursor, cancelledWaiting_append_of_ne hmove⟩

/-- A packet just posted has no story yet, whatever its slot held before. -/
theorem posted (hrecords : Records steps queue) (hordered : queue.ring.Ordered) {packet : P}
    {ring : PacketRing P} (hpost : queue.ring.post packet = .ok ring) :
    Records (steps ++ [⟨queue, .post packet⟩]) { queue with ring := ring } := by
  have htaken := hordered.taken_le
  have hreleased := hordered.released_le
  have hadmitted := hordered.admitted_le
  have hcursors : ring.taken = queue.ring.taken ∧ ring.posted = queue.ring.posted + 1 := by
    obtain ⟨_, rfl⟩ := PacketRing.post_eq_ok_iff.mp hpost
    exact ⟨rfl, rfl⟩
  have hslot : ∀ cursor, ring.taken ≤ cursor → cursor < ring.posted → ring.slot cursor =
      if cursor = queue.ring.posted then .fresh packet else queue.ring.slot cursor :=
    fun cursor hlow hhigh => hordered.slot_post hpost ⟨by omega, by omega⟩
  have hsame : ∀ cursor, dealings (steps ++ [⟨queue, .post packet⟩]) cursor =
      dealings steps cursor := fun cursor => dealings_append_of_not_concerns rfl
  have hmove : (⟨queue, .post packet⟩ : Step P H D).move ≠ .cancel := nofun
  refine ⟨?_, ?_, ?_, ?_⟩
  · intro cursor hcursor
    change ring.posted ≤ cursor at hcursor
    rw [hsame, cancelledWaiting_append_of_ne hmove]
    exact hrecords.future cursor (by omega)
  · intro cursor hlow hhigh found hfound
    change (ring.slot cursor).packet = _ at hfound
    change Story found (ring.slot cursor).cancelled _ (ring.slot cursor).state
    rw [hslot cursor hlow hhigh] at hfound ⊢
    rw [hsame]
    change ring.taken ≤ cursor at hlow
    change cursor < ring.posted at hhigh
    split at hfound
    next hnew =>
      rw [if_pos hnew, (hrecords.future cursor (by omega)).1]
      exact .waiting nofun
    next hold =>
      rw [if_neg hold]
      exact hrecords.live cursor (by omega) (by omega) found hfound
  · intro cursor hlow hhigh
    change (ring.slot cursor).cancelled = true ↔ _
    rw [hslot cursor hlow hhigh, cancelledWaiting_append_of_ne hmove]
    change ring.taken ≤ cursor at hlow
    change cursor < ring.posted at hhigh
    split
    next hnew =>
      have hnone := (hrecords.future cursor (by omega)).2
      exact ⟨nofun, fun hcancelled => False.elim (hnone hcancelled)⟩
    next hold => exact hrecords.marked cursor (by omega) (by omega)
  · exact hrecords.popped_concat rfl fun cursor _ =>
      ⟨hsame cursor, cancelledWaiting_append_of_ne hmove⟩

/-- A pop ends the story of the oldest packet and keeps it. -/
theorem taken (hrecords : Records steps queue) (hholds : Holds steps queue)
    (hstaged : queue.ring.Staged) {completed : CompletedPacket P} {ring : PacketRing P}
    (hpop : queue.ring.pop? = some (completed, ring)) :
    Records (steps ++ [⟨queue, .pop⟩]) { queue with ring := ring } := by
  have htaken := hstaged.ordered.taken_le
  have hreleased := hstaged.ordered.released_le
  have hadmitted := hstaged.ordered.admitted_le
  obtain ⟨hne, hstate, hpacket, hring⟩ := PacketRing.pop?_eq_some_iff.mp hpop
  have hcursors : ring.taken = queue.ring.taken + 1 ∧ ring.posted = queue.ring.posted := by
    subst hring
    exact ⟨rfl, rfl⟩
  have hslot : ∀ cursor, ring.taken ≤ cursor → cursor < ring.posted →
      ring.slot cursor = queue.ring.slot cursor :=
    fun cursor hlow hhigh => hstaged.ordered.slot_pop hpop ⟨by omega, by omega⟩
  have hsame : ∀ cursor, dealings (steps ++ [⟨queue, .pop⟩]) cursor = dealings steps cursor :=
    fun cursor => dealings_append_of_not_concerns rfl
  have hmove : (⟨queue, .pop⟩ : Step P H D).move ≠ .cancel := nofun
  refine ⟨?_, ?_, ?_, ?_⟩
  · intro cursor hcursor
    change ring.posted ≤ cursor at hcursor
    rw [hsame, cancelledWaiting_append_of_ne hmove]
    exact hrecords.future cursor (by omega)
  · intro cursor hlow hhigh found hfound
    change (ring.slot cursor).packet = _ at hfound
    change Story found (ring.slot cursor).cancelled _ (ring.slot cursor).state
    rw [hslot cursor hlow hhigh] at hfound ⊢
    rw [hsame]
    change ring.taken ≤ cursor at hlow
    change cursor < ring.posted at hhigh
    exact hrecords.live cursor (by omega) (by omega) found hfound
  · intro cursor hlow hhigh
    change (ring.slot cursor).cancelled = true ↔ _
    rw [hslot cursor hlow hhigh, cancelledWaiting_append_of_ne hmove]
    change ring.taken ≤ cursor at hlow
    change cursor < ring.posted at hhigh
    exact hrecords.marked cursor (by omega) (by omega)
  · intro cursor found hfound
    have hpackets : poppedPackets (steps ++ [⟨queue, .pop⟩]) =
        poppedPackets steps ++ [completed] :=
      filterMap_concat_of_some (congrArg (Option.map Prod.fst) hpop)
    rw [hpackets] at hfound
    rw [hsame, cancelledWaiting_append_of_ne hmove]
    have hlength := hholds.length_popped hstaged.ordered
    rcases Nat.lt_or_ge cursor (poppedPackets steps).length with hearlier | hlast
    · rw [List.getElem?_append_left hearlier] at hfound
      exact hrecords.popped cursor found hfound
    · rw [List.getElem?_append_right hlast] at hfound
      have hcursor : cursor = queue.ring.taken := by
        obtain ⟨hbound, _⟩ := List.getElem?_eq_some_iff.mp hfound
        rw [List.length_singleton] at hbound
        omega
      subst hcursor
      -- The story told last is the one that the slot of the oldest packet told.
      rw [hlength, Nat.sub_self] at hfound
      cases hfound
      have hstory := hrecords.live queue.ring.taken (Nat.le_refl _) (by omega) _ hpacket
      rw [hstate] at hstory
      exact ⟨_, hstory, hrecords.marked queue.ring.taken (Nat.le_refl _) (by omega)⟩

/-- A cancellation marks the packets that wait, and tells no story further. -/
theorem cancelled (hrecords : Records steps queue) (hholds : Holds steps queue)
    (hstaged : queue.ring.Staged) :
    Records (steps ++ [⟨queue, .cancel⟩])
      { queue with ring := queue.ring.cancelUnposted.2 } := by
  obtain ⟨_, htaken, _, _, hposted⟩ :=
    queue.ring.cancelFrom_snd queue.ring.admitted queue.ring.unposted
  have hslot : ∀ cursor, queue.ring.taken ≤ cursor → cursor < queue.ring.posted →
      queue.ring.cancelUnposted.2.slot cursor =
        if queue.ring.admitted ≤ cursor then { queue.ring.slot cursor with cancelled := true }
        else queue.ring.slot cursor :=
    fun cursor hlow hhigh => hstaged.ordered.slot_cancelUnposted ⟨hlow, hhigh⟩
  have hsame : ∀ cursor, dealings (steps ++ [⟨queue, .cancel⟩]) cursor = dealings steps cursor :=
    fun cursor => dealings_append_of_not_concerns rfl
  refine ⟨?_, ?_, ?_, ?_⟩
  · intro cursor hcursor
    change queue.ring.cancelUnposted.2.posted ≤ cursor at hcursor
    unfold PacketRing.cancelUnposted at hcursor
    rw [hposted] at hcursor
    obtain ⟨hnone, hspared⟩ := hrecords.future cursor hcursor
    refine ⟨(hsame cursor).trans hnone, ?_⟩
    rw [cancelledWaiting_append]
    rintro (hearlier | ⟨_, _, hwaiting⟩)
    · exact hspared hearlier
    · exact absurd hwaiting (Nat.not_lt.mpr hcursor)
  · intro cursor hlow hhigh packet hpacket
    replace hlow : queue.ring.taken ≤ cursor := htaken ▸ hlow
    replace hhigh : cursor < queue.ring.posted := hposted ▸ hhigh
    change (queue.ring.cancelUnposted.2.slot cursor).packet = _ at hpacket
    change Story packet (queue.ring.cancelUnposted.2.slot cursor).cancelled _
      (queue.ring.cancelUnposted.2.slot cursor).state
    rw [hslot cursor hlow hhigh] at hpacket ⊢
    rw [hsame]
    split at hpacket
    next hwaiting =>
      rw [if_pos hwaiting]
      have hstory := hrecords.live cursor hlow hhigh packet hpacket
      rw [hstaged.waiting cursor hwaiting hhigh] at hstory
      change Story packet true _ (queue.ring.slot cursor).state
      rw [hstaged.waiting cursor hwaiting hhigh]
      exact hstory.recancel true
    next hpassed =>
      rw [if_neg hpassed]
      exact hrecords.live cursor hlow hhigh packet hpacket
  · intro cursor hlow hhigh
    replace hlow : queue.ring.taken ≤ cursor := htaken ▸ hlow
    replace hhigh : cursor < queue.ring.posted := hposted ▸ hhigh
    change (queue.ring.cancelUnposted.2.slot cursor).cancelled = true ↔ _
    rw [hslot cursor hlow hhigh, cancelledWaiting_append]
    split
    next hwaiting => exact ⟨fun _ => Or.inr ⟨rfl, hwaiting, hhigh⟩, fun _ => rfl⟩
    next hpassed =>
      rw [hrecords.marked cursor hlow hhigh]
      exact (or_iff_left fun hcancel => hpassed hcancel.2.1).symm
  · have hlength := hholds.length_popped hstaged.ordered
    have hfirst := hstaged.ordered.taken_le
    have hreleased := hstaged.ordered.released_le
    refine hrecords.popped_concat rfl fun cursor hcursor => ⟨hsame cursor, ?_⟩
    rw [cancelledWaiting_append]
    exact or_iff_left fun hcancel => absurd hcancel.2.1 (by dsimp only; omega)

/-- A step that deals with one packet of the window takes its story one step further. -/
theorem dealt (hrecords : Records steps queue) (hholds : Holds steps queue)
    (hstaged : queue.ring.Staged) {step : Step P H D} (dealtWith : Nat) (state : PacketState)
    (hlow : queue.ring.taken ≤ dealtWith) (hhigh : dealtWith < queue.ring.posted)
    (hconcerns : ∀ cursor, step.concerns cursor = (dealtWith == cursor))
    (hmove : step.move ≠ .cancel) (hpopped : step.popped? = none)
    (htaken : next.ring.taken = queue.ring.taken) (hposted : next.ring.posted = queue.ring.posted)
    (hslot : ∀ cursor, queue.ring.taken ≤ cursor → cursor < queue.ring.posted →
      next.ring.slot cursor =
        if cursor = dealtWith then { queue.ring.slot cursor with state := state }
        else queue.ring.slot cursor)
    (hstory : ∀ packet, (queue.ring.slot dealtWith).packet = some packet →
      Story packet (queue.ring.slot dealtWith).cancelled (dealings steps dealtWith)
        (queue.ring.slot dealtWith).state →
      Story packet (queue.ring.slot dealtWith).cancelled (dealings steps dealtWith ++ [step])
        state) :
    Records (steps ++ [step]) next := by
  have hself : dealings (steps ++ [step]) dealtWith = dealings steps dealtWith ++ [step] :=
    dealings_append_of_concerns (by rw [hconcerns, beq_self_eq_true])
  have hother : ∀ cursor, cursor ≠ dealtWith →
      dealings (steps ++ [step]) cursor = dealings steps cursor := by
    intro cursor hne
    refine dealings_append_of_not_concerns ?_
    rw [hconcerns]
    exact beq_false_of_ne hne.symm
  refine ⟨?_, ?_, ?_, ?_⟩
  · intro cursor hcursor
    rw [hposted] at hcursor
    rw [hother cursor (by omega), cancelledWaiting_append_of_ne hmove]
    exact hrecords.future cursor hcursor
  · intro cursor hfirst hlast packet hpacket
    rw [htaken] at hfirst
    rw [hposted] at hlast
    rw [hslot cursor hfirst hlast] at hpacket ⊢
    by_cases hcursor : cursor = dealtWith
    · subst hcursor
      rw [if_pos rfl] at hpacket ⊢
      rw [hself]
      exact hstory packet hpacket (hrecords.live cursor hfirst hlast packet hpacket)
    · rw [if_neg hcursor] at hpacket ⊢
      rw [hother cursor hcursor]
      exact hrecords.live cursor hfirst hlast packet hpacket
  · intro cursor hfirst hlast
    rw [htaken] at hfirst
    rw [hposted] at hlast
    rw [hslot cursor hfirst hlast, cancelledWaiting_append_of_ne hmove]
    have hmarked := hrecords.marked cursor hfirst hlast
    split <;> exact hmarked
  · have hlength := hholds.length_popped hstaged.ordered
    exact hrecords.popped_concat hpopped fun cursor hcursor =>
      ⟨hother cursor (by omega), cancelledWaiting_append_of_ne hmove⟩

end Records

variable {start last : Queue P H D}

/-- Along every course each slot says how far the story of its packet has come. -/
theorem Course.records {config : Config} {steps : List (Step P H D)}
    (hcourse : Course start steps last) (hbuilt : Built config start) : Records steps last := by
  refine hcourse.invariant Records hbuilt.sound ?_ ?_
  · have hposted : start.ring.posted = 0 := by
      rw [hbuilt.ring_eq]
      rfl
    refine ⟨?_, ?_, ?_, ?_⟩
    · intro cursor _
      refine ⟨rfl, ?_⟩
      rintro ⟨step, hstep, _⟩
      cases hstep
    · intro cursor _ hhigh
      omega
    · intro cursor _ hhigh
      omega
    · intro cursor completed hcompleted
      cases hcompleted
  · intro steps queue move next hfirst hstaged hnext hmoved hrecords
    have hholds := hfirst.holds hbuilt
    have htaken := hstaged.ordered.taken_le
    have hreleased := hstaged.ordered.released_le
    have hadmitted := hstaged.ordered.admitted_le
    cases hmoved with
    | posted packet ring hpost => exact hrecords.posted hstaged.ordered hpost
    | rejected packet hfull =>
        refine hrecords.kept (fun _ => rfl) ?_ rfl rfl
        intro hmove
        cases hmove
    | popped completed ring hpop => exact hrecords.taken hholds hstaged hpop
    | nothingPopped hpop =>
        refine hrecords.kept (fun _ => rfl) ?_ (by simp [Step.popped?, hpop]) rfl
        intro hmove
        cases hmove
    | cancelled => exact hrecords.cancelled hholds hstaged
    | admitted packet admission calls _ hready hpacket hanswered hattempted =>
        have hring := hattempted.ring_eq
        refine hrecords.dealt hholds hstaged queue.ring.admitted admission.state (by omega) hready
          (fun _ => rfl) ?_ rfl (by simp [hring]) (by simp [hring]) ?_ ?_
        · intro hmove
          cases hmove
        · intro cursor hlow hhigh
          rw [hring]
          exact hstaged.slot_concluded hready admission hlow hhigh
        · intro found hfound hstory
          rw [hpacket] at hfound
          cases hfound
          rw [hstaged.waiting _ (Nat.le_refl _) hready] at hstory
          refine hstory.attempt ⟨rfl, ?_⟩ rfl
          have hcalls : Step.calls ⟨queue, .attempt⟩ = calls :=
            queue.events_move_attempt.trans (congrArg Traced.events hanswered)
          rw [hcalls, hnext]
          exact hattempted
    | scanned packet outcome calls _ hready hpacket hrelease hscanned =>
        have hring := hscanned.ring_eq
        refine hrecords.dealt hholds hstaged queue.ring.released (.afterScan outcome) htaken
          (by omega) (fun _ => rfl) ?_ rfl (by simp [hring]) (by simp [hring]) ?_ ?_
        · intro hmove
          cases hmove
        · intro cursor hlow hhigh
          rw [hring]
          exact hstaged.slot_scanned hready outcome hlow hhigh
        · intro found hfound hstory
          rw [hpacket] at hfound
          cases hfound
          refine hstory.scan (hstaged.inFlight _ (Nat.le_refl _) hready) rfl ⟨rfl, ?_⟩
          have hcalls : Step.calls ⟨queue, .scan⟩ = calls :=
            queue.events_move_scan.trans (congrArg Traced.events hrelease)
          rw [hcalls, hnext]
          exact hscanned
    | quiet move device adapter statistics hquiet =>
        refine hrecords.kept ?_ ?_ ?_ rfl
        · intro cursor
          cases move <;> first | rfl | cases hquiet
        · intro hmove
          change move = .cancel at hmove
          subst hmove
          cases hquiet
        · cases move <;> first | rfl | cases hquiet

end Queue

end TransmitQueue
