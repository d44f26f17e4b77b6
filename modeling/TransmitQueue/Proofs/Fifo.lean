import TransmitQueue.Proofs.Packets
import TransmitQueue.Proofs.Queue.Calls
import TransmitQueue.Proofs.Staging

/-!
# Order of packets

Packets come back in the order of posting, each of them once and unchanged. The packets
accepted in a run are those popped, followed by those that the ring still holds.
-/

namespace TransmitQueue

variable {P H D : Type}

namespace Queue

/-- A queue that holds the packets of a course which were not popped, each in the slot
of its cursor. -/
structure Holds (steps : List (Step P H D)) (queue : Queue P H D) : Prop where
  length_accepted : (acceptedPackets steps).length = queue.ring.posted
  held : ∀ cursor, queue.ring.taken ≤ cursor → cursor < queue.ring.posted →
    (queue.ring.slot cursor).packet = (acceptedPackets steps)[cursor]?
  popped_eq : (poppedPackets steps).map CompletedPacket.packet =
    (acceptedPackets steps).take queue.ring.taken

namespace Holds

variable {steps : List (Step P H D)} {queue next : Queue P H D} (hholds : Holds steps queue)
include hholds

/-- A step that neither takes nor gives a packet, and moves none. -/
theorem kept {step : Step P H D} (haccepted : step.accepted? = none)
    (hpopped : step.popped? = none) (htaken : next.ring.taken = queue.ring.taken)
    (hposted : next.ring.posted = queue.ring.posted)
    (hslot : ∀ cursor, queue.ring.taken ≤ cursor → cursor < queue.ring.posted →
      (next.ring.slot cursor).packet = (queue.ring.slot cursor).packet) :
    Holds (steps ++ [step]) next := by
  have hsame : acceptedPackets (steps ++ [step]) = acceptedPackets steps :=
    filterMap_concat_of_none haccepted
  have hpackets : poppedPackets (steps ++ [step]) = poppedPackets steps :=
    filterMap_concat_of_none hpopped
  refine ⟨?_, ?_, ?_⟩
  · rw [hsame, hposted, hholds.length_accepted]
  · intro cursor hlow hhigh
    rw [htaken] at hlow
    rw [hposted] at hhigh
    rw [hsame, hslot cursor hlow hhigh, hholds.held cursor hlow hhigh]
  · rw [hsame, hpackets, htaken, hholds.popped_eq]

theorem length_popped (hordered : queue.ring.Ordered) :
    (poppedPackets steps).length = queue.ring.taken := by
  have hlength := congrArg List.length hholds.popped_eq
  rw [List.length_map, List.length_take, hholds.length_accepted] at hlength
  have htaken := hordered.taken_le
  have hreleased := hordered.released_le
  have hadmitted := hordered.admitted_le
  omega

theorem posted {packet : P} {ring : PacketRing P} (hordered : queue.ring.Ordered)
    (hpost : queue.ring.post packet = .ok ring) :
    Holds (steps ++ [⟨queue, .post packet⟩]) { queue with ring := ring } := by
  have htaken := hordered.taken_le
  have hreleased := hordered.released_le
  have hadmitted := hordered.admitted_le
  obtain ⟨hroom, hring⟩ := PacketRing.post_eq_ok_iff.mp hpost
  have hcursors : ring.taken = queue.ring.taken ∧ ring.posted = queue.ring.posted + 1 := by
    subst hring
    exact ⟨rfl, rfl⟩
  have haccepted : acceptedPackets (steps ++ [⟨queue, .post packet⟩]) =
      acceptedPackets steps ++ [packet] :=
    filterMap_concat_of_some (by simp [Step.accepted?, hroom])
  have hpopped : poppedPackets (steps ++ [⟨queue, .post packet⟩]) = poppedPackets steps :=
    filterMap_concat_of_none rfl
  refine ⟨?_, ?_, ?_⟩
  · rw [haccepted, List.length_append, hholds.length_accepted]
    exact hcursors.2.symm
  · intro cursor hlow hhigh
    change ring.taken ≤ cursor at hlow
    change cursor < ring.posted at hhigh
    change (ring.slot cursor).packet = _
    rw [hordered.slot_post hpost ⟨by omega, by omega⟩, haccepted]
    split
    next hlast =>
      rw [hlast, ← hholds.length_accepted, List.getElem?_concat_length]
      rfl
    next hbefore =>
      rw [List.getElem?_append_left (by rw [hholds.length_accepted]; omega)]
      exact hholds.held cursor (by omega) (by omega)
  · change _ = List.take ring.taken _
    rw [haccepted, hcursors.1,
      List.take_append_of_le_length (by rw [hholds.length_accepted]; omega), hpopped,
      hholds.popped_eq]

theorem popped {completed : CompletedPacket P} {ring : PacketRing P}
    (hstaged : queue.ring.Staged) (hpop : queue.ring.pop? = some (completed, ring)) :
    Holds (steps ++ [⟨queue, .pop⟩]) { queue with ring := ring } := by
  have htaken := hstaged.ordered.taken_le
  have hreleased := hstaged.ordered.released_le
  have hadmitted := hstaged.ordered.admitted_le
  obtain ⟨hne, _, hpacket, hring⟩ := PacketRing.pop?_eq_some_iff.mp hpop
  have hcursors : ring.taken = queue.ring.taken + 1 ∧ ring.posted = queue.ring.posted := by
    subst hring
    exact ⟨rfl, rfl⟩
  have haccepted : acceptedPackets (steps ++ [⟨queue, .pop⟩]) = acceptedPackets steps :=
    filterMap_concat_of_none rfl
  have hpopped : poppedPackets (steps ++ [⟨queue, .pop⟩]) = poppedPackets steps ++ [completed] :=
    filterMap_concat_of_some (congrArg (Option.map Prod.fst) hpop)
  refine ⟨?_, ?_, ?_⟩
  · rw [haccepted, hholds.length_accepted]
    exact hcursors.2.symm
  · intro cursor hlow hhigh
    change ring.taken ≤ cursor at hlow
    change cursor < ring.posted at hhigh
    change (ring.slot cursor).packet = _
    rw [hstaged.ordered.slot_pop hpop ⟨by omega, by omega⟩, haccepted]
    exact hholds.held cursor (by omega) (by omega)
  -- The packet popped is the first of those accepted that were not popped before.
  · have holdest : (acceptedPackets steps)[queue.ring.taken]? = some completed.packet := by
      rw [← hholds.held queue.ring.taken (Nat.le_refl _) (by omega), hpacket]
    change _ = List.take ring.taken _
    rw [haccepted, hcursors.1, List.take_add_one, holdest, hpopped, List.map_append,
      hholds.popped_eq]
    rfl

end Holds

variable [Packet P] [Device P H] [Adapter D] {start last : Queue P H D}

theorem Course.holds {config : Config} {steps : List (Step P H D)}
    (hcourse : Course start steps last) (hbuilt : Built config start) : Holds steps last := by
  refine hcourse.invariant Holds hbuilt.sound ?_ ?_
  · refine ⟨?_, ?_, ?_⟩
    · rw [hbuilt.ring_eq]
      rfl
    · intro cursor _ hhigh
      rw [hbuilt.ring_eq] at hhigh
      exact absurd hhigh (Nat.not_lt_zero cursor)
    · exact List.take_nil.symm
  · intro steps queue move next _ hstaged _ hmoved hholds
    cases hmoved with
    | posted packet ring hpost => exact hholds.posted hstaged.ordered hpost
    | rejected packet hfull =>
        exact hholds.kept (by simp [Step.accepted?, hfull]) rfl rfl rfl fun _ _ _ => rfl
    | popped completed ring hpop => exact hholds.popped hstaged hpop
    | nothingPopped hpop =>
        exact hholds.kept rfl (by simp [Step.popped?, hpop]) rfl rfl fun _ _ _ => rfl
    | cancelled =>
        obtain ⟨_, htaken, _, _, hposted⟩ :=
          queue.ring.cancelFrom_snd queue.ring.admitted queue.ring.unposted
        refine hholds.kept rfl rfl htaken hposted ?_
        intro cursor hlow hhigh
        change (queue.ring.cancelUnposted.2.slot cursor).packet = _
        rw [hstaged.ordered.slot_cancelUnposted ⟨hlow, hhigh⟩]
        split <;> rfl
    | admitted packet admission calls _ hready _ _ hattempted =>
        have hring := hattempted.ring_eq
        refine hholds.kept rfl rfl (by simp [hring]) (by simp [hring]) ?_
        intro cursor hlow hhigh
        rw [hring, hstaged.slot_concluded hready admission hlow hhigh]
        split <;> rfl
    | scanned packet outcome calls _ hready _ _ hscanned =>
        have hring := hscanned.ring_eq
        refine hholds.kept rfl rfl (by simp [hring]) (by simp [hring]) ?_
        intro cursor hlow hhigh
        rw [hring, hstaged.slot_scanned hready outcome hlow hhigh]
        split <;> rfl
    | quiet move device adapter statistics hquiet =>
        refine hholds.kept ?_ ?_ rfl rfl fun _ _ _ => rfl
        · cases move <;> first | rfl | cases hquiet
        · cases move <;> first | rfl | cases hquiet

omit [Packet P] [Device P H] [Adapter D] in
/-- The accepted packets in the order of posting: first those popped, then those held. -/
theorem Holds.accepted_eq {steps : List (Step P H D)} {queue : Queue P H D}
    (hholds : Holds steps queue) (hordered : queue.ring.Ordered) :
    (acceptedPackets steps).map some =
      (poppedPackets steps).map (fun completed => some completed.packet) ++
        queue.ring.liveCursors.map (fun cursor => (queue.ring.slot cursor).packet) := by
  have htaken := hordered.taken_le
  have hreleased := hordered.released_le
  have hadmitted := hordered.admitted_le
  have hlength := hholds.length_accepted
  have hpopped : (poppedPackets steps).map (fun completed => some completed.packet) =
      ((acceptedPackets steps).take queue.ring.taken).map some := by
    rw [← hholds.popped_eq, List.map_map]
    rfl
  have hheld : queue.ring.liveCursors.map (fun cursor => (queue.ring.slot cursor).packet) =
      ((acceptedPackets steps).drop queue.ring.taken).map some := by
    apply List.ext_getElem
    · simp only [PacketRing.liveCursors, List.length_map, List.length_range', List.length_drop,
        hlength]
    · intro index hindex _
      simp only [PacketRing.liveCursors, List.length_map, List.length_range'] at hindex
      simp only [PacketRing.liveCursors, List.getElem_map, List.getElem_range', Nat.one_mul,
        List.getElem_drop]
      rw [hholds.held _ (Nat.le_add_right _ _) (by omega)]
      exact List.getElem?_eq_getElem (by omega)
  rw [hpopped, hheld, ← List.map_append, List.take_append_drop]

/-- A packet that was released, taken back since or not. -/
def Released (queue : Queue P H D) (cursor : Nat) : Prop :=
  cursor < queue.ring.taken ∨ ∃ completion, queue.packetState? cursor = some (.released completion)

omit [Packet P] [Device P H] [Adapter D] in
/-- The released packets are those before the release cursor. -/
theorem released_iff {queue : Queue P H D} (hstaged : queue.ring.Staged) (cursor : Nat) :
    queue.Released cursor ↔ cursor < queue.ring.released := by
  have htaken := hstaged.ordered.taken_le
  have hreleased := hstaged.ordered.released_le
  have hadmitted := hstaged.ordered.admitted_le
  constructor
  · rintro (hpopped | ⟨completion, hstate⟩)
    · omega
    · unfold packetState? PacketRing.state? at hstate
      split at hstate
      next hlive =>
        have hlive := of_decide_eq_true hlive
        have hstate := Option.some.inj hstate
        rcases Nat.lt_or_ge cursor queue.ring.released with hbefore | hafter
        · exact hbefore
        · rcases Nat.lt_or_ge cursor queue.ring.admitted with hflight | hwaiting
          · have hkind := hstaged.inFlight cursor hafter hflight
            rw [hstate] at hkind
            cases hkind
          · have hkind := hstaged.waiting cursor hwaiting hlive.2
            rw [hstate] at hkind
            cases hkind
      next => cases hstate
  · intro hbefore
    rcases Nat.lt_or_ge cursor queue.ring.taken with hpopped | hheld
    · exact Or.inl hpopped
    · obtain ⟨completion, hstate⟩ := hstaged.released cursor hheld hbefore
      refine Or.inr ⟨completion, ?_⟩
      have hlive : queue.ring.isLive cursor = true := decide_eq_true ⟨hheld, by omega⟩
      simp only [packetState?, PacketRing.state?, hlive, if_true, hstate]

/-- A move releases at most one packet. -/
theorem Moved.released_le {queue next : Queue P H D} {move : Move P H D}
    (hmoved : Moved queue move next) : next.ring.released ≤ queue.ring.released + 1 := by
  cases hmoved with
  | posted packet ring hpost =>
      obtain ⟨_, rfl⟩ := PacketRing.post_eq_ok_iff.mp hpost
      exact Nat.le_succ _
  | rejected => exact Nat.le_succ _
  | popped completed ring hpop =>
      obtain ⟨_, _, _, rfl⟩ := PacketRing.pop?_eq_some_iff.mp hpop
      exact Nat.le_succ _
  | nothingPopped => exact Nat.le_succ _
  | cancelled =>
      exact Nat.le_trans
        (Nat.le_of_eq (queue.ring.cancelFrom_snd queue.ring.admitted _).2.2.1) (Nat.le_succ _)
  | admitted packet admission calls _ _ _ _ hattempted =>
      rw [hattempted.ring_eq, PacketRing.released_concluded]
      exact Nat.le_succ _
  | scanned packet outcome calls _ _ _ _ hscanned =>
      rw [hscanned.ring_eq]
      cases outcome with
      | none => exact Nat.le_succ _
      | some completion => exact Nat.le_refl _
  | quiet => exact Nat.le_succ _

/-- Where a packet is released after a step, all earlier ones were released before it. -/
theorem Course.released_before {steps : List (Step P H D)} (hcourse : Course start steps last)
    (hstart : start.Sound) {step : Step P H D} (hstep : step ∈ steps) {cursor : Nat}
    (hafter : step.after.Released cursor)
    {earlier : Nat} (hearlier : earlier < cursor) : step.before.Released earlier := by
  obtain ⟨_, _, _, hfirst, hready, _⟩ := hcourse.exists_of_mem hstep
  have hstaged := hfirst.staged hstart
  have hmoved : Moved step.before step.move step.after := (hfirst.sound hstart).moved hready
  have hle := hmoved.released_le
  rw [released_iff hstaged]
  rw [released_iff (hmoved.staged hstaged)] at hafter
  omega

/-- A packet is handed to the device in its turn: it is the one accepted at the cursor of
the attempt. -/
theorem Course.accepted_of_program {config : Config} {steps : List (Step P H D)}
    (hcourse : Course start steps last) (hbuilt : Built config start) {step : Step P H D}
    (hstep : step ∈ steps) {packet : P} {list : SgList}
    (hprogram : .program packet list ∈ step.calls) :
    (acceptedPackets steps)[step.before.ring.admitted]? = some packet := by
  obtain ⟨earlier, later, rfl, hfirst, hready, _⟩ := hcourse.exists_of_mem hstep
  have hstaged := hfirst.staged hbuilt.sound
  have hmoved := (hfirst.sound hbuilt.sound).moved hready
  have hholds := hfirst.holds hbuilt
  have htaken := hstaged.ordered.taken_le
  have hreleased := hstaged.ordered.released_le
  obtain ⟨_, hwaiting, hpacket, _⟩ := hmoved.admit_of_program hprogram
  rw [hholds.held step.before.ring.admitted (by omega) hwaiting] at hpacket
  rw [acceptedPackets_append, List.getElem?_append_left (by rw [hholds.length_accepted]; omega)]
  exact hpacket

/-- A post succeeds exactly where a slot is left. A rejected packet comes back, and the
queue stays as it was. -/
theorem perform_post {queue : Queue P H D} (hordered : queue.ring.Ordered) (packet : P) :
    ((queue.perform (.post packet)).value.1 = .posted none ↔
        queue.completed + queue.outstanding < queue.capacity) ∧
      (¬ queue.completed + queue.outstanding < queue.capacity →
        queue.perform (.post packet) = pure (.posted (some packet), queue)) := by
  have htaken := hordered.taken_le
  have hreleased := hordered.released_le
  have hadmitted := hordered.admitted_le
  have hfull : queue.ring.isFull = true ↔
      ¬ queue.completed + queue.outstanding < queue.capacity := by
    rw [PacketRing.isFull_iff]
    unfold completed outstanding capacity PacketRing.reclaimable PacketRing.outstanding
    omega
  simp only [perform, post, PacketRing.post]
  cases hroom : queue.ring.isFull with
  | true =>
      have hnone := hfull.mp hroom
      refine ⟨⟨fun hposted => ?_, fun hlt => absurd hlt hnone⟩, fun _ => rfl⟩
      cases hposted
  | false =>
      have hlt : queue.completed + queue.outstanding < queue.capacity :=
        Decidable.of_not_not fun hnone => Bool.false_ne_true (hroom.symm.trans (hfull.mpr hnone))
      exact ⟨⟨fun _ => hlt, fun _ => rfl⟩, fun hnone => absurd hlt hnone⟩

/-- In every run no packet is lost, doubled, changed or overtaken: the packets accepted
are those popped and then those held, at every step on the way a packet is released after
all earlier ones, and a post is turned down only where every slot is taken, without effect. -/
theorem packets_in_order {config : Config} {device : H} {adapter : D} {queue : Queue P H D}
    (hbuild : (build config device adapter).value = .ok queue)
    (operations : List (Operation P H D)) :
    (queue.transcript operations).accepted.map some =
        (queue.transcript operations).popped.map (fun completed => some completed.packet) ++
          (queue.after operations).ring.liveCursors.map
            (fun cursor => ((queue.after operations).ring.slot cursor).packet) ∧
      Course queue (queue.course operations) (queue.after operations) ∧
      (queue.run operations).events = (queue.course operations).flatMap Step.calls ∧
      (∀ step ∈ queue.course operations, ∀ cursor, step.after.Released cursor →
        ∀ earlier < cursor, step.before.Released earlier) ∧
      ∀ packet,
        (((queue.after operations).perform (.post packet)).value.1 = .posted none ↔
          (queue.after operations).completed + (queue.after operations).outstanding <
            (queue.after operations).capacity) ∧
        (¬ (queue.after operations).completed + (queue.after operations).outstanding <
            (queue.after operations).capacity →
          (queue.after operations).perform (.post packet) =
            pure (.posted (some packet), queue.after operations)) := by
  have hbuilt := built_of_build hbuild
  have hcourse := queue.course_run operations
  have hordered := (hcourse.staged hbuilt.sound).ordered
  refine ⟨?_, hcourse, queue.events_run operations, ?_, perform_post hordered⟩
  · rw [accepted_transcript, popped_transcript]
    exact (hcourse.holds hbuilt).accepted_eq hordered
  · intro step hstep cursor hafter earlier hearlier
    exact hcourse.released_before hbuilt.sound hstep hafter hearlier

theorem sample_packets_in_order :
    (build sampleConfig ({} : ScriptedDevice) ({} : ScriptedAdapter)).value =
        .ok (sampleQueue {}) ∧
      ((sampleQueue {}).transcript sampleRun).accepted.map some =
        ((sampleQueue {}).transcript sampleRun).popped.map
            (fun completed => some completed.packet) ++
          ((sampleQueue {}).after sampleRun).ring.liveCursors.map
            (fun cursor => (((sampleQueue {}).after sampleRun).ring.slot cursor).packet) := by
  have hbuild : (build sampleConfig ({} : ScriptedDevice) ({} : ScriptedAdapter)).value =
      .ok (sampleQueue {}) := rfl
  exact ⟨hbuild, (packets_in_order hbuild sampleRun).1⟩

end Queue

end TransmitQueue
