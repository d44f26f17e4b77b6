import TransmitQueue.Proofs.Alignment
import TransmitQueue.Proofs.Descriptors

/-!
# Where descriptors begin

A descriptor of a span begins where the span begins, or with a page inside it. So the
alignment that a device asks of buffer starts holds for every descriptor of a copy, and for
those of a packet mapped directly as long as no alignment is coarser than a page. A coarser
one holds for the fragments' starts, but not where a page boundary cuts a fragment.
-/

namespace TransmitQueue

namespace SgElement

/-- An address at which a span may be cut: its own start, or the start of a page inside. -/
inductive Cut (start : PhysAddr) (length : Nat) : PhysAddr → Prop where
  | start : Cut start length start
  | page (byte : Nat) (hpos : 0 < byte) (hinside : byte < length)
      (hpage : Page.within (start.offset byte) = 0) : Cut start length (start.offset byte)

/-- The cuts of what is left of a span behind its first page are cuts of the span. -/
theorem Cut.of_rest {start address : PhysAddr} {length : Nat}
    (hacross : Page.remaining start < length)
    (hcut : Cut (start.offset (Page.remaining start)) (length - Page.remaining start) address) :
    Cut start length address := by
  have hpos := Page.remaining_pos start
  cases hcut with
  | start => exact .page _ hpos hacross (Page.within_offset_remaining start)
  | page byte hbyte hinside hpage =>
      rw [PhysAddr.offset_offset] at hpage ⊢
      exact .page _ (by omega) (by omega) hpage

theorem cut_of_mem_pieces {room : Nat} {start : PhysAddr} {length : Nat} {element : SgElement}
    (helement : element ∈ (pieces room start length).1) : Cut start length element.address := by
  induction room generalizing start length with
  | zero => cases helement
  | succ room ih =>
      unfold pieces at helement
      by_cases hlength : length = 0
      · rw [if_pos hlength] at helement
        cases helement
      · rw [if_neg hlength] at helement
        rcases List.mem_cons.mp helement with rfl | hrest
        · exact .start
        · -- A span that ends in its first page leaves no further piece.
          by_cases hacross : Page.remaining start < length
          · rw [Nat.min_eq_right (Nat.le_of_lt hacross)] at hrest
            exact (ih hrest).of_rest hacross
          · rw [Nat.min_eq_left (Nat.le_of_not_lt hacross), Nat.sub_self] at hrest
            cases room <;> cases hrest

end SgElement

namespace SgList

theorem cut_of_mem_pushFragments {list : SgList} {fragments : List Fragment}
    {element : SgElement} (helement : element ∈ (list.pushFragments fragments).2.elements) :
    element ∈ list.elements ∨ ∃ fragment ∈ fragments,
      SgElement.Cut fragment.physStart fragment.length element.address := by
  induction fragments generalizing list with
  | nil => exact Or.inl helement
  | cons fragment rest ih =>
      have hpushed : ∀ pushed ∈ (list.pushSpan fragment.physStart fragment.length).2.elements,
          pushed ∈ list.elements ∨
            SgElement.Cut fragment.physStart fragment.length pushed.address :=
        fun pushed hmem => (List.mem_append.mp hmem).imp_right SgElement.cut_of_mem_pieces
      have hfirst : element ∈ (list.pushSpan fragment.physStart fragment.length).2.elements →
          element ∈ list.elements ∨ ∃ other ∈ fragment :: rest,
            SgElement.Cut other.physStart other.length element.address :=
        fun hmem => (hpushed element hmem).imp_right fun hcut => ⟨fragment, .head _, hcut⟩
      unfold pushFragments at helement
      split at helement
      next longer hpush =>
        rw [hpush] at hfirst
        rcases ih helement with hbefore | ⟨other, hother, hcut⟩
        · exact hfirst hbefore
        · exact Or.inr ⟨other, .tail _ hother, hcut⟩
      next error full hpush =>
        rw [hpush] at hfirst
        exact hfirst helement

end SgList

/-- A direct mapping cuts the fragments of its packet, and nothing else. -/
theorem Mapper.cut_of_mapDirect {P : Type} [Packet P] {scratch list : SgList} {packet : P}
    (hmapped : (mapDirect scratch packet).1 = .ok list) {element : SgElement}
    (helement : element ∈ list.elements) : ∃ fragment ∈ Packet.fragments packet,
      SgElement.Cut fragment.physStart fragment.length element.address := by
  rw [mapDirect_answer] at hmapped
  cases hpushed : (scratch.clear.pushFragments (Packet.fragments packet)).1 with
  | error error =>
      rw [hpushed] at hmapped
      cases hmapped
  | ok =>
      rw [hpushed] at hmapped
      obtain rfl := Except.ok.inj hmapped
      exact (SgList.cut_of_mem_pushFragments helement).resolve_left List.not_mem_nil

/-- Memory that passed the check starts as the device asks. -/
theorem BouncePool.isAligned_of_checkMemory {config : Config} {total : Nat}
    {memory : CommonBuffer} (hcheck : checkMemory config total memory = .ok ()) :
    config.alignment.isAligned memory.address = true := by
  unfold checkMemory at hcheck
  grind

theorem Config.Valid.alignment_isValid {config : Config} (hvalid : config.Valid) :
    config.alignment.isValid = true := (config.valid_iff.mp hvalid).2.1

/-- A result that is there is a success. -/
theorem eq_ok_of_isSome {ε α : Type} {result : Except ε α}
    (hsome : result.toOption.isSome = true) : result = .ok (result.toOption.get hsome) := by
  cases result with
  | error => cases hsome
  | ok => rfl

namespace Queue

variable {P H D : Type} {config : Config} {start queue : Queue P H D}

/-- Every bounce buffer starts as the device asks, since the first one does and their size
is a multiple of the alignment. -/
theorem Built.isAligned_bufferAddress (hbuilt : Built config queue) (index : Nat) :
    config.alignment.isAligned (queue.pool.bufferAddress index) = true := by
  have hvalid := hbuilt.valid.alignment_isValid
  have hsize := Alignment.dvd_of_roundUp_eq_some hvalid hbuilt.bufferSize_eq
  exact Alignment.isAligned_offset hvalid
    (BouncePool.isAligned_of_checkMemory hbuilt.memory_checked)
    (Nat.dvd_mul_left_of_dvd hsize index)

variable [Packet P] [Device P H] [Adapter D] {packet : P} {list : SgList}

omit [Device P H] in
theorem cut_of_mapping (hdirect : queue.backend = .direct)
    (hmapping : (queue.mapping packet).value.answer = .ok list) {element : SgElement}
    (helement : element ∈ list.elements) : ∃ fragment ∈ Packet.fragments packet,
      SgElement.Cut fragment.physStart fragment.length element.address := by
  unfold backend at hdirect
  unfold mapping at hmapping
  cases hmapper : queue.mapper with
  | delegated contexts =>
      rw [hmapper] at hdirect
      cases hdirect
  | direct scratch =>
      rw [hmapper] at hmapping
      exact Mapper.cut_of_mapDirect hmapping helement

/-- In every run each descriptor of a copied packet is aligned. A descriptor of a packet
mapped directly begins with a fragment, which is aligned, or with a page inside one; so it
is aligned wherever the alignment is at most a page. -/
theorem descriptor_starts {device : H} {adapter : D}
    (hbuild : (build config device adapter).value = .ok queue)
    (operations : List (Operation P H D)) :
    (queue.run operations).events = (queue.course operations).flatMap Step.calls ∧
      ∀ step ∈ queue.course operations, ∀ packet list, .program packet list ∈ step.calls →
        (step.before.decision packet = .transmitAfterBouncing → ∀ element ∈ list.elements,
          config.alignment.isAligned element.address = true) ∧
        (step.before.decision packet = .transmitInPlace → queue.backend = .direct →
          (∀ element ∈ list.elements, ∃ fragment ∈ Packet.fragments packet,
            config.alignment.isAligned fragment.physStart = true ∧
              SgElement.Cut fragment.physStart fragment.length element.address) ∧
          (config.alignment.bytes ≤ Page.size → ∀ element ∈ list.elements,
            config.alignment.isAligned element.address = true)) := by
  have hbuilt := built_of_build hbuild
  have hvalid := hbuilt.valid.alignment_isValid
  refine ⟨queue.events_run operations, ?_⟩
  intro step hstep packet list hprogram
  obtain ⟨earlier, _, _, hfirst, hready, _⟩ :=
    (queue.course_run operations).exists_of_mem hstep
  have hlaid := hfirst.laidOut hbuilt
  have hmoved := (hfirst.sound hbuilt.sound).moved hready
  obtain ⟨_, _, _, hattempted⟩ := hmoved.admit_of_program hprogram
  have hcalls : (packet, list) ∈ programs step.calls := mem_programs.mpr hprogram
  obtain ⟨sent, hsent, hway⟩ := hattempted.of_programmed
  have hsent : programs step.calls = [(packet, sent)] := hsent
  rw [hsent, List.mem_singleton] at hcalls
  cases hcalls
  rcases hway with ⟨hdecision, hbounce⟩ | ⟨hdecision, hanswer, _⟩
  · rw [hdecision]
    refine ⟨fun _ element helement => ?_, nofun⟩
    obtain ⟨_, hlist, _⟩ :=
      bounce_eq_ok hbuilt hlaid (by rw [hdecision]; nofun) hbounce
    rw [hlist, List.mem_singleton] at helement
    subst helement
    rw [hlaid.pool_alike.bufferAddress_eq]
    exact hbuilt.isAligned_bufferAddress _
  · rw [hdecision]
    refine ⟨nofun, fun _ hdirect => ?_⟩
    have hconfig : step.before.config = config := hlaid.config_eq.trans hbuilt.config_eq
    have hcut : ∀ element ∈ list.elements, ∃ fragment ∈ Packet.fragments packet,
        config.alignment.isAligned fragment.physStart = true ∧
          SgElement.Cut fragment.physStart fragment.length element.address := by
      intro element helement
      obtain ⟨fragment, hfragment, hcut⟩ :=
        cut_of_mapping (hlaid.backend_eq.trans hdirect) hanswer helement
      have haligned := (fragment_of_decision hdecision hfragment).1
      rw [hconfig] at haligned
      exact ⟨fragment, hfragment, haligned, hcut⟩
    refine ⟨hcut, fun hpage element helement => ?_⟩
    obtain ⟨fragment, _, haligned, hcut⟩ := hcut element helement
    generalize element.address = address at hcut
    cases hcut with
    | start => exact haligned
    | page byte _ _ hstart => exact Alignment.isAligned_of_within_eq_zero hvalid hpage hstart

section Sample

/-- A device that asks for an alignment of two pages. -/
def coarseConfig : Config :=
  { maximumPacketSize := 8192, alignment := .mask 8191, allowBypass := true,
    bounceBufferCount := 1, ringCapacity := 2 }

/-- A packet that starts aligned and runs on into the next page. -/
def coarsePacket : ScriptedPacket where
  id := 1
  layout := [ScriptedPacket.fragment? ⟨0x10000⟩ 5000 0 5000]

theorem coarse_isSome : (build coarseConfig ({} : ScriptedDevice)
    ({ bypass := true } : ScriptedAdapter) : Traced ScriptedPacket _).value.toOption.isSome =
      true := by decide +kernel

def coarseQueue : Queue ScriptedPacket ScriptedDevice ScriptedAdapter :=
  (build coarseConfig ({} : ScriptedDevice) ({ bypass := true } : ScriptedAdapter) :
    Traced ScriptedPacket _).value.toOption.get coarse_isSome

theorem build_coarseQueue : (build coarseConfig ({} : ScriptedDevice)
    ({ bypass := true } : ScriptedAdapter) : Traced ScriptedPacket _).value = .ok coarseQueue :=
  eq_ok_of_isSome coarse_isSome

/-- The attempt to admit that packet. -/
def coarseStep : Step ScriptedPacket ScriptedDevice ScriptedAdapter where
  before := coarseQueue.after [.post coarsePacket]
  move := .attempt

theorem coarseStep_mem : coarseStep ∈
    coarseQueue.course [.post coarsePacket, .advance] := by
  have hwaiting : 0 < (coarseQueue.after [.post coarsePacket]).unposted := by decide +kernel
  have hsplit := coarseQueue.course_append [.post coarsePacket] [.advance]
  rw [List.singleton_append] at hsplit
  rw [hsplit]
  exact List.mem_append_right _
    (List.mem_append_left _ ((coarseQueue.after _).attempt_mem_advanceSteps hwaiting))

/-- The packet goes in place, and its second descriptor begins in the middle of the
alignment. -/
theorem exists_coarse_program : ∃ packet list,
    .program packet list ∈ coarseStep.calls ∧
      coarseStep.before.decision packet = .transmitInPlace ∧
      ∃ element ∈ list.elements, coarseConfig.alignment.isAligned element.address = false := by
  have hfound : (programs coarseStep.calls).any (fun (packet, list) =>
      decide (coarseStep.before.decision packet = .transmitInPlace) &&
        list.elements.any fun element =>
          !coarseConfig.alignment.isAligned element.address) = true := by decide +kernel
  obtain ⟨⟨packet, list⟩, hprogram, hpacket⟩ := List.any_eq_true.mp hfound
  rw [Bool.and_eq_true, decide_eq_true_iff] at hpacket
  obtain ⟨element, helement, hmisaligned⟩ := List.any_eq_true.mp hpacket.2
  exact ⟨packet, list, mem_programs.mp hprogram, hpacket.1, element, helement,
    Bool.not_eq_true' _ ▸ hmisaligned⟩

/-- The descriptors of a packet mapped directly are not all aligned where the alignment is
coarser than a page. -/
theorem coarse_descriptor_misaligned :
    (build coarseConfig ({} : ScriptedDevice) ({ bypass := true } : ScriptedAdapter)).value =
        .ok coarseQueue ∧ coarseQueue.backend = .direct ∧
      ¬ ∀ step ∈ coarseQueue.course [.post coarsePacket, .advance], ∀ packet list,
        .program packet list ∈ step.calls → step.before.decision packet = .transmitInPlace →
          ∀ element ∈ list.elements,
            coarseConfig.alignment.isAligned element.address = true := by
  refine ⟨build_coarseQueue, by decide +kernel, fun hall => ?_⟩
  obtain ⟨packet, list, hprogram, hdecision, element, helement, hmisaligned⟩ :=
    exists_coarse_program
  have haligned := hall _ coarseStep_mem packet list hprogram hdecision element helement
  rw [hmisaligned] at haligned
  cases haligned

theorem coarse_descriptor_starts :
    (build coarseConfig ({} : ScriptedDevice) ({ bypass := true } : ScriptedAdapter)).value =
        .ok coarseQueue ∧
      ∃ step ∈ coarseQueue.course [.post coarsePacket, .advance], ∃ packet list,
        .program packet list ∈ step.calls ∧ ∀ element ∈ list.elements,
          ∃ fragment ∈ Packet.fragments packet,
            coarseConfig.alignment.isAligned fragment.physStart = true ∧
              SgElement.Cut fragment.physStart fragment.length element.address := by
  obtain ⟨packet, list, hprogram, hdecision, _⟩ := exists_coarse_program
  have hstarts := (descriptor_starts build_coarseQueue [.post coarsePacket, .advance]).2
    _ coarseStep_mem packet list hprogram
  exact ⟨build_coarseQueue, _, coarseStep_mem, packet, list, hprogram,
    (hstarts.2 hdecision (by decide +kernel)).1⟩

end Sample

end Queue

end TransmitQueue
