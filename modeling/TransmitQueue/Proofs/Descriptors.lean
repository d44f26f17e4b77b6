import TransmitQueue.Proofs.Queue.Verdict
import TransmitQueue.Proofs.Staging

/-!
# What the device reads

Every list handed to the device, for a packet copied or mapped directly, describes the
packet's bytes and no others, within the limits that the device was configured with.
-/

namespace TransmitQueue

variable {P : Type} [Packet P]

/-- A list through which the device reads as many bytes as a packet has, within the
limits of a configuration. -/
structure SgList.Describes (list : SgList) (config : Config) (packet : P) : Prop where
  length_pos : 1 ≤ list.length
  length_le : list.length ≤ config.elementLimit
  nonempty : ∀ element ∈ list.elements, element.length ≠ 0
  totalLength_eq : list.totalLength = Packet.totalLength packet
  size_pos : 1 ≤ Packet.totalLength packet
  size_le : Packet.totalLength packet ≤ config.maximumPacketSize
  reached : ∀ highest, config.maxAddress? = some highest → ∀ element ∈ list.elements,
    ∀ byte < element.length, element.address.toNat + byte ≤ highest

/-- A stretch of memory whose bytes all lie at or below an address does not wrap. -/
theorem PhysAddr.add_le_of_offset_le {start : PhysAddr} {length highest : Nat}
    (hhighest : highest < addressSpace - 1)
    (hbytes : ∀ byte < length, (start.offset byte).toNat ≤ highest) {byte : Nat}
    (hbyte : byte < length) : start.toNat + byte ≤ highest := by
  have hfirst := hbytes 0 (by omega)
  rw [offset_zero] at hfirst
  refine Nat.le_of_not_lt fun habove => ?_
  -- The first byte above the highest address has not wrapped yet.
  have hnext := hbytes (highest + 1 - start.toNat) (by omega)
  rw [toNat_offset, Nat.add_sub_cancel' (by omega), Nat.mod_eq_of_lt (by omega)] at hnext
  omega

theorem PhysAddr.mem_span {start address : PhysAddr} {length : Nat} :
    address ∈ start.span length ↔ ∃ byte < length, start.offset byte = address := by
  simp only [span, List.mem_map, List.mem_range]

namespace Queue

variable {H D : Type} [Device P H] {queue : Queue P H D} {packet : P} {list : SgList}

/-- The list of a packet mapped where it lies. -/
theorem describes_of_cover (hdecision : queue.decision packet = .transmitInPlace)
    (hlength : list.length = BounceAnalysis.descriptors (Packet.fragments packet))
    (hcover : SgElement.Cover list.elements
      ((Packet.fragments packet).flatMap Fragment.addresses)) :
    list.Describes queue.config packet := by
  have hsize : 0 < Packet.totalLength packet ∧
      Packet.totalLength packet ≤ queue.config.maximumPacketSize :=
    size_of_decision (by rw [hdecision]; nofun)
  have htotal : list.totalLength = Packet.totalLength packet := by
    rw [← list.length_flatMap_addresses, hcover.flatMap_addresses,
      Packet.length_flatMap_addresses]
  refine ⟨?_, ?_, hcover.nonempty, htotal, hsize.1, hsize.2, ?_⟩
  · apply Nat.pos_of_ne_zero
    intro hnone
    have hempty : list.elements = [] := List.eq_nil_of_length_eq_zero hnone
    have hzero : list.totalLength = 0 := by
      unfold SgList.totalLength
      rw [hempty]
      rfl
    omega
  · rw [hlength]
    exact descriptors_of_decision hdecision
  · intro highest hhighest element helement byte hbyte
    have hlast := Config.maxAddress?_lt hhighest
    refine PhysAddr.add_le_of_offset_le hlast ?_ hbyte
    intro other hother
    -- What the device reads through the list is a byte of some fragment.
    have hread : element.address.offset other ∈ list.elements.flatMap SgElement.addresses :=
      List.mem_flatMap.mpr ⟨element, helement, PhysAddr.mem_span.mpr ⟨other, hother, rfl⟩⟩
    rw [hcover.flatMap_addresses] at hread
    obtain ⟨fragment, hfragment, haddress⟩ := List.mem_flatMap.mp hread
    obtain ⟨index, hindex, heq⟩ := PhysAddr.mem_span.mp haddress
    have hreach := reach_of_decision hdecision hhighest hfragment
    rw [← heq, PhysAddr.toNat_offset, Nat.mod_eq_of_lt (by omega)]
    omega

/-- The list of a packet copied into a bounce buffer. -/
theorem describes_of_singleton {start : Queue P H D} {config : Config}
    (hbuilt : Built config start) (hlaid : LaidOut start queue)
    (hdecision : queue.decision packet ≠ .cannotTransmit) {index : Nat}
    (hindex : index < queue.pool.count)
    (hlist : list.elements = [⟨queue.pool.bufferAddress index, Packet.totalLength packet⟩]) :
    list.Describes config packet := by
  have hconfig : queue.config = config := hlaid.config_eq.trans hbuilt.config_eq
  have hsize := size_of_decision hdecision
  rw [hconfig] at hsize
  refine ⟨?_, ?_, ?_, ?_, hsize.1, hsize.2, ?_⟩
  · unfold SgList.length
    rw [hlist]
    exact Nat.le_refl 1
  · unfold SgList.length
    rw [hlist]
    exact config.elementLimit_pos
  · rw [hlist]
    intro element helement
    obtain rfl := List.mem_singleton.mp helement
    exact Nat.pos_iff_ne_zero.mp hsize.1
  · unfold SgList.totalLength
    rw [hlist]
    exact Nat.add_zero _
  · rw [hlist]
    intro highest hhighest element helement byte hbyte
    obtain rfl := List.mem_singleton.mp helement
    dsimp only at hbyte ⊢
    rw [hlaid.pool_alike.bufferAddress_eq]
    rw [hlaid.pool_alike.count_eq] at hindex
    have hfits := hbuilt.maximumPacketSize_le
    exact hbuilt.buffer_reached hhighest hindex (by omega)

variable [Adapter D]

/-- In every run each list handed to the device for a packet that was copied, or mapped
directly, describes the packet within the limits. Mapped in place it reads the bytes of
the fragments where they lie, in their order; copied it is one bounce buffer that holds
the payload. -/
theorem programmed_lists {config : Config} {device : H} {adapter : D} {queue : Queue P H D}
    (hbuild : (build config device adapter).value = .ok queue)
    (operations : List (Operation P H D)) :
    (queue.run operations).events = (queue.course operations).flatMap Step.calls ∧
      ∀ step ∈ queue.course operations, ∀ packet list, .program packet list ∈ step.calls →
        (step.before.decision packet = .transmitInPlace → queue.backend = .direct →
          list.Describes config packet ∧
            list.elements.flatMap SgElement.addresses =
              (Packet.fragments packet).flatMap Fragment.addresses) ∧
        (step.before.decision packet = .transmitAfterBouncing →
          list.Describes config packet ∧ ∃ index < step.after.pool.count,
            list.elements =
              [⟨step.after.pool.bufferAddress index, Packet.totalLength packet⟩] ∧
            (step.after.pool.buffer? index).map (List.take (Packet.totalLength packet)) =
              some (Packet.payload packet)) ∧
        step.before.decision packet ≠ .cannotTransmit := by
  have hbuilt := built_of_build hbuild
  refine ⟨queue.events_run operations, ?_⟩
  intro step hstep packet list hprogram
  obtain ⟨earlier, _, _, hfirst, hready, _⟩ :=
    (queue.course_run operations).exists_of_mem hstep
  have hlaid := hfirst.laidOut hbuilt
  have hmoved := (hfirst.sound hbuilt.sound).moved hready
  obtain ⟨_, _, _, hattempted⟩ := hmoved.admit_of_program hprogram
  have hcalls : (packet, list) ∈ programs step.calls := mem_programs.mpr hprogram
  obtain ⟨sent, hsent, hway⟩ := hattempted.of_programmed
  have hsent : programs step.calls = [(packet, sent)] := hsent
  rw [hsent, List.mem_singleton] at hcalls
  cases hcalls
  rcases hway with ⟨hdecision, hbounce⟩ | ⟨hdecision, hanswer, _⟩
  · have hallowed : step.before.decision packet ≠ .cannotTransmit := by
      rw [hdecision]
      nofun
    have halike := (hlaid.moved hmoved).pool_alike
    obtain ⟨_, hlist, _, _, hcontent, _⟩ := bounce_eq_ok hbuilt hlaid hallowed hbounce
    have hindex : step.before.pool.nextBuffer < step.before.pool.count :=
      Nat.mod_lt _ (hlaid.pool_alike.stocked hbuilt.stocked).count_pos
    have hdescribes := describes_of_singleton hbuilt hlaid hallowed hindex hlist
    refine ⟨fun hother => ?_, fun _ => ⟨hdescribes, step.before.pool.nextBuffer, ?_, ?_, hcontent⟩,
      hallowed⟩
    · rw [hdecision] at hother
      cases hother
    · rw [hlaid.pool_alike.count_eq] at hindex
      exact halike.count_eq ▸ hindex
    · rw [hlist, hlaid.pool_alike.bufferAddress_eq, ← halike.bufferAddress_eq]
      rfl
  · refine ⟨fun _ hdirect => ?_, fun hother => ?_, by rw [hdecision]; nofun⟩
    · obtain ⟨mapped, hmapped, hlength, hcover⟩ := mapping_of_direct hlaid hdirect hdecision
      rw [hanswer] at hmapped
      obtain rfl := Except.ok.inj hmapped
      have hdescribes := describes_of_cover hdecision hlength hcover
      rw [hlaid.config_eq, hbuilt.config_eq] at hdescribes
      exact ⟨hdescribes, hcover.flatMap_addresses⟩
    · rw [hdecision] at hother
      cases hother

theorem sample_programmed_list :
    (build sampleConfig ({} : ScriptedDevice) ({} : ScriptedAdapter)).value =
        .ok (sampleQueue {}) ∧
      ∃ step ∈ (sampleQueue {}).course sampleRun,
        .program samplePacket (.singleton ⟨⟨0x80000000⟩, 4⟩) ∈ step.calls ∧
          SgList.Describes (.singleton ⟨⟨0x80000000⟩, 4⟩) sampleConfig samplePacket := by
  have hbuild : (build sampleConfig ({} : ScriptedDevice) ({} : ScriptedAdapter)).value =
      .ok (sampleQueue {}) := rfl
  have hstep : ⟨(sampleQueue {}).after [.post samplePacket], .attempt⟩ ∈
      (sampleQueue {}).course sampleRun := .tail _ (.head _)
  have hprograms : programs (Step.calls ⟨(sampleQueue {}).after [.post samplePacket], .attempt⟩) =
      [(samplePacket, .singleton ⟨⟨0x80000000⟩, 4⟩)] := rfl
  have hprogram := mem_programs.mp (hprograms ▸ List.mem_singleton_self _)
  obtain ⟨_, hbounced, _⟩ := (programmed_lists hbuild sampleRun).2 _ hstep _ _ hprogram
  exact ⟨hbuild, _, hstep, hprogram, (hbounced rfl).1⟩

end Queue

end TransmitQueue
