import TransmitQueue.Proofs.Accounts
import TransmitQueue.Proofs.Phases

/-!
# Summaries

What an advance reports is what it did: the packets that it programmed and released are those
that its counters grew by, and it says that it stalled exactly if it left packets waiting.
Together with the accounts of a run, the numbers that a caller reads are those of the packets.
-/

namespace TransmitQueue.Queue

variable {P H D : Type} [Packet P] [Device P H] [Adapter D]

section Phases

variable {queue next : Queue P H D} {calls : List (Event P)}

theorem Transmitted.statistics_eq {sent : Transmission P H D}
    (hsent : Transmitted queue sent calls) :
    sent.queue.statistics.programmed = queue.statistics.programmed + sent.programmed ∧
      sent.queue.statistics.completed = queue.statistics.completed := by
  induction hsent with
  | done => exact ⟨rfl, rfl⟩
  | stalled _ _ hattempted => cases hattempted <;> exact ⟨rfl, rfl⟩
  | failed _ _ hattempted _ ih => cases hattempted <;> exact ih
  | programmed _ _ hattempted _ ih =>
      refine ⟨ih.1.trans ?_, ih.2.trans (by cases hattempted <;> rfl)⟩
      cases hattempted <;> exact Nat.add_right_comm _ 1 _

omit [Packet P] in
/-- A look counts its packet as completed where it releases it, and none as programmed. -/
theorem Scanned.progress_eq {packet : P} {outcome : Option Completion}
    (hscanned : Scanned queue packet outcome calls next) :
    next.statistics.programmed = queue.statistics.programmed ∧
      next.statistics.completed = queue.statistics.completed + outcome.isSome.toNat := by
  have hprogrammed := hscanned.counted.programmed_eq
  rw [hscanned.programs_eq_nil] at hprogrammed
  exact ⟨hprogrammed, hscanned.counted.completed_eq⟩

omit [Packet P] in
theorem Drained.statistics_eq {count : Nat} (hdrained : Drained queue count calls next) :
    next.statistics.programmed = queue.statistics.programmed ∧
      next.statistics.completed = queue.statistics.completed + count := by
  induction hdrained with
  | done => exact ⟨rfl, rfl⟩
  | pending _ _ hscanned => exact hscanned.progress_eq
  | released _ _ hscanned _ ih =>
      obtain ⟨hprogrammed, hcompleted⟩ := hscanned.progress_eq
      refine ⟨ih.1.trans hprogrammed, ih.2.trans ?_⟩
      rw [hcompleted]
      exact Nat.add_right_comm _ 1 _

end Phases

/-- An advance reports what its counters grew by, and whether it left packets waiting. -/
theorem summary_advance {queue : Queue P H D} (hsound : queue.Sound) :
    queue.advance.value.2.statistics.programmed =
        queue.statistics.programmed + queue.advance.value.1.programmed ∧
      queue.advance.value.2.statistics.completed =
        queue.statistics.completed + queue.advance.value.1.completed ∧
      (queue.advance.value.1.stalled = true ↔ 0 < queue.advance.value.2.unposted) := by
  obtain ⟨sent, sending, completing, hadvanced⟩ := exists_advanced hsound
  obtain ⟨hsent, hkept⟩ := hadvanced.transmitted.statistics_eq
  obtain ⟨hsame, hreleased⟩ := hadvanced.drained.statistics_eq
  obtain ⟨_, _, hadmitted, hposted⟩ := hadvanced.drained.cursors_eq
  -- The doorbell changes neither the cursors nor these counters.
  have hrung : queue.flushed.statistics.programmed = sent.queue.statistics.programmed ∧
      queue.flushed.statistics.completed = sent.queue.statistics.completed ∧
      queue.flushed.ring = sent.queue.ring := by
    rw [hadvanced.flushed_eq]
    split <;> exact ⟨rfl, rfl, rfl⟩
  have hsummary := hadvanced.summary_eq
  refine ⟨?_, ?_, ?_⟩
  · rw [hsame, hrung.1, hsent, hsummary]
  · rw [hreleased, hrung.2.1, hkept]
  · rw [hsummary]
    refine (hadvanced.transmitted.stalled_iff hsound.staged).trans ?_
    simp only [unposted, PacketRing.unposted, hadmitted, hposted, hrung.2.2]

variable {config : Config} {device : H} {adapter : D} {queue : Queue P H D}

omit [Packet P] [Device P H] in
theorem statistics_build (hbuild : (build config device adapter).value = .ok queue) :
    queue.statistics = {} := by
  obtain ⟨pool, _, rfl⟩ := build_eq_ok hbuild
  rfl

/-- In every state that a run reaches, the counters account for all packets and calls of the
run, unless they were set back, and an advance from there reports what it adds to them. -/
theorem statistics_account (hbuild : (build config device adapter).value = .ok queue)
    (operations : List (Operation P H D)) :
    let last := queue.after operations
    (.resetStatistics ∉ operations →
      Accounts (queue.run operations).events (copies (queue.course operations)).length
        (last.census (queue.transcript operations).popped) last) ∧
      last.advance.value.2.statistics.programmed =
        last.statistics.programmed + last.advance.value.1.programmed ∧
      last.advance.value.2.statistics.completed =
        last.statistics.completed + last.advance.value.1.completed ∧
      (last.advance.value.1.stalled = true ↔ 0 < last.advance.value.2.unposted) := by
  have hbuilt := built_of_build hbuild
  have hcourse := queue.course_run operations
  refine ⟨fun hkept => ?_, summary_advance (hcourse.sound hbuilt.sound)⟩
  rw [events_run, popped_transcript]
  refine hcourse.accounts hbuilt (statistics_build hbuild) fun step hstep hmove => hkept ?_
  exact operation_mem_of_mem_course hstep (congrArg Move.operation? hmove)

theorem sample_statistics_account :
    (build sampleConfig (ScriptedDevice.hold {} 1) ({} : ScriptedAdapter)).value =
        .ok (sampleQueue (.hold {} 1)) ∧
      ((sampleQueue (.hold {} 1)).after sampleRun).statistics.bounceSuccess = 1 ∧
      Accounts ((sampleQueue (.hold {} 1)).run sampleRun).events
        (copies ((sampleQueue (.hold {} 1)).course sampleRun)).length [.completionPending]
        ((sampleQueue (.hold {} 1)).after sampleRun) := by
  have hbuild : (build sampleConfig (ScriptedDevice.hold {} 1) ({} : ScriptedAdapter)).value =
      .ok (sampleQueue (.hold {} 1)) := rfl
  refine ⟨hbuild, rfl, (statistics_account hbuild sampleRun).1 ?_⟩
  exact fun hreset => by simp [sampleRun] at hreset

end TransmitQueue.Queue
