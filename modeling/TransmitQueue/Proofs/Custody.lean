import Mathlib.Data.List.Induction
import Mathlib.Logic.Function.Basic
import TransmitQueue.Proofs.Run
import TransmitQueue.SharedSlot

/-!
# Custody of shared queues

Several parties share a slot and hold any number of queues, which they install, use and take
away in any order. Every queue is in one place, the slot or somebody's hands, and it fares as it
would without the slot: its own calls are a run of the queue by itself.
-/

namespace TransmitQueue

/-- A call on a shared slot. The queues of the parties go by names. -/
inductive SharedCall (ι P H D : Type) where
  /-- Puts in a queue that the caller holds. -/
  | install (name : ι)
  | take
  /-- Takes steps on the queue in the slot, which may depend on how the queue is found. -/
  | access (steps : Queue P H D → List (Operation P H D))
  | tryAccess (steps : Queue P H D → List (Operation P H D))
  | advance

/-- What the caller is told. -/
inductive SharedAnswer (P H D : Type) where
  | handedBack (queue : Option (Queue P H D))
  | accessed (outcome : Except IoError (Transcript P H D))
  | tried (outcome : Option (Transcript P H D))
  | advanced (outcome : Except IoError AdvanceSummary)

/-- A call that was made, with its answer and the calls on the collaborators. -/
structure SharedEntry (ι P H D : Type) where
  call : SharedCall ι P H D
  /-- The queue that was in the slot. -/
  occupant? : Option ι
  answer : SharedAnswer P H D
  events : List (Event P)

/-- Where the queues are. -/
structure Custody (ι P H D : Type) where
  slot : SharedSlot (Queue P H D)
  /-- The name of the queue in the slot. -/
  occupant? : Option ι
  /-- The queues that the parties hold. -/
  hands : ι → Option (Queue P H D)

variable {ι P H D : Type}

/-- The slot with a queue in it, or without. -/
def SharedSlot.ofOption {α : Type} : Option α → SharedSlot α
  | none => .vacant
  | some content => .installed content

/-- The steps that a call takes on the queue that it finds. -/
def SharedCall.steps (queue : Queue P H D) : SharedCall ι P H D → List (Operation P H D)
  | install _ | take => []
  | access steps | tryAccess steps => steps queue
  | advance => [.advance]

/-- What was done on the queue, as the answer tells it. -/
def SharedAnswer.transcript : SharedAnswer P H D → Transcript P H D
  | accessed (.ok transcript) | tried (some transcript) => transcript
  | advanced (.ok summary) => [(.advance, .advanced summary)]
  | handedBack _ | accessed (.error _) | tried none | advanced (.error _) => []

def SharedEntry.handsBack (entry : SharedEntry ι P H D) : Bool :=
  match entry.answer with
  | .handedBack (some _) => true
  | .handedBack none | .accessed _ | .tried _ | .advanced _ => false

/-- Whether a call moves queues into the slot or out of it. -/
def SharedCall.moves : SharedCall ι P H D → Bool
  | install _ | take => true
  | access _ | tryAccess _ | advance => false

section Calls

variable [Packet P] [Device P H] [Adapter D]

/-- What a call makes of a queue by itself, or of no queue. -/
def SharedCall.respond : SharedCall ι P H D → Option (Queue P H D) → Traced P (SharedAnswer P H D)
  | install _, found | take, found => pure (.handedBack found)
  | access steps, some queue => do
      let (transcript, _) ← queue.run (steps queue)
      pure (.accessed (.ok transcript))
  | access _, none => pure (.accessed (.error .invalidState))
  | tryAccess steps, some queue => do
      let (transcript, _) ← queue.run (steps queue)
      pure (.tried (some transcript))
  | tryAccess _, none => pure (.tried none)
  | advance, some queue => do
      let (summary, _) ← queue.advance
      pure (.advanced (.ok summary))
  | advance, none => pure (.advanced (.error .invalidState))

variable [DecidableEq ι]

namespace Custody

/-- All queues in somebody's hands. -/
def start (queues : ι → Queue P H D) : Custody ι P H D :=
  ⟨.vacant, none, fun name => some (queues name)⟩

/-- The hands after a queue came out of the slot, under the name it was installed by. -/
def receive (occupant? : Option ι) (hands : ι → Option (Queue P H D)) :
    Option (Queue P H D) → ι → Option (Queue P H D)
  | none => hands
  | some queue =>
      match occupant? with
      | none => hands
      | some name => Function.update hands name (some queue)

/-- Makes one call. Nobody can install a queue that nobody holds. -/
def perform (custody : Custody ι P H D) :
    SharedCall ι P H D → Option (Traced P (SharedAnswer P H D × Custody ι P H D))
  | .install name =>
      (custody.hands name).map fun newcomer =>
        let (back, slot) := custody.slot.install newcomer
        let rest := Function.update custody.hands name none
        pure (.handedBack back, ⟨slot, some name, receive custody.occupant? rest back⟩)
  | .take =>
      let (back, slot) := custody.slot.take
      some (pure (.handedBack back,
        ⟨slot, none, receive custody.occupant? custody.hands back⟩))
  | .access steps => some do
      let (answer, slot) ← custody.slot.access fun _ queue => queue.run (steps queue)
      pure (.accessed answer, { custody with slot })
  | .tryAccess steps => some do
      let (answer, slot) ← custody.slot.tryAccess fun _ queue => queue.run (steps queue)
      pure (.tried answer, { custody with slot })
  | .advance => some do
      let (answer, slot) ← custody.slot.advance
      pure (.advanced answer, { custody with slot })

/-- Makes calls one after another, and records those that could be made. -/
def run (custody : Custody ι P H D) :
    List (SharedCall ι P H D) → List (SharedEntry ι P H D) × Custody ι P H D
  | [] => ([], custody)
  | call :: rest =>
      match custody.perform call with
      | none => custody.run rest
      | some ⟨(answer, next), events⟩ =>
          let (entries, last) := next.run rest
          (⟨call, custody.occupant?, answer, events⟩ :: entries, last)

end Custody

/-- The steps issued to a queue while it was in the slot. -/
def issued (name : ι) : List (SharedEntry ι P H D) → Queue P H D → List (Operation P H D)
  | [], _ => []
  | entry :: rest, queue =>
      let steps := if entry.occupant? = some name then entry.call.steps queue else []
      steps ++ issued name rest (queue.after steps)

/-- What the callers were told about the steps on a queue. -/
def answered (name : ι) (entries : List (SharedEntry ι P H D)) : Transcript P H D :=
  entries.flatMap fun entry =>
    if entry.occupant? = some name then entry.answer.transcript else []

/-- The calls on the collaborators while a queue was in the slot. -/
def called (name : ι) (entries : List (SharedEntry ι P H D)) : List (Event P) :=
  entries.flatMap fun entry => if entry.occupant? = some name then entry.events else []

/-- How often a queue was handed back. -/
def handBacks (name : ι) (entries : List (SharedEntry ι P H D)) : Nat :=
  entries.countP fun entry => decide (entry.occupant? = some name) && entry.handsBack

section Issued

variable (queues : ι → Queue P H D) (name : ι) (queue : Queue P H D)

theorem issued_append (first second : List (SharedEntry ι P H D)) :
    issued name (first ++ second) queue =
      issued name first queue ++ issued name second (queue.after (issued name first queue)) := by
  induction first generalizing queue with
  | nil => rfl
  | cons entry rest ih =>
      rw [List.cons_append, issued, issued, ih, List.append_assoc, Queue.after_append]

/-- A queue by itself, after the steps issued to it. -/
def alone (entries : List (SharedEntry ι P H D)) : Queue P H D :=
  (queues name).after (issued name entries (queues name))

variable {queues name}

theorem alone_concat_self {entries : List (SharedEntry ι P H D)} {entry : SharedEntry ι P H D}
    (hoccupant : entry.occupant? = some name) :
    alone queues name (entries ++ [entry]) =
      (alone queues name entries).after (entry.call.steps (alone queues name entries)) := by
  unfold alone
  rw [issued_append, Queue.after_append, issued, if_pos hoccupant, issued, List.append_nil]

theorem alone_concat_of_ne {entries : List (SharedEntry ι P H D)} {entry : SharedEntry ι P H D}
    (hother : entry.occupant? ≠ some name) :
    alone queues name (entries ++ [entry]) = alone queues name entries := by
  unfold alone
  rw [issued_append, issued, if_neg hother, issued, List.append_nil, List.append_nil]

/-- A call that takes no steps leaves every queue as it is. -/
theorem alone_concat_of_moves {entries : List (SharedEntry ι P H D)}
    {entry : SharedEntry ι P H D} (hmoves : entry.call.moves = true) :
    alone queues name (entries ++ [entry]) = alone queues name entries := by
  by_cases hoccupant : entry.occupant? = some name
  · rw [alone_concat_self hoccupant]
    cases hcall : entry.call with
    | install | take => rfl
    | access | tryAccess | advance =>
        rw [hcall] at hmoves
        cases hmoves
  · exact alone_concat_of_ne hoccupant

end Issued

omit [DecidableEq ι] in
/-- Only a call that moves queues hands one back, and it does where it finds one. -/
theorem handsBack_of_respond {entry : SharedEntry ι P H D} {found : Option (Queue P H D)}
    (hrespond : entry.call.respond found = ⟨entry.answer, entry.events⟩) :
    entry.handsBack = (entry.call.moves && found.isSome) := by
  obtain ⟨call, occupant?, answer, events⟩ := entry
  have hanswer : (call.respond found).value = answer := congrArg Traced.value hrespond
  subst hanswer
  cases call <;> cases found <;> rfl

section Respond

omit [DecidableEq ι]

variable (call : SharedCall ι P H D) (queue : Queue P H D)

theorem transcript_respond : (call.respond (some queue)).value.transcript =
    queue.transcript (call.steps queue) := by
  cases call <;> rfl

theorem events_respond :
    (call.respond (some queue)).events = (queue.run (call.steps queue)).events := by
  cases call with
  | install | take => rfl
  | access | tryAccess => exact List.append_nil _
  | advance =>
      rw [SharedCall.steps, Queue.events_run_cons]
      exact (List.append_nil _).symm

end Respond

/-- A place in a longer list is the new one or one before. -/
theorem split_concat {α : Type} {items before after : List α} {last item : α}
    (hsplit : items ++ [last] = before ++ item :: after) :
    (after = [] ∧ before = items ∧ item = last) ∨
      ∃ rest, after = rest ++ [last] ∧ items = before ++ item :: rest := by
  rcases after.eq_nil_or_concat with rfl | ⟨rest, other, rfl⟩
  · obtain ⟨hitems, hlast⟩ := List.append_inj' hsplit rfl
    exact Or.inl ⟨rfl, hitems.symm, (List.singleton_inj.mp hlast).symm⟩
  · rw [List.concat_eq_append, ← List.cons_append, ← List.append_assoc] at hsplit
    obtain ⟨hitems, hlast⟩ := List.append_inj' hsplit rfl
    exact Or.inr ⟨rest, by rw [List.concat_eq_append, hlast], hitems⟩

namespace Custody

variable {custody next : Custody ι P H D} {call : SharedCall ι P H D}
  {found : Option (Queue P H D)} {queues : ι → Queue P H D}
  {entries : List (SharedEntry ι P H D)}

/-- A call that uses the slot is answered as by the queue alone. -/
theorem perform_of_use (hslot : custody.slot = .ofOption found) (huse : call.moves = false) :
    custody.perform call =
      some ⟨((call.respond found).value,
        { custody with
          slot := .ofOption (found.map fun queue => queue.after (call.steps queue)) }),
        (call.respond found).events⟩ := by
  obtain ⟨slot, occupant?, hands⟩ := custody
  obtain rfl : slot = _ := hslot
  cases call with
  | install | take => cases huse
  | access | tryAccess | advance =>
      refine congrArg some ?_
      cases found with
      | none => rfl
      | some queue =>
          refine Traced.ext rfl ?_
          simp only [SharedSlot.advance, SharedSlot.access, SharedSlot.tryAccess,
            SharedSlot.ofOption, SharedCall.respond, Traced.events_bind, Traced.value_bind,
            Traced.events_pure, List.append_nil]

/-- The ways in which a call goes when a queue is found in the slot, or none: the queue is used
there, or it comes out, and another one may go in. -/
inductive Performed (custody : Custody ι P H D) (found : Option (Queue P H D)) :
    SharedCall ι P H D → Custody ι P H D → Prop where
  | used {call : SharedCall ι P H D} (huse : call.moves = false) :
      Performed custody found call
        { custody with slot := .ofOption (found.map fun queue => queue.after (call.steps queue)) }
  | taken :
      Performed custody found .take
        ⟨.vacant, none, receive custody.occupant? custody.hands found⟩
  | installed (name : ι) (newcomer : Queue P H D) (hheld : custody.hands name = some newcomer) :
      Performed custody found (.install name)
        ⟨.installed newcomer, some name,
          receive custody.occupant? (Function.update custody.hands name none) found⟩

/-- Every call that can be made goes one of the ways listed, and is answered as by the queue that
it finds, alone. -/
theorem performed_of_perform {outcome : Traced P (SharedAnswer P H D × Custody ι P H D)}
    (hslot : custody.slot = .ofOption found) (hperform : custody.perform call = some outcome) :
    Performed custody found call outcome.value.2 ∧
      call.respond found = ⟨outcome.value.1, outcome.events⟩ := by
  cases hmoves : call.moves with
  | false =>
      rw [perform_of_use hslot hmoves] at hperform
      obtain rfl := Option.some.inj hperform
      exact ⟨.used hmoves, rfl⟩
  | true =>
      obtain ⟨slot, occupant?, hands⟩ := custody
      obtain rfl : slot = _ := hslot
      cases call with
      | access | tryAccess | advance => cases hmoves
      | take =>
          obtain rfl := Option.some.inj hperform
          cases found <;> exact ⟨.taken, rfl⟩
      | install name =>
          obtain ⟨newcomer, hheld, rfl⟩ := Option.map_eq_some_iff.mp hperform
          cases found <;> exact ⟨.installed name newcomer hheld, rfl⟩

/-- Where the queues are after calls that were made, and how each of them fared. -/
structure Keeps (queues : ι → Queue P H D) (entries : List (SharedEntry ι P H D))
    (custody : Custody ι P H D) : Prop where
  slot_eq : custody.slot = .ofOption (custody.occupant?.map fun name => alone queues name entries)
  hands_eq : ∀ name, custody.hands name =
    if custody.occupant? = some name then none else some (alone queues name entries)
  responded : ∀ before entry after, entries = before ++ entry :: after →
    entry.call.respond (entry.occupant?.map fun name => alone queues name before) =
      ⟨entry.answer, entry.events⟩
  returned : ∀ name before entry after, entries = before ++ entry :: after →
    entry.call = .install name → (∀ later ∈ after, later.call ≠ .install name) →
    handBacks name after = if custody.occupant? = some name then 0 else 1

theorem keeps_start (queues : ι → Queue P H D) : Keeps queues [] (start queues) where
  slot_eq := rfl
  hands_eq _ := rfl
  responded before entry after hsplit := absurd hsplit (by simp)
  returned name before entry after hsplit := absurd hsplit (by simp)

namespace Keeps

variable (hkeeps : Keeps queues entries custody)
include hkeeps

/-- With the queue out of the slot, every queue is in somebody's hands. -/
theorem receive_eq :
    receive custody.occupant? custody.hands
        (custody.occupant?.map fun name => alone queues name entries) =
      fun name => some (alone queues name entries) := by
  funext name
  have hhands := hkeeps.hands_eq name
  cases hoccupant : custody.occupant? with
  | none =>
      rw [hoccupant, if_neg (Option.some_ne_none name).symm] at hhands
      exact hhands
  | some occupant =>
      change Function.update custody.hands occupant _ name = _
      rw [hoccupant] at hhands
      by_cases hname : name = occupant
      · rw [hname, Function.update_self]
      · rw [Function.update_of_ne hname, hhands, if_neg fun heq => hname (Option.some.inj heq).symm]

/-- A queue that somebody holds is not in the slot, and is as it would be alone. -/
theorem held {name : ι} {queue : Queue P H D} (hheld : custody.hands name = some queue) :
    custody.occupant? ≠ some name ∧ queue = alone queues name entries := by
  rw [hkeeps.hands_eq] at hheld
  split at hheld
  next => cases hheld
  next hother => exact ⟨hother, (Option.some.inj hheld).symm⟩

/-- The hands after one of the queues replaced the one in the slot. -/
theorem receive_update {name : ι} (hother : custody.occupant? ≠ some name) :
    receive custody.occupant? (Function.update custody.hands name none)
        (custody.occupant?.map fun name => alone queues name entries) =
      fun other => if some name = some other then none else some (alone queues other entries) := by
  have hswap : receive custody.occupant? (Function.update custody.hands name none)
      (custody.occupant?.map fun name => alone queues name entries) =
        Function.update (receive custody.occupant? custody.hands
          (custody.occupant?.map fun name => alone queues name entries)) name none := by
    cases hoccupant : custody.occupant? with
    | none => rfl
    | some occupant =>
        have hne : name ≠ occupant := fun heq => hother (hoccupant.trans (congrArg some heq.symm))
        exact Function.update_comm hne _ _ _
  rw [hswap, hkeeps.receive_eq]
  funext other
  by_cases hname : other = name
  · rw [hname, Function.update_self, if_pos rfl]
  · rw [Function.update_of_ne hname, if_neg fun heq => hname (Option.some.inj heq).symm]

variable {entry : SharedEntry ι P H D}
  (hperformed : Performed custody (custody.occupant?.map fun name => alone queues name entries)
    entry.call next)
  (hoccupant : entry.occupant? = custody.occupant?)
include hperformed hoccupant

theorem slot_step : next.slot =
    .ofOption (next.occupant?.map fun name => alone queues name (entries ++ [entry])) := by
  obtain ⟨call, occupant?, answer, events⟩ := entry
  obtain rfl : occupant? = custody.occupant? := hoccupant
  cases hperformed with
  | used huse =>
      cases hname : custody.occupant? with
      | none => rfl
      | some name => exact congrArg SharedSlot.installed (alone_concat_self rfl).symm
  | taken => rfl
  | installed name newcomer hheld =>
      rw [(hkeeps.held hheld).2]
      exact congrArg SharedSlot.installed (alone_concat_of_moves rfl).symm

theorem hands_step (name : ι) : next.hands name =
    if next.occupant? = some name then none else some (alone queues name (entries ++ [entry])) := by
  obtain ⟨call, occupant?, answer, events⟩ := entry
  obtain rfl : occupant? = custody.occupant? := hoccupant
  cases hperformed with
  | used huse =>
      refine (hkeeps.hands_eq name).trans ?_
      dsimp only
      split
      next => rfl
      next hother => rw [alone_concat_of_ne hother]
  | taken =>
      rw [if_neg nofun, alone_concat_of_moves rfl]
      exact congrFun hkeeps.receive_eq name
  | installed newname newcomer hheld =>
      rw [alone_concat_of_moves rfl]
      exact congrFun (hkeeps.receive_update (hkeeps.held hheld).1) name

variable (hrespond : entry.call.respond
    (custody.occupant?.map fun name => alone queues name entries) = ⟨entry.answer, entry.events⟩)
include hrespond

omit hperformed in
theorem responded_step (before : List (SharedEntry ι P H D)) (earlier : SharedEntry ι P H D)
    (after : List (SharedEntry ι P H D))
    (hsplit : entries ++ [entry] = before ++ earlier :: after) :
    earlier.call.respond (earlier.occupant?.map fun name => alone queues name before) =
      ⟨earlier.answer, earlier.events⟩ := by
  rcases split_concat hsplit with ⟨_, rfl, rfl⟩ | ⟨rest, _, hentries⟩
  · rwa [hoccupant]
  · exact hkeeps.responded before earlier rest hentries

/-- A queue is handed back once more when it leaves the slot, and at no other call. -/
theorem returned_step (name : ι) (before : List (SharedEntry ι P H D))
    (earlier : SharedEntry ι P H D) (after : List (SharedEntry ι P H D))
    (hsplit : entries ++ [entry] = before ++ earlier :: after)
    (hinstall : earlier.call = .install name)
    (hlast : ∀ later ∈ after, later.call ≠ .install name) :
    handBacks name after = if next.occupant? = some name then 0 else 1 := by
  rcases split_concat hsplit with ⟨rfl, rfl, rfl⟩ | ⟨rest, rfl, hentries⟩
  · rw [hinstall] at hperformed
    cases hperformed with
    | used huse => cases huse
    | installed => rw [if_pos rfl]; rfl
  · have hbefore := hkeeps.returned name before earlier rest hentries hinstall fun later hlater =>
      hlast later (List.mem_append_left _ hlater)
    have hother := hlast entry (List.mem_append_right _ List.mem_cons_self)
    have hback := handsBack_of_respond hrespond
    unfold handBacks at hbefore ⊢
    rw [List.countP_append, hbefore, List.countP_singleton, hback, hoccupant]
    cases hcall : entry.call with
    | access | tryAccess | advance =>
        rw [hcall] at hperformed
        cases hperformed
        simp [SharedCall.moves]
    | take =>
        rw [hcall] at hperformed
        cases hperformed with
        | used huse => cases huse
        | taken => by_cases hname : custody.occupant? = some name <;> simp [hname, SharedCall.moves]
    | install newname =>
        have hne : newname ≠ name := fun heq => hother (by rw [hcall, heq])
        rw [hcall] at hperformed
        cases hperformed with
        | used huse => cases huse
        | installed =>
            by_cases hname : custody.occupant? = some name <;> simp [hname, hne, SharedCall.moves]

end Keeps

theorem Keeps.perform (hkeeps : Keeps queues entries custody)
    {outcome : Traced P (SharedAnswer P H D × Custody ι P H D)}
    (hperform : custody.perform call = some outcome) :
    Keeps queues (entries ++ [⟨call, custody.occupant?, outcome.value.1, outcome.events⟩])
      outcome.value.2 := by
  obtain ⟨hperformed, hrespond⟩ := performed_of_perform hkeeps.slot_eq hperform
  exact ⟨hkeeps.slot_step hperformed rfl, hkeeps.hands_step hperformed rfl,
    hkeeps.responded_step rfl hrespond, hkeeps.returned_step hperformed rfl hrespond⟩

theorem Keeps.run (hkeeps : Keeps queues entries custody) (calls : List (SharedCall ι P H D)) :
    Keeps queues (entries ++ (custody.run calls).1) (custody.run calls).2 := by
  induction calls generalizing custody entries with
  | nil =>
      rw [Custody.run, List.append_nil]
      exact hkeeps
  | cons call rest ih =>
      rw [Custody.run]
      cases hperform : custody.perform call with
      | none => exact ih hkeeps
      | some outcome =>
          have hrest := ih (hkeeps.perform hperform)
          rw [List.append_assoc] at hrest
          exact hrest

/-- The calls on one queue, picked out of all calls, are a run of that queue alone. -/
theorem projected (hresponded : ∀ before entry after, entries = before ++ entry :: after →
      entry.call.respond (entry.occupant?.map fun name => alone queues name before) =
        ⟨entry.answer, entry.events⟩) (name : ι) :
    answered name entries = (queues name).transcript (issued name entries (queues name)) ∧
      called name entries = ((queues name).run (issued name entries (queues name))).events := by
  induction entries using List.reverseRecOn with
  | nil => exact ⟨rfl, rfl⟩
  | append_singleton entries entry ih =>
      obtain ⟨htranscript, hevents⟩ := ih fun before earlier after hsplit =>
        hresponded before earlier (after ++ [entry]) (by rw [hsplit]; simp)
      have hrespond := hresponded entries entry [] rfl
      have hanswered : answered name (entries ++ [entry]) = answered name entries ++
          if entry.occupant? = some name then entry.answer.transcript else [] := by
        simp [answered]
      have hcalled : called name (entries ++ [entry]) = called name entries ++
          if entry.occupant? = some name then entry.events else [] := by
        simp [called]
      rw [hanswered, hcalled, issued_append, Queue.transcript_append, Queue.events_run_append,
        ← htranscript, ← hevents, issued, issued, List.append_nil]
      by_cases hoccupant : entry.occupant? = some name
      · rw [hoccupant] at hrespond
        have hfound : entry.call.respond (some (alone queues name entries)) = _ := hrespond
        have hanswer := transcript_respond entry.call (alone queues name entries)
        have hmade := events_respond entry.call (alone queues name entries)
        rw [hfound] at hanswer hmade
        rw [if_pos hoccupant, if_pos hoccupant, if_pos hoccupant]
        exact ⟨congrArg _ hanswer, congrArg _ hmade⟩
      · rw [if_neg hoccupant, if_neg hoccupant, if_neg hoccupant]
        exact ⟨rfl, rfl⟩

end Custody

/-- A shared slot adds nothing to its queues and loses none. Whatever is installed, used and
taken away in whichever order: at most one queue is in the slot, every other one is in
somebody's hands, and a queue that went in comes out once. Every queue is as it would be alone
after the steps that were issued while it was in the slot, answered as it would be, and made the
same calls; and every call is answered as by the queue that it finds, alone, or as by none. -/
theorem shared_slot_transparent (queues : ι → Queue P H D) (calls : List (SharedCall ι P H D)) :
    let made := (Custody.start queues).run calls
    made.2.slot = .ofOption (made.2.occupant?.map fun name => alone queues name made.1) ∧
      (∀ name, made.2.hands name =
        if made.2.occupant? = some name then none else some (alone queues name made.1)) ∧
      (∀ name before entry after, made.1 = before ++ entry :: after →
        entry.call = .install name → (∀ later ∈ after, later.call ≠ .install name) →
        handBacks name after = if made.2.occupant? = some name then 0 else 1) ∧
      (∀ name,
        answered name made.1 = (queues name).transcript (issued name made.1 (queues name)) ∧
          called name made.1 =
            ((queues name).run (issued name made.1 (queues name))).events) ∧
      ∀ before entry after, made.1 = before ++ entry :: after →
        entry.call.respond (entry.occupant?.map fun name => alone queues name before) =
          ⟨entry.answer, entry.events⟩ := by
  have hkeeps := (Custody.keeps_start queues).run calls
  rw [List.nil_append] at hkeeps
  exact ⟨hkeeps.slot_eq, hkeeps.hands_eq, hkeeps.returned, Custody.projected hkeeps.responded,
    hkeeps.responded⟩

end Calls

end TransmitQueue
