import TransmitQueue.Queue.Advance

/-!
# Shared slots

A place where a queue can be installed, used and taken away by several parties,
one at a time. While one party uses the content the slot is lent, and whoever comes
to it then finds nothing to use.
-/

namespace TransmitQueue

/-- A slot for a shared value. -/
inductive SharedSlot (α : Type) where
  | vacant
  | installed (content : α)
  /-- The content is in use. -/
  | lent

namespace SharedSlot

variable {α β P : Type} (slot : SharedSlot α)

def isInstalled : Bool :=
  match slot with
  | vacant => false
  | installed _ | lent => true

/-- The content, unless it is in use. -/
def content? : Option α :=
  match slot with
  | installed content => some content
  | vacant | lent => none

/-- Puts a value in and hands back the one it displaces. A slot whose content is
in use cannot take another and hands the newcomer back. -/
def install (newcomer : α) : Option α × SharedSlot α :=
  match slot with
  | vacant => (none, installed newcomer)
  | installed content => (some content, installed newcomer)
  | lent => (some newcomer, lent)

/-- Takes the content out. -/
def take : Option α × SharedSlot α :=
  match slot with
  | vacant => (none, vacant)
  | installed content => (some content, vacant)
  | lent => (none, lent)

/-- Uses the content. The use is shown the slot as others see it meanwhile. -/
def tryAccess (use : SharedSlot α → α → Traced P (β × α)) :
    Traced P (Option β × SharedSlot α) :=
  match slot with
  | installed content => do
      let (answer, content) ← use lent content
      pure (some answer, installed content)
  | vacant => pure (none, vacant)
  | lent => pure (none, lent)

/-- Uses the content, and reports a slot without usable content as an invalid state. -/
def access (use : SharedSlot α → α → Traced P (β × α)) :
    Traced P (Except IoError β × SharedSlot α) := do
  let (answer, slot) ← slot.tryAccess use
  pure (answer.elim (.error .invalidState) .ok, slot)

end SharedSlot

/-- Advances the queue in a shared slot. -/
def SharedSlot.advance {P H D : Type} [Packet P] [Device P H] [Adapter D]
    (slot : SharedSlot (Queue P H D)) :
    Traced P (Except IoError AdvanceSummary × SharedSlot (Queue P H D)) :=
  slot.access fun _ queue => queue.advance

end TransmitQueue
