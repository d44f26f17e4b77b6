import TransmitQueue.Queue.Advance

/-!
# Draining a queue

Advances with a pause between them, until nothing is outstanding or the time is
up. A pause lasts at least a microsecond, so a finite time allows finitely many.
-/

namespace TransmitQueue

/-- Microseconds between two advances of a drain, where the caller names none. -/
def defaultPollInterval : Nat := 100

/-- Microseconds after which a drain gives up, where the caller names none. -/
def defaultDrainTimeout : Nat := 100000

namespace Queue

variable {P H D : Type} [Packet P] [Device P H] [Adapter D]

/-- Drains a queue with pauses of `pause + 1` microseconds. The pauses still to
come begin within the next `budget` microseconds. -/
def drainWithin (pause : Nat) (budget : Nat) (queue : Queue P H D) :
    Traced P (Except IoError Unit × Queue P H D) := do
  let (_, queue) ← queue.advance
  if queue.isIdle then pure (.ok (), queue)
  else if h : budget = 0 then
    -- The time is up, and this advance was the last one.
    Traced.record (.notice (.drainTimedOut queue.outstanding))
    pure (.error .timeout, queue)
  else
    Traced.record (.wait (pause + 1))
    drainWithin pause (budget - (pause + 1)) queue
termination_by budget
decreasing_by omega

/-- Advances the queue every `interval` microseconds until nothing is outstanding.
Gives up at the first advance that leaves packets outstanding when `timeout`
microseconds have passed. -/
def drain (queue : Queue P H D) (interval timeout : Nat) :
    Traced P (Except IoError Unit × Queue P H D) :=
  queue.drainWithin (max interval 1 - 1) timeout

end Queue

end TransmitQueue
