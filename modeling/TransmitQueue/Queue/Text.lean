import TransmitQueue.Queue.Basic

/-!
# The text of a queue

A one-line summary of a queue for diagnosis: its capacity, what it holds, and its
counters.
-/

namespace TransmitQueue

/-- A named record of named values, as `Name { first: 1, second: 2 }`. -/
def recordText (name : String) (fields : List (String × String)) : String :=
  name ++ " \x7b " ++ ", ".intercalate (fields.map fun (field, text) => field ++ ": " ++ text) ++
    " \x7d"

def Statistics.text (statistics : Statistics) : String :=
  recordText "TxStatistics" (statistics.entries.map fun (name, value) => (name, toString value))

def Queue.text {P H D : Type} (queue : Queue P H D) : String :=
  recordText "TxDmaQueue"
    [("capacity", toString queue.capacity),
      ("outstanding", toString queue.outstanding),
      ("in_flight", toString queue.inFlight),
      ("backend", queue.backend.text),
      ("bounce_in_use", toString queue.bounceBuffersInUse),
      ("stats", queue.statistics.text)]

end TransmitQueue
