import TransmitQueue.Queue.Drain
import TransmitQueue.Queue.Text
import TransmitQueue.Scripted.Adapter
import TransmitQueue.Scripted.Device
import TransmitQueue.SharedSlot
import TransmitQueue.Proofs.Mapping.Shape
import TransmitQueue.Proofs.Queue.Attempt
import TransmitQueue.Proofs.Queue.Scan
import TransmitQueue.Proofs.Run
import TransmitQueue.Proofs.Bounce.Buffers
import TransmitQueue.Proofs.Copies
import TransmitQueue.Proofs.Descriptors
import TransmitQueue.Proofs.Outcome
import TransmitQueue.Proofs.Ownership
import TransmitQueue.Proofs.Backends
import TransmitQueue.Proofs.Lifecycle
import TransmitQueue.Proofs.Bounce.Construction
import TransmitQueue.Proofs.Mapping.Direct
import TransmitQueue.Proofs.Starts
import TransmitQueue.Proofs.Progress
import TransmitQueue.Proofs.Discipline
import TransmitQueue.Proofs.Stalls
import TransmitQueue.Proofs.Vacating
import TransmitQueue.Proofs.Commuting
import TransmitQueue.Proofs.Bounce.Rules
import TransmitQueue.Proofs.Custody
import TransmitQueue.Proofs.Bounce.Allocation
import TransmitQueue.Proofs.Ring.Refinement
import TransmitQueue.Proofs.Abreast
import TransmitQueue.Proofs.Releases
import TransmitQueue.Proofs.Cancellation
import TransmitQueue.Proofs.Schedule
import TransmitQueue.Proofs.Mapping.Paging
import TransmitQueue.Proofs.Mapping.Blocks
import TransmitQueue.Proofs.Multiples
