import TransmitQueue.Event
import TransmitQueue.Mapping.Arena

/-!
# The mapper

How a packet that stays in place gets its list. The direct backend writes physical
addresses into a list of its own, shared by all slots because it is read before the
next packet is mapped. The delegated backend asks the adapter and keeps a list and
a context block for each ring slot. The backend is chosen once and never changes.
-/

namespace TransmitQueue

/-- Who builds the lists. -/
inductive Backend where
  | direct
  | delegated
  deriving DecidableEq

def Backend.text : Backend → String
  | direct => "Direct"
  | delegated => "Delegated"

/-- A backend and the memory that it works in. -/
inductive Mapper where
  | direct (scratch : SgList)
  | delegated {slots stride : Nat} (contexts : ContextArena slots stride)

/-- The outcome of a mapping: the list to program or an error, and the mapper, the
slot's list and the adapter as they are left. -/
structure Mapping (D : Type) where
  answer : Except DmaError SgList
  mapper : Mapper
  slotList : SgList
  adapter : D

namespace Mapper

variable {P D : Type} [Adapter D]

/-- Chooses the backend. The adapter is asked about bypass only if the caller
allows it, and about its contexts only if it is to build the lists. -/
def build (allowBypass : Bool) (elements slots : Nat) (adapter : D) : Traced P Mapper := do
  let direct ←
    if allowBypass then do
      Traced.record (.bypassCapable (Adapter.bypassCapable adapter))
      pure (Adapter.bypassCapable adapter)
    else pure false
  if direct then
    Traced.record (.notice (.directMapping elements))
    pure (.direct (SgList.ofLimit elements))
  else
    let stride := Adapter.contextSize adapter
    Traced.record (.contextSize stride)
    Traced.record (.notice (.delegatedMapping slots stride))
    pure (.delegated (ContextArena.zeroed slots stride))

def backend : Mapper → Backend
  | direct _ => .direct
  | delegated _ => .delegated

/-- The limit of the lists that ring slots need. The direct backend never uses
them, so they need no room. -/
def slotListLimit (mapper : Mapper) (elements : Nat) : Nat :=
  match mapper.backend with
  | .direct => 0
  | .delegated => elements

/-- The direct mapping of a packet: its fragments' own addresses, page by page. -/
def mapDirect [Packet P] (scratch : SgList) (packet : P) : Except DmaError SgList × SgList :=
  match scratch.clear.pushFragments (Packet.fragments packet) with
  | (.ok (), list) => (.ok list, list)
  | (.error error, list) => (.error error, list)

/-- Maps a packet for a ring slot. -/
def map [Packet P] (mapper : Mapper) (slot : Nat) (packet : P) (slotList : SgList)
    (adapter : D) : Traced P (Mapping D) :=
  match mapper with
  | direct scratch =>
      let (answer, scratch) := mapDirect scratch packet
      pure ⟨answer, direct scratch, slotList, adapter⟩
  | delegated contexts =>
      match contexts.block? slot with
      | none => pure ⟨.error .transferFailed, delegated contexts, slotList, adapter⟩
      | some context => do
          let reply := Adapter.mapTransfer adapter slot packet context slotList.clear
          Traced.record (.map slot packet context.toList slotList.clear reply.answer
            reply.context.toList reply.list)
          pure ⟨reply.answer.map fun _ => reply.list,
            delegated (contexts.setBlock slot reply.context), reply.list, reply.adapter⟩

/-- Returns the mapping of a ring slot and clears the slot's list. The direct
backend has nothing to return. -/
def unmap (mapper : Mapper) (slot : Nat) (slotList : SgList) (adapter : D) :
    Traced P (Mapper × SgList × D) :=
  match mapper with
  | direct scratch => pure (direct scratch, slotList, adapter)
  | delegated contexts =>
      match contexts.block? slot with
      | none => pure (delegated contexts, slotList.clear, adapter)
      | some context => do
          Traced.record (.unmap slot context.toList slotList)
          let (adapter, context) := Adapter.unmapTransfer adapter slot context slotList
          pure (delegated (contexts.setBlock slot context), slotList.clear, adapter)

end Mapper

end TransmitQueue
