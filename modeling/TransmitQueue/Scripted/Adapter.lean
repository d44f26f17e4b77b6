import TransmitQueue.Adapter
import TransmitQueue.Scripted.Table

/-!
# Scripted adapters

An adapter that gives every packet its own physical addresses, and whose faults are
written down beforehand: allocations that fail or come out short or long, mappings
that fail by slot, by call or for want of capacity, and elements put in front of the
packet's. It keeps a log of the slots it mapped and unmapped.
-/

namespace TransmitQueue

/-- An adapter that follows a script. -/
structure ScriptedAdapter where
  bypass : Bool := false
  contextBytes : Nat := 16
  /-- Mappings that may be outstanding at once. -/
  mapCapacity : Nat := addressSpace - 1
  /-- The address of all memory that is handed out. -/
  base : PhysAddr := ⟨0x80000000⟩
  failAllocation : Bool := false
  /-- The slot whose mappings are rejected. -/
  failSlot : Option Nat := none
  /-- Bytes by which allocations come out short. -/
  shortfall : Nat := 0
  /-- Bytes by which allocations come out long. -/
  surplus : Nat := 0
  /-- Elements put in front of every list. -/
  leading : Nat := 0
  /-- Errors by number of the mapping call, counted from zero. -/
  callErrors : ScriptTable DmaError := []
  /-- Mapping calls so far, failed ones included. -/
  calls : Nat := 0
  /-- Slots mapped, in order. -/
  mapped : List Nat := []
  /-- Slots unmapped, in order. -/
  unmapped : List Nat := []
  /-- Length of the context block of the last mapping. -/
  lastContextLength : Option Nat := none
  /-- Address limit of the last allocation. -/
  lastLimit : Option (Option Nat) := none

namespace ScriptedAdapter

variable (adapter : ScriptedAdapter)

/-- Mappings made and not yet returned. -/
def outstanding : Nat := adapter.mapped.length - adapter.unmapped.length

/-- Appends `count` elements of sixteen bytes, each behind the one before, from an
address on. Stops at the list's limit. -/
def pushLeading (address : PhysAddr) (list : SgList) : Nat → Except DmaError Unit × SgList
  | 0 => (.ok (), list)
  | count + 1 =>
      match list.push address 16 with
      | (.ok (), longer) => pushLeading (address.offset 16) longer count
      | (.error error, full) => (.error error, full)

/-- Maps a packet whose call is not scripted to fail. -/
def transfer {P : Type} [Packet P] {size : Nat} (slot : Nat) (packet : P)
    (context : Vector UInt8 size) (list : SgList) : TransferReply ScriptedAdapter size :=
  match pushLeading ⟨0xE0000000⟩ list adapter.leading with
  | (.error error, list) => ⟨.error error, adapter, context, list⟩
  | (.ok (), list) =>
      let adapter := { adapter with lastContextLength := some size }
      if adapter.failSlot = some slot then
        ⟨.error .transferFailed, adapter, context, list⟩
      else if adapter.mapCapacity ≤ adapter.outstanding then
        ⟨.error .insufficientResources, adapter, context, list⟩
      else
        match list.pushFragments (Packet.fragments packet) with
        | (.error error, list) => ⟨.error error, adapter, context, list⟩
        | (.ok (), list) =>
            -- The bytes count slots from one. At slot 255 they wrap to zero, as they do where
            -- overflow goes unchecked; where it is checked, the scripted adapter stops there.
            ⟨.ok (), { adapter with mapped := adapter.mapped ++ [slot] },
              .replicate size (slot.toUInt8 + 1), list⟩

instance : Adapter ScriptedAdapter where
  bypassCapable adapter := adapter.bypass
  contextSize adapter := adapter.contextBytes
  allocate adapter length _ limit :=
    let adapter := { adapter with lastLimit := some limit }
    if adapter.failAllocation then (.error .insufficientResources, adapter)
    else (.ok (.zeroed (length - adapter.shortfall + adapter.surplus) adapter.base), adapter)
  mapTransfer adapter slot packet context list :=
    let call := adapter.calls
    let adapter := { adapter with calls := call + 1 }
    match adapter.callErrors.get? call with
    | some error => ⟨.error error, adapter, context, list⟩
    | none => adapter.transfer slot packet context list
  unmapTransfer {size} adapter slot _ _ :=
    ({ adapter with unmapped := adapter.unmapped ++ [slot] }, .replicate size 0)

end ScriptedAdapter

end TransmitQueue
