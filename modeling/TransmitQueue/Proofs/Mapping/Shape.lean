import TransmitQueue.Mapping.Mapper

/-!
# The shape of a mapper

The backend of a mapper, the room of its shared list and the number of its context
blocks are fixed when it is built. No mapping changes them, so every ring slot has
a context block and every direct mapping starts with the whole descriptor budget.
-/

namespace TransmitQueue

namespace SgList

theorem limit_pushSpan (list : SgList) (start : PhysAddr) (length : Nat) :
    (list.pushSpan start length).2.limit = list.limit := rfl

theorem limit_pushFragments (list : SgList) (fragments : List Fragment) :
    (list.pushFragments fragments).2.limit = list.limit := by
  induction fragments generalizing list with
  | nil => rfl
  | cons fragment rest ih =>
      unfold pushFragments
      split
      next longer hspan =>
        rw [ih, ← limit_pushSpan list fragment.physStart fragment.length, hspan]
      next error full hspan =>
        change full.limit = list.limit
        rw [← limit_pushSpan list fragment.physStart fragment.length, hspan]

end SgList

namespace Mapper

variable {P D : Type} [Adapter D]

/-- A mapper for a descriptor budget and a number of ring slots. -/
def Fits (elements slots : Nat) : Mapper → Prop
  | direct scratch => scratch.limit = elements
  | @delegated blocks _ _ => blocks = slots

theorem fits_build (allowBypass : Bool) (elements slots : Nat) (adapter : D) :
    (build allowBypass elements slots adapter : Traced P Mapper).value.Fits elements slots := by
  unfold build
  cases allowBypass with
  | false => rfl
  | true =>
      cases Adapter.bypassCapable adapter <;> simp [Fits]

section Map

variable [Packet P] (mapper : Mapper) (slot : Nat) (packet : P) (slotList : SgList) (adapter : D)

theorem mapDirect_answer (scratch : SgList) :
    (mapDirect scratch packet).1 =
      (scratch.clear.pushFragments (Packet.fragments packet)).1.map fun _ =>
        (scratch.clear.pushFragments (Packet.fragments packet)).2 := by
  unfold mapDirect
  split
  next list hpush => rw [hpush]; rfl
  next error list hpush => rw [hpush]; rfl

theorem mapDirect_scratch (scratch : SgList) :
    (mapDirect scratch packet).2 =
      (scratch.clear.pushFragments (Packet.fragments packet)).2 := by
  unfold mapDirect
  split
  next list hpush => rw [hpush]
  next error list hpush => rw [hpush]

theorem map_delegated {slots stride : Nat} {contexts : ContextArena slots stride}
    {context : Vector UInt8 stride} (hblock : contexts.block? slot = some context) :
    (delegated contexts).map slot packet slotList adapter =
      let reply := Adapter.mapTransfer adapter slot packet context slotList.clear
      ⟨⟨reply.answer.map fun _ => reply.list,
          delegated (contexts.setBlock slot reply.context), reply.list, reply.adapter⟩,
        [.map slot packet context.toList slotList.clear reply.answer reply.context.toList
          reply.list]⟩ := by
  simp only [map, hblock]
  rfl

/-- A mapping does not change the backend. -/
theorem backend_map :
    (mapper.map slot packet slotList adapter).value.mapper.backend = mapper.backend := by
  cases mapper with
  | direct scratch => rfl
  | delegated contexts =>
      cases hblock : contexts.block? slot with
      | none =>
          simp only [map, hblock]
          rfl
      | some context =>
          rw [map_delegated slot packet slotList adapter hblock]
          rfl

theorem fits_map {elements slots : Nat} (hfits : mapper.Fits elements slots) :
    (mapper.map slot packet slotList adapter).value.mapper.Fits elements slots := by
  cases mapper with
  | direct scratch =>
      change (mapDirect scratch packet).2.limit = elements
      rw [mapDirect_scratch, SgList.limit_pushFragments]
      exact hfits
  | delegated contexts =>
      cases hblock : contexts.block? slot with
      | none =>
          simp only [map, hblock]
          exact hfits
      | some context =>
          rw [map_delegated slot packet slotList adapter hblock]
          exact hfits

end Map

variable (mapper : Mapper) (slot : Nat) (slotList : SgList) (adapter : D)

theorem unmap_delegated {slots stride : Nat} {contexts : ContextArena slots stride}
    {context : Vector UInt8 stride} (hblock : contexts.block? slot = some context) :
    ((delegated contexts).unmap slot slotList adapter : Traced P _) =
      ⟨(delegated (contexts.setBlock slot
            (Adapter.unmapTransfer adapter slot context slotList).2), slotList.clear,
          (Adapter.unmapTransfer adapter slot context slotList).1),
        [.unmap slot context.toList slotList]⟩ := by
  simp only [unmap, hblock]
  rfl

theorem backend_unmap :
    (mapper.unmap slot slotList adapter : Traced P _).value.1.backend = mapper.backend := by
  cases mapper with
  | direct scratch => rfl
  | delegated contexts =>
      cases hblock : contexts.block? slot with
      | none =>
          simp only [unmap, hblock]
          rfl
      | some context =>
          rw [unmap_delegated slot slotList adapter hblock]
          rfl

theorem fits_unmap {elements slots : Nat} (hfits : mapper.Fits elements slots) :
    (mapper.unmap slot slotList adapter : Traced P _).value.1.Fits elements slots := by
  cases mapper with
  | direct scratch => exact hfits
  | delegated contexts =>
      cases hblock : contexts.block? slot with
      | none =>
          simp only [unmap, hblock]
          exact hfits
      | some context =>
          rw [unmap_delegated slot slotList adapter hblock]
          exact hfits

end Mapper

end TransmitQueue
