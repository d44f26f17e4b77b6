import TransmitQueue.Proofs.Mapping.Split
import TransmitQueue.Scripted.Adapter
import TransmitQueue.Scripted.Packet

/-!
# Direct mapping

The direct backend works in one list for all ring slots, and a packet that does not fit leaves
its pieces there. None of this shows: whatever was mapped before, a packet gets the parts of its
fragments, page by page, exactly if the analysis counted no more of them than the list holds.
-/

namespace TransmitQueue.Mapper

/-- What a mapper is asked for: to map a packet for a ring slot, or to take a mapping back. It
comes with the slot's list and the adapter as they are at the time. -/
inductive Request (P D : Type) where
  | map (slot : Nat) (packet : P) (list : SgList) (adapter : D)
  | unmap (slot : Nat) (list : SgList) (adapter : D)

variable {P D : Type} [Packet P] [Adapter D]

/-- The mapper after a request, whether it succeeded or not. -/
def serve (mapper : Mapper) : Request P D → Mapper
  | .map slot packet list adapter => (mapper.map slot packet list adapter).value.mapper
  | .unmap slot list adapter => (mapper.unmap slot list adapter : Traced P _).value.1

/-- The mapper after requests made one after another. -/
def serveAll (mapper : Mapper) (requests : List (Request P D)) : Mapper :=
  requests.foldl serve mapper

/-- A mapper of the direct backend whose list holds a given number of elements. Nothing is said
about what is in the list. -/
def DirectWith (elements : Nat) (mapper : Mapper) : Prop :=
  ∃ scratch, mapper = direct scratch ∧ scratch.limit = elements

variable {mapper : Mapper} {elements : Nat}

omit [Packet P] in
theorem directWith_build {allowBypass : Bool} {slots : Nat} {owner : D}
    (hdirect : (build allowBypass elements slots owner : Traced P Mapper).value.backend =
      .direct) :
    DirectWith elements (build allowBypass elements slots owner : Traced P Mapper).value := by
  have hfits := fits_build (P := P) allowBypass elements slots owner
  cases hmapper : (build allowBypass elements slots owner : Traced P Mapper).value with
  | direct scratch =>
      rw [hmapper] at hfits
      exact ⟨scratch, rfl, hfits⟩
  | delegated contexts =>
      rw [hmapper] at hdirect
      cases hdirect

namespace DirectWith

variable (hmapper : DirectWith elements mapper)
include hmapper

theorem serve (request : Request P D) : DirectWith elements (mapper.serve request) := by
  obtain ⟨scratch, rfl, hlimit⟩ := hmapper
  cases request with
  | map slot packet list adapter =>
      refine ⟨(mapDirect scratch packet).2, rfl, ?_⟩
      rw [mapDirect_scratch, SgList.limit_pushFragments]
      exact hlimit
  | unmap slot list adapter => exact ⟨scratch, rfl, hlimit⟩

theorem serveAll (requests : List (Request P D)) :
    DirectWith elements (mapper.serveAll requests) := by
  induction requests generalizing mapper with
  | nil => exact hmapper
  | cons request rest ih => exact ih (hmapper.serve request)

end DirectWith

/-- The list that a direct mapping answers with, or its error, by the packet and the limit. -/
theorem answer_mapDirect (scratch : SgList) (packet : P) :
    (mapDirect scratch packet).1.map (fun list => (list.limit, list.elements)) =
      if BounceAnalysis.descriptors (Packet.fragments packet) ≤ scratch.limit then
        .ok (scratch.limit, (Packet.fragments packet).flatMap Fragment.parts)
      else .error .scatterGatherOverflow := by
  obtain ⟨hanswer, helements⟩ := scratch.clear.pushFragments_eq (Packet.fragments packet)
  have hlimit := scratch.clear.limit_pushFragments (Packet.fragments packet)
  have hroom : scratch.clear.room = scratch.limit := rfl
  rw [hroom] at hanswer helements
  rw [SgList.elements_clear, List.nil_append] at helements
  rw [mapDirect_answer, hanswer]
  split
  next hfits =>
    rw [← BounceAnalysis.length_flatMap_parts] at hfits
    rw [List.take_of_length_le hfits] at helements
    change Except.ok (_, _) = Except.ok (_, _)
    rw [hlimit, helements]
    rfl
  next => rfl

/-- A list is known by its limit and its elements. -/
theorem answer_congr {left right : Except DmaError SgList}
    (hsame : left.map (fun list => (list.limit, list.elements)) =
      right.map fun list => (list.limit, list.elements)) : left = right := by
  cases left with
  | error => cases right <;> cases hsame; rfl
  | ok list =>
      cases right with
      | error => cases hsame
      | ok other =>
          obtain ⟨hlimit, helements⟩ := Prod.mk.inj (Except.ok.inj hsame)
          exact congrArg Except.ok (SgList.ext hlimit helements)

/-- The direct backend agrees with the analysis and has no memory. Whatever was asked of it
before, it maps a packet exactly if the analysis counts no more descriptors than its limit. The
list then has as many elements as were counted: the parts of the fragments, page by page, none
across the end of a page, through which the device reads the fragments and nothing else.
Otherwise the list overflows. Neither the slot nor what was asked before makes a difference, and
the slot's list and the adapter are left alone. -/
theorem direct_answer_by_count {allowBypass : Bool} {slots : Nat} {owner : D}
    (hdirect : (build allowBypass elements slots owner : Traced P Mapper).value.backend = .direct)
    (history : List (Request P D)) (limits : BounceLimits) (slot : Nat) (packet : P)
    (list : SgList) (adapter : D) :
    let fresh := (build allowBypass elements slots owner : Traced P Mapper).value
    let count := (BounceAnalysis.ofPacket limits packet).descriptorCount
    let parts := (Packet.fragments packet).flatMap fun fragment =>
      Page.split fragment.physStart fragment.length
    let mapping := (fresh.serveAll history).map slot packet list adapter
    mapping.value.answer.map SgList.elements =
        (if count ≤ elements then .ok parts else .error .scatterGatherOverflow) ∧
      parts.length = count ∧
      (∀ part ∈ parts, Page.within part.address + part.length ≤ Page.size) ∧
      SgElement.Cover parts ((Packet.fragments packet).flatMap Fragment.addresses) ∧
      (∀ (earlier : List (Request P D)) (other : Nat) (otherList : SgList) (otherAdapter : D),
        ((fresh.serveAll earlier).map other packet otherList otherAdapter).value.answer =
          mapping.value.answer) ∧
      mapping.value.slotList = list ∧ mapping.value.adapter = adapter ∧ mapping.events = [] := by
  have hbuilt := directWith_build hdirect
  generalize (build allowBypass elements slots owner : Traced P Mapper).value = fresh at hbuilt
  obtain ⟨scratch, hmapper, hlimit⟩ := hbuilt.serveAll history
  have hanswer := answer_mapDirect scratch packet
  dsimp only
  rw [hmapper]
  refine ⟨?_, BounceAnalysis.length_flatMap_parts _, ?_, SgElement.cover_flatMap_parts _, ?_, rfl,
    rfl, rfl⟩
  · have helements := congrArg (Except.map Prod.snd) hanswer
    rw [hlimit] at helements
    change (mapDirect scratch packet).1.map SgList.elements = _
    cases hmapped : (mapDirect scratch packet).1 <;> rw [hmapped] at helements <;>
      exact helements.trans (apply_ite _ _ _ _)
  · intro part hpart
    obtain ⟨fragment, _, hpart⟩ := List.mem_flatMap.mp hpart
    obtain ⟨page, _, rfl⟩ := List.mem_map.mp hpart
    exact Page.within_part_le _ _ _
  · intro earlier other otherList otherAdapter
    obtain ⟨used, hother, hused⟩ := hbuilt.serveAll earlier
    rw [hother]
    refine answer_congr ((answer_mapDirect used packet).trans ?_)
    rw [hused, ← hlimit]
    exact hanswer.symm

section Sample

/-- A packet that runs on into the next page. -/
def straddlingPacket : ScriptedPacket where
  id := 1
  layout := [ScriptedPacket.fragment? ⟨0xFFE⟩ 4 0 4]

/-- A mapping that overflows a list of two elements, and a mapping taken back. -/
def overflowingRequests : List (Request ScriptedPacket ScriptedAdapter) :=
  [.map 3 { straddlingPacket with layout := straddlingPacket.layout ++ straddlingPacket.layout }
    (.ofLimit 0) {}, .unmap 1 (.ofLimit 0) {}]

theorem sample_direct_answer_by_count :
    let fresh := (build true 2 4 ({ bypass := true } : ScriptedAdapter) :
      Traced ScriptedPacket Mapper).value
    fresh.backend = .direct ∧
      ((fresh.serveAll overflowingRequests).map 0 straddlingPacket (.ofLimit 0)
        ({} : ScriptedAdapter)).value.answer.map SgList.elements =
        .ok [⟨⟨0xFFE⟩, 2⟩, ⟨⟨0x1000⟩, 2⟩] := by
  have hdirect : (build true 2 4 ({ bypass := true } : ScriptedAdapter) :
      Traced ScriptedPacket Mapper).value.backend = .direct := rfl
  refine ⟨hdirect, ?_⟩
  have hanswer := (direct_answer_by_count hdirect overflowingRequests
    ⟨4, 2, .unconstrained, none⟩ 0 straddlingPacket (.ofLimit 0) {}).1
  exact hanswer.trans ((if_pos (by decide)).trans (congrArg Except.ok (by decide)))

end Sample

end TransmitQueue.Mapper
