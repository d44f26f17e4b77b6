import TransmitQueue.Proofs.Mapping.Shape

/-!
# The scratch of a slot

What the delegated backend keeps for a ring slot: the context block that the adapter
filled, and the list. A call for one slot leaves those of the others as they were. A
mapping that succeeds leaves what the adapter left, and an unmapping hands it back.
-/

namespace TransmitQueue

/-- The context block and the list of a ring slot. -/
structure Scratch where
  slot : Nat
  context : Bytes
  list : SgList

section Calls

variable {P : Type}

/-- The mappings that the adapter made, in order, each with the packet and what was left
in the slot's scratch. -/
def mappings (calls : List (Event P)) : List (P × Scratch) :=
  calls.filterMap fun
    | .map slot packet _ _ (.ok ()) context list => some (packet, ⟨slot, context, list⟩)
    | _ => none

/-- The scratches that the adapter got back, in order. -/
def unmappings (calls : List (Event P)) : List Scratch :=
  calls.filterMap fun
    | .unmap slot context list => some ⟨slot, context, list⟩
    | _ => none

/-- The slots that the adapter was called for, whatever it answered. -/
def mapperSlots (calls : List (Event P)) : List Nat :=
  calls.filterMap fun
    | .map slot .. => some slot
    | .unmap slot .. => some slot
    | _ => none

variable (first second : List (Event P))

@[simp] theorem mappings_append : mappings (first ++ second) = mappings first ++ mappings second :=
  List.filterMap_append

@[simp] theorem unmappings_append :
    unmappings (first ++ second) = unmappings first ++ unmappings second :=
  List.filterMap_append

@[simp] theorem mapperSlots_append :
    mapperSlots (first ++ second) = mapperSlots first ++ mapperSlots second :=
  List.filterMap_append

variable {calls : List (Event P)} {slot : Nat} {context : Bytes} {list : SgList}

theorem mapperSlots_eq_nil (hnone : mapperSlots calls = []) :
    mappings calls = [] ∧ unmappings calls = [] := by
  unfold mapperSlots at hnone
  rw [List.filterMap_eq_nil_iff] at hnone
  constructor
  · refine List.filterMap_eq_nil_iff.mpr fun event hevent => ?_
    cases event with
    | map => cases hnone _ hevent
    | _ => rfl
  · refine List.filterMap_eq_nil_iff.mpr fun event hevent => ?_
    cases event with
    | unmap => cases hnone _ hevent
    | _ => rfl

theorem mem_unmappings :
    (⟨slot, context, list⟩ : Scratch) ∈ unmappings calls ↔ .unmap slot context list ∈ calls := by
  unfold unmappings
  rw [List.mem_filterMap]
  constructor
  · rintro ⟨event, hevent, heq⟩
    split at heq
    next =>
      cases heq
      exact hevent
    next => cases heq
  · intro hevent
    exact ⟨_, hevent, rfl⟩

end Calls

namespace Mapper

variable {P D : Type} [Adapter D]

/-- The content of a slot's context block, where the backend keeps one. -/
def block? : Mapper → Nat → Option Bytes
  | direct _, _ => none
  | delegated contexts, slot => (contexts.block? slot).map Vector.toList

theorem block?_delegated_setBlock_of_ne {slots stride slot other : Nat}
    (contexts : ContextArena slots stride) (block : Vector UInt8 stride) (hother : other ≠ slot) :
    (delegated (contexts.setBlock slot block)).block? other =
      (delegated contexts).block? other :=
  congrArg (Option.map Vector.toList) (contexts.block?_setBlock_of_ne block hother)

section Map

variable [Packet P] (mapper : Mapper) (slot : Nat) (packet : P) (list : SgList) (adapter : D)

/-- A mapping writes into the context block of its own slot only. -/
theorem block?_map_of_ne {other : Nat} (hother : other ≠ slot) :
    (mapper.map slot packet list adapter).value.mapper.block? other = mapper.block? other := by
  cases mapper with
  | direct => rfl
  | delegated contexts =>
      cases hblock : contexts.block? slot with
      | none =>
          simp only [map, hblock]
          rfl
      | some context =>
          rw [map_delegated slot packet list adapter hblock]
          exact block?_delegated_setBlock_of_ne contexts _ hother

/-- A mapping calls the adapter at most once, and for its own slot. -/
theorem events_map :
    (mapper.map slot packet list adapter).events = [] ∨
      ∃ context answer contextLeft listLeft, (mapper.map slot packet list adapter).events =
        [.map slot packet context list.clear answer contextLeft listLeft] := by
  cases mapper with
  | direct => exact Or.inl rfl
  | delegated contexts =>
      cases hblock : contexts.block? slot with
      | none =>
          simp only [map, hblock]
          exact Or.inl rfl
      | some context =>
          rw [map_delegated slot packet list adapter hblock]
          exact Or.inr ⟨_, _, _, _, rfl⟩

theorem unmappings_map : unmappings (mapper.map slot packet list adapter).events = [] := by
  rcases mapper.events_map slot packet list adapter with hnone | ⟨_, _, _, _, hcall⟩
  · rw [hnone]
    rfl
  · rw [hcall]
    rfl

theorem mapperSlots_map :
    ∀ called ∈ mapperSlots (mapper.map slot packet list adapter).events, called = slot := by
  rcases mapper.events_map slot packet list adapter with hnone | ⟨_, _, _, _, hcall⟩
  · rw [hnone]
    exact nofun
  · rw [hcall]
    exact fun called hcalled => List.mem_singleton.mp hcalled

/-- The adapter is asked for a mapping that fails as much as for one that succeeds, but
only the latter counts. -/
theorem mappings_map_of_error {error : DmaError}
    (hanswer : (mapper.map slot packet list adapter).value.answer = .error error) :
    mappings (mapper.map slot packet list adapter).events = [] := by
  cases mapper with
  | direct => rfl
  | delegated contexts =>
      cases hblock : contexts.block? slot with
      | none =>
          simp only [map, hblock]
          rfl
      | some context =>
          rw [map_delegated slot packet list adapter hblock] at hanswer ⊢
          dsimp only at hanswer ⊢
          cases hreply : (Adapter.mapTransfer adapter slot packet context list.clear).answer with
          | error => rfl
          | ok =>
              rw [hreply] at hanswer
              cases hanswer

theorem mappings_map_of_direct (hbackend : mapper.backend = .direct) :
    mappings (mapper.map slot packet list adapter).events = [] := by
  cases mapper with
  | direct => rfl
  | delegated => cases hbackend

/-- A delegated mapping that succeeds sends the list that the adapter left, and keeps it
with the context block that the adapter left. -/
theorem map_of_ok (hbackend : mapper.backend = .delegated) {sent : SgList}
    (hanswer : (mapper.map slot packet list adapter).value.answer = .ok sent) :
    (mapper.map slot packet list adapter).value.slotList = sent ∧ ∃ contextGiven context,
      (mapper.map slot packet list adapter).value.mapper.block? slot = some context ∧
        (mapper.map slot packet list adapter).events =
          [.map slot packet contextGiven list.clear (.ok ()) context sent] := by
  cases mapper with
  | direct => cases hbackend
  | delegated contexts =>
      cases hblock : contexts.block? slot with
      | none =>
          simp only [map, hblock] at hanswer
          cases hanswer
      | some context =>
          rw [map_delegated slot packet list adapter hblock] at hanswer ⊢
          dsimp only at hanswer ⊢
          cases hreply : (Adapter.mapTransfer adapter slot packet context list.clear).answer with
          | error =>
              rw [hreply] at hanswer
              cases hanswer
          | ok =>
              rw [hreply] at hanswer
              obtain rfl := Except.ok.inj hanswer
              have hinside := (contexts.isSome_block?_iff slot).mp (by rw [hblock]; rfl)
              exact ⟨rfl, _, _, congrArg (Option.map Vector.toList)
                (contexts.block?_setBlock_self _ hinside), rfl⟩

end Map

section Unmap

variable (mapper : Mapper) (slot : Nat) (list : SgList) (adapter : D)

theorem block?_unmap_of_ne {other : Nat} (hother : other ≠ slot) :
    (mapper.unmap slot list adapter : Traced P _).value.1.block? other = mapper.block? other := by
  cases mapper with
  | direct => rfl
  | delegated contexts =>
      cases hblock : contexts.block? slot with
      | none =>
          simp only [unmap, hblock]
          rfl
      | some context =>
          rw [unmap_delegated slot list adapter hblock]
          exact block?_delegated_setBlock_of_ne contexts _ hother

/-- The adapter gets back the context block as it is, with the list. -/
theorem events_unmap :
    (mapper.unmap slot list adapter : Traced P _).events =
      (mapper.block? slot).toList.map fun context => .unmap slot context list := by
  cases mapper with
  | direct => rfl
  | delegated contexts =>
      change _ = ((contexts.block? slot).map Vector.toList).toList.map _
      cases hblock : contexts.block? slot with
      | none =>
          simp only [unmap, hblock]
          rfl
      | some context =>
          rw [unmap_delegated slot list adapter hblock]
          rfl

end Unmap

end Mapper

end TransmitQueue
