import Mathlib.Algebra.GroupWithZero.Nat
import Mathlib.Data.Finset.Card
import TransmitQueue.Proofs.Queue.Decision

/-!
# The rules of the analysis

The analysis walks over the fragments of a packet and counts as it goes. What it decides can be
said of the packet as it is laid out, position by position, and of addresses as they are, where
sums are exact.
-/

namespace TransmitQueue

/-- The numbers of the pages in which a fragment has a byte. -/
def Fragment.pages (fragment : Fragment) : Finset Nat :=
  (Finset.range fragment.length).image fun byte =>
    (fragment.physStart.toNat + byte) / Page.size

/-- The rules for a fragment that is to be read where it lies, at a position of its packet. -/
structure Config.AllowsInPlace {P : Type} [Packet P] (config : Config) (packet : P)
    (position : Nat) (fragment : Fragment) : Prop where
  /-- Nothing is left out before the fragment. -/
  start_eq : fragment.start = 0 ∨ ∀ earlier < position, Packet.fragment? packet earlier = none
  /-- Nothing is left out behind it, unless nothing follows and the packet has no holes. -/
  consumed : fragment.start + fragment.length = fragment.region.length ∨
    position + 1 = Packet.fragmentCount packet ∧
      ∀ other < Packet.fragmentCount packet, (Packet.fragment? packet other).isSome = true
  aligned : config.alignment.isAligned fragment.physStart = true
  reached : ∀ highest, config.maxAddress? = some highest →
    fragment.physStart.toNat + max fragment.length 1 - 1 ≤ highest

/-- Limits that leave no more room than others in any respect. -/
structure BounceLimits.Tightens (tight limits : BounceLimits) : Prop where
  size_le : tight.maximumPacketSize ≤ limits.maximumPacketSize
  elements_le : tight.maximumElements ≤ limits.maximumElements
  aligned : ∀ address, tight.alignment.isAligned address = true →
    limits.alignment.isAligned address = true
  reached : ∀ highest, limits.maxAddress? = some highest →
    ∃ lower, tight.maxAddress? = some lower ∧ lower ≤ highest

section Pages

/-- The pages touched from an address on are those from the first to the last. -/
theorem image_page_eq (start length : Nat) (hlength : 0 < length) :
    ((Finset.range length).image fun byte => (start + byte) / Page.size) =
      (Finset.range ((start + (length - 1)) / Page.size + 1 - start / Page.size)).image
        (start / Page.size + ·) := by
  unfold Page.size
  ext page
  simp only [Finset.mem_image, Finset.mem_range]
  constructor
  · rintro ⟨byte, hbyte, rfl⟩
    have hfirst : start / 4096 ≤ (start + byte) / 4096 := Nat.div_le_div_right (by omega)
    have hlast : (start + byte) / 4096 ≤ (start + (length - 1)) / 4096 :=
      Nat.div_le_div_right (by omega)
    exact ⟨(start + byte) / 4096 - start / 4096, by omega, by omega⟩
  · rintro ⟨distance, hdistance, rfl⟩
    -- The page has the byte at its own start, or the first byte of all.
    refine ⟨max start ((start / 4096 + distance) * 4096) - start, ?_, ?_⟩ <;> omega

theorem Fragment.card_pages (fragment : Fragment) :
    fragment.pages.card = Page.spanned fragment.physStart fragment.length := by
  unfold Fragment.pages Page.spanned
  split
  next hempty => rw [hempty]; rfl
  next hlength =>
    rw [image_page_eq _ _ (Nat.pos_of_ne_zero hlength),
      Finset.card_image_of_injective _ fun _ _ => Nat.add_left_cancel, Finset.card_range,
      Page.within_eq_mod]
    unfold Page.size
    omega

end Pages

section Positions

/-- A sum over the items that are there is one over all positions. -/
theorem foldr_filterMap_id {α : Type} (value : α → Nat) (layout : List (Option α)) :
    (layout.filterMap id).foldr (fun item rest => value item + rest) 0 =
      ((List.range layout.length).map fun position =>
        (layout[position]?.join).elim 0 value).sum := by
  induction layout with
  | nil => rfl
  | cons head rest ih =>
      rw [List.length_cons, List.range_succ_eq_map, List.map_cons, List.sum_cons, List.map_map]
      simp only [Function.comp_def, List.getElem?_cons_succ, List.getElem?_cons_zero, ← ih]
      cases head with
      | none => exact (Nat.zero_add _).symm
      | some item => rfl

/-- The place of an item among those that are there is the number of items before it. -/
theorem forall_zipIdx_filterMap_id {α : Type} (Holds : α → Nat → Prop)
    (layout : List (Option α)) (first : Nat) :
    (∀ entry ∈ (layout.filterMap id).zipIdx first, Holds entry.1 entry.2) ↔
      ∀ position item, layout[position]? = some (some item) →
        Holds item (first + ((layout.take position).filterMap id).length) := by
  induction layout generalizing first with
  | nil => simp
  | cons head rest ih =>
      rw [← Nat.and_forall_add_one]
      cases head with
      | none =>
          refine (ih first).trans ⟨fun hrest => ⟨fun item hitem => ?_, hrest⟩, And.right⟩
          cases Option.some.inj hitem
      | some item =>
          have hcons : ∀ items : List (Option α),
              (some item :: items).filterMap id = item :: items.filterMap id := fun _ => rfl
          rw [hcons, List.zipIdx_cons, List.forall_mem_cons, ih]
          refine and_congr ?_ (forall_congr' fun position => forall_congr' fun other => ?_)
          · constructor
            · intro hfirst other hother
              obtain rfl : item = other := Option.some.inj (Option.some.inj hother)
              exact hfirst
            · exact fun hall => hall item rfl
          · have hcount : first + (((some item :: rest).take (position + 1)).filterMap id).length =
                first + 1 + ((rest.take position).filterMap id).length := by
              rw [List.take_succ_cons, hcons, List.length_cons]
              omega
            rw [hcount]
            rfl

/-- A list is as long as its part that is there exactly if nothing is missing. -/
theorem length_filterMap_id_eq_iff {α : Type} (layout : List (Option α)) :
    (layout.filterMap id).length = layout.length ↔
      ∀ position < layout.length, (layout[position]?.join).isSome = true := by
  rw [List.length_filterMap_eq_countP, List.countP_eq_length]
  constructor
  · intro hall position hposition
    rw [List.getElem?_eq_getElem hposition]
    exact hall _ (List.getElem_mem hposition)
  · intro hall item hitem
    obtain ⟨position, hposition, rfl⟩ := List.getElem_of_mem hitem
    have hthere := hall position hposition
    rwa [List.getElem?_eq_getElem hposition] at hthere

end Positions

namespace Packet

variable {P : Type} [Packet P] (packet : P)

/-- The number of fragments before a position. -/
def visibleBefore (position : Nat) : Nat := (((layout packet).take position).filterMap id).length

variable {packet}

theorem fragment?_eq_some_iff {position : Nat} {fragment : Fragment} :
    fragment? packet position = some fragment ↔
      (layout packet)[position]? = some (some fragment) := Option.join_eq_some_iff

theorem fragment?_eq_of_lt {earlier position : Nat} (hearlier : earlier < position) :
    ((layout packet).take position)[earlier]?.join = fragment? packet earlier := by
  rw [List.getElem?_take_of_lt hearlier]
  rfl

theorem visibleBefore_eq_zero_iff {position : Nat} : visibleBefore packet position = 0 ↔
    ∀ earlier < position, fragment? packet earlier = none := by
  unfold visibleBefore
  rw [List.length_eq_zero_iff, List.filterMap_eq_nil_iff]
  constructor
  · intro hnone earlier hearlier
    rw [← fragment?_eq_of_lt hearlier]
    cases hitem : ((layout packet).take position)[earlier]? with
    | none => rfl
    | some item => exact hnone item (List.mem_of_getElem? hitem)
  · intro hnone item hitem
    obtain ⟨earlier, hbefore⟩ := List.mem_iff_getElem?.mp hitem
    have hearlier : earlier < position := by
      have hlength := (List.getElem?_eq_some_iff.mp hbefore).1
      exact Nat.lt_of_lt_of_le hlength (List.length_take_le _ _)
    have hfragment := hnone earlier hearlier
    rw [← fragment?_eq_of_lt hearlier, hbefore] at hfragment
    exact hfragment

/-- A fragment is the last of as many as there are positions only in a packet without holes. -/
theorem visibleBefore_succ_eq_iff {position : Nat} {fragment : Fragment}
    (hfragment : fragment? packet position = some fragment) :
    visibleBefore packet position + 1 = fragmentCount packet ↔
      position + 1 = fragmentCount packet ∧
        ∀ other < fragmentCount packet, (fragment? packet other).isSome = true := by
  have hposition : position < fragmentCount packet :=
    (List.getElem?_eq_some_iff.mp (fragment?_eq_some_iff.mp hfragment)).1
  have hlength : ((layout packet).take position).length = position :=
    List.length_take_of_le (Nat.le_of_lt hposition)
  have hbefore : visibleBefore packet position ≤ position :=
    Nat.le_trans (List.length_filterMap_le id _) (Nat.le_of_eq hlength)
  have hall : visibleBefore packet position = position ↔
      ∀ earlier < position, (fragment? packet earlier).isSome = true := by
    have hiff := length_filterMap_id_eq_iff ((layout packet).take position)
    rw [hlength] at hiff
    refine hiff.trans (forall_congr' fun earlier => forall_congr' fun hearlier => ?_)
    rw [fragment?_eq_of_lt hearlier]
  constructor
  · intro hlast
    refine ⟨by omega, fun other hother => ?_⟩
    rcases Nat.lt_or_ge other position with hearlier | hlater
    · exact hall.mp (by omega) other hearlier
    · rw [show other = position by omega, hfragment]
      rfl
  · rintro ⟨hlast, hthere⟩
    rw [hall.mpr fun earlier hearlier => hthere earlier (by omega), hlast]

end Packet

/-- One decision is as strict as another if it refuses and copies at least as much. -/
theorem BounceDecision.rank_le_rank_of {first second : BounceDecision}
    (hnever : first = .cannotTransmit → second = .cannotTransmit)
    (hplace : second = .transmitInPlace → first = .transmitInPlace) :
    first.rank ≤ second.rank := by
  cases first with
  | transmitInPlace => exact Nat.zero_le _
  | cannotTransmit => rw [hnever rfl]
  | transmitAfterBouncing =>
      cases second with
      | transmitInPlace => cases hplace rfl
      | transmitAfterBouncing => exact Nat.le_refl _
      | cannotTransmit => exact Nat.le_succ _

namespace BounceAnalysis

variable {P Q : Type} [Packet P] [Packet Q] {packet : P} {config : Config}
  {limits tight : BounceLimits}

/-- The end of the address space is above every limit, so the sum can be taken as it is. -/
theorem isBeyondReach_eq_false_iff {fragment : Fragment} :
    (BounceLimits.ofConfig config).isBeyondReach fragment = false ↔
      ∀ highest, config.maxAddress? = some highest →
        fragment.physStart.toNat + max fragment.length 1 - 1 ≤ highest := by
  unfold BounceLimits.isBeyondReach BounceLimits.ofConfig
  cases hreach : config.maxAddress? with
  | none => simp
  | some highest =>
      have hlast := Config.maxAddress?_lt hreach
      simp only [decide_eq_false_iff_not, Option.some.injEq, forall_eq']
      omega

theorem forcesCopy_eq_false_iff {position : Nat} {fragment : Fragment}
    (hfragment : Packet.fragment? packet position = some fragment) :
    (BounceLimits.ofConfig config).forcesCopy (Packet.visibleBefore packet position == 0)
        (Packet.visibleBefore packet position + 1 == Packet.fragmentCount packet) fragment = false ↔
      config.AllowsInPlace packet position fragment := by
  have hreach : (BounceLimits.ofConfig config).isBeyondReach fragment = false ↔ _ :=
    isBeyondReach_eq_false_iff
  unfold BounceLimits.forcesCopy Fragment.consumesRegion
  simp only [Bool.or_eq_false_iff, Bool.and_eq_false_iff, Bool.not_eq_false', beq_iff_eq,
    bne_eq_false_iff_eq, Packet.visibleBefore_eq_zero_iff,
    Packet.visibleBefore_succ_eq_iff hfragment, hreach]
  constructor
  · rintro ⟨⟨⟨hfirst, hlast⟩, haligned⟩, hreached⟩
    exact ⟨hfirst.symm, hlast.symm, haligned, hreached⟩
  · rintro ⟨hfirst, hlast, haligned, hreached⟩
    exact ⟨⟨⟨hfirst.symm, hlast.symm⟩, haligned⟩, hreached⟩

theorem needsCopy_eq_false_iff :
    needsCopy (.ofConfig config) (Packet.fragmentCount packet) (Packet.fragments packet) = false ↔
      ∀ position fragment, Packet.fragment? packet position = some fragment →
        config.AllowsInPlace packet position fragment := by
  have hplaces := forall_zipIdx_filterMap_id
    (fun fragment index => (BounceLimits.ofConfig config).forcesCopy (index == 0)
      (index + 1 == Packet.fragmentCount packet) fragment = false) (Packet.layout packet) 0
  unfold needsCopy
  rw [List.any_eq_false]
  refine Iff.trans ?_ (hplaces.trans ?_)
  · exact forall_congr' fun entry => imp_congr_right fun _ => by rw [Bool.not_eq_true]
  · refine forall_congr' fun position => forall_congr' fun fragment => ?_
    rw [Nat.zero_add, ← Packet.fragment?_eq_some_iff]
    exact imp_congr_right forcesCopy_eq_false_iff

theorem classify_eq_cannotTransmit_iff {totalLength descriptorCount : Nat} {needsBounce : Bool} :
    classify limits totalLength descriptorCount needsBounce = .cannotTransmit ↔
      totalLength = 0 ∨ limits.maximumPacketSize < totalLength := by
  unfold classify
  split
  next hsize => exact iff_of_true rfl hsize.symm
  next hsize =>
    refine iff_of_false ?_ fun hother => hsize hother.symm
    split <;> nofun

theorem classify_eq_transmitInPlace_iff {totalLength descriptorCount : Nat} {needsBounce : Bool} :
    classify limits totalLength descriptorCount needsBounce = .transmitInPlace ↔
      0 < totalLength ∧ totalLength ≤ limits.maximumPacketSize ∧
        descriptorCount ≤ limits.maximumElements ∧ needsBounce = false := by
  constructor
  · intro hplace
    have hsent : classify limits totalLength descriptorCount needsBounce ≠ .cannotTransmit := by
      rw [hplace]
      nofun
    obtain ⟨hcopy, hcount⟩ := classify_eq_transmitInPlace hplace
    obtain ⟨hsome, hsize⟩ := classify_ne_cannotTransmit hsent
    exact ⟨hsome, hsize, hcount, hcopy⟩
  · rintro ⟨hsome, hsize, hcount, rfl⟩
    unfold classify
    rw [if_neg (by omega), if_neg (by simpa using hcount)]

section Tightens

variable (htight : tight.Tightens limits)
include htight

theorem isBeyondReach_of_tightens {fragment : Fragment}
    (hbeyond : limits.isBeyondReach fragment = true) : tight.isBeyondReach fragment = true := by
  unfold BounceLimits.isBeyondReach at hbeyond ⊢
  cases hreach : limits.maxAddress? with
  | none =>
      rw [hreach] at hbeyond
      cases hbeyond
  | some highest =>
      obtain ⟨lower, hlower, hle⟩ := htight.reached highest hreach
      rw [hreach] at hbeyond
      rw [hlower]
      exact decide_eq_true (Nat.lt_of_le_of_lt hle (of_decide_eq_true hbeyond))

/-- What keeps a fragment from being read in place does so under tighter limits, the more if the
fragment is no longer the last. -/
theorem forcesCopy_of_tightens {isFirst isLast wasLast : Bool} {fragment : Fragment}
    (hlast : isLast = true → wasLast = true)
    (hforces : limits.forcesCopy isFirst wasLast fragment = true) :
    tight.forcesCopy isFirst isLast fragment = true := by
  unfold BounceLimits.forcesCopy at hforces ⊢
  simp only [Bool.or_eq_true, Bool.and_eq_true, Bool.not_eq_true'] at hforces ⊢
  rcases hforces with ((hfirst | ⟨hwas, hrest⟩) | hmisaligned) | hbeyond
  · exact Or.inl (Or.inl (Or.inl hfirst))
  · have hnot : isLast = false := Bool.eq_false_iff.mpr fun heq => by simp [hlast heq] at hwas
    exact Or.inl (Or.inl (Or.inr ⟨hnot, hrest⟩))
  · have hnot : tight.alignment.isAligned fragment.physStart = false :=
      Bool.eq_false_iff.mpr fun heq => by simp [htight.aligned _ heq] at hmisaligned
    exact Or.inl (Or.inr hnot)
  · exact Or.inr (isBeyondReach_of_tightens htight hbeyond)

/-- With more positions, no fragment becomes the last. -/
theorem needsCopy_of_tightens {fragments : List Fragment} {count more : Nat}
    (hcount : fragments.length ≤ count) (hmore : count ≤ more)
    (hcopy : needsCopy limits count fragments = true) : needsCopy tight more fragments = true := by
  unfold needsCopy at hcopy ⊢
  obtain ⟨⟨fragment, index⟩, hplace, hforces⟩ := List.any_eq_true.mp hcopy
  have hindex : index < fragments.length :=
    (List.getElem?_eq_some_iff.mp (List.mem_zipIdx_iff_getElem?.mp hplace)).1
  refine List.any_eq_true.mpr ⟨(fragment, index), hplace, ?_⟩
  refine forcesCopy_of_tightens htight (fun hlast => ?_) hforces
  rw [beq_iff_eq] at hlast ⊢
  omega

theorem rank_classify_le {totalLength descriptorCount : Nat} {copied copies : Bool}
    (hcopy : copied = true → copies = true) :
    (classify limits totalLength descriptorCount copied).rank ≤
      (classify tight totalLength descriptorCount copies).rank := by
  have hsize := htight.size_le
  have hcount := htight.elements_le
  refine BounceDecision.rank_le_rank_of (fun hnever => ?_) fun hplace => ?_
  · rw [classify_eq_cannotTransmit_iff] at hnever ⊢
    omega
  · rw [classify_eq_transmitInPlace_iff] at hplace ⊢
    obtain ⟨hsome, hfits, hfew, rfl⟩ := hplace
    exact ⟨hsome, Nat.le_trans hfits hsize, Nat.le_trans hfew hcount,
      Bool.eq_false_iff.mpr fun heq => Bool.false_ne_true (hcopy heq)⟩

/-- Neither tighter limits nor more holes make a decision more permissive. -/
theorem rank_ofPacket_le {other : Q}
    (hfragments : Packet.fragments other = Packet.fragments packet)
    (hholes : Packet.fragmentCount packet ≤ Packet.fragmentCount other) :
    (ofPacket limits packet).decision.rank ≤ (ofPacket tight other).decision.rank := by
  have hlength : Packet.totalLength other = Packet.totalLength packet := by
    rw [Packet.totalLength, hfragments]
    rfl
  unfold ofPacket
  rw [hfragments, hlength]
  exact rank_classify_le htight
    (needsCopy_of_tightens htight (Packet.length_fragments_le packet) hholes)

end Tightens

/-- The analysis decides by the rules, whatever the layout of the packet. Its sums are over the
fragments that are there, with a descriptor for every page of each; a packet without payload or
too large is never sent; one that is read in place meets the descriptor limit and every rule at
every position; and any other one is copied. So more holes or tighter limits never make the
decision more permissive. -/
theorem decided_by_rules (config : Config) (packet : P) :
    let analysis := ofPacket (.ofConfig config) packet
    let positions := List.range (Packet.fragmentCount packet)
    analysis.totalLength =
        (positions.map fun position =>
          (Packet.fragment? packet position).elim 0 Fragment.length).sum ∧
      analysis.descriptorCount =
        (positions.map fun position =>
          (Packet.fragment? packet position).elim 0 fun fragment => fragment.pages.card).sum ∧
      (analysis.decision = .cannotTransmit ↔
        analysis.totalLength = 0 ∨ config.maximumPacketSize < analysis.totalLength) ∧
      (analysis.decision = .transmitInPlace ↔
        0 < analysis.totalLength ∧ analysis.totalLength ≤ config.maximumPacketSize ∧
          analysis.descriptorCount ≤ config.elementLimit ∧
          ∀ position fragment, Packet.fragment? packet position = some fragment →
            config.AllowsInPlace packet position fragment) ∧
      (analysis.decision = .transmitAfterBouncing ↔
        analysis.decision ≠ .cannotTransmit ∧ analysis.decision ≠ .transmitInPlace) ∧
      ∀ (limits tight : BounceLimits) (other : Q), tight.Tightens limits →
        Packet.fragments other = Packet.fragments packet →
        Packet.fragmentCount packet ≤ Packet.fragmentCount other →
        (ofPacket limits packet).decision.rank ≤ (ofPacket tight other).decision.rank := by
  refine ⟨foldr_filterMap_id _ _, ?_, classify_eq_cannotTransmit_iff, ?_, ?_,
    fun _ _ _ htight => rank_ofPacket_le htight⟩
  · simp only [Fragment.card_pages]
    exact foldr_filterMap_id _ _
  · rw [← needsCopy_eq_false_iff]
    exact classify_eq_transmitInPlace_iff
  · cases (ofPacket (.ofConfig config) packet).decision <;> simp

/-- The last byte may lie at the highest address, and no byte above it. -/
example :
    let config : Config := { maximumPacketSize := 4, addressWidth := 32 }
    let region : Bytes := [1, 2, 3, 4]
    (ofPacket (.ofConfig config) [some (Fragment.ofRegion region ⟨0xFFFFFFFC⟩)]).decision =
        .transmitInPlace ∧
      (ofPacket (.ofConfig config) [some (Fragment.ofRegion region ⟨0xFFFFFFFD⟩)]).decision =
        .transmitAfterBouncing := by
  decide +kernel

end BounceAnalysis

end TransmitQueue
