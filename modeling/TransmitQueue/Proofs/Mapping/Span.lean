import TransmitQueue.Bounce.Analysis
import TransmitQueue.Proofs.Mapping.Shape

/-!
# Spans of memory

A descriptor stands for the byte addresses that the device reads through it. Cutting a
span at page boundaries loses none of its bytes and adds none, and takes as many
descriptors as the analysis counted beforehand.
-/

namespace TransmitQueue

/-- The addresses of the bytes from an address on. -/
def PhysAddr.span (start : PhysAddr) (length : Nat) : List PhysAddr :=
  (List.range length).map start.offset

theorem PhysAddr.span_add (start : PhysAddr) (first second : Nat) :
    start.span (first + second) = start.span first ++ (start.offset first).span second := by
  simp only [span, List.range_add, List.map_append, List.map_map]
  congr 1
  apply List.map_congr_left
  intro index _
  exact (start.offset_offset first index).symm

@[simp] theorem PhysAddr.length_span (start : PhysAddr) (length : Nat) :
    (start.span length).length = length := by
  simp [span]

/-- The addresses of a fragment's bytes. -/
def Fragment.addresses (fragment : Fragment) : List PhysAddr :=
  fragment.physStart.span fragment.length

theorem Packet.length_flatMap_addresses {P : Type} [Packet P] (packet : P) :
    ((fragments packet).flatMap Fragment.addresses).length = totalLength packet := by
  simp only [totalLength, List.length_flatMap, Fragment.addresses, PhysAddr.length_span,
    List.sum_eq_foldr, List.foldr_map]

namespace Page

/-- The page after the one that an address lies in starts where its page ends. -/
theorem within_offset_remaining (start : PhysAddr) :
    within (start.offset (remaining start)) = 0 := by
  have hmod := within_eq_mod start
  have hlt := within_lt start
  rw [within_eq_mod, PhysAddr.toNat_offset]
  unfold remaining addressSpace
  unfold size at *
  omega

/-- A span that leaves its first page touches one page more than its rest. -/
theorem spanned_step (start : PhysAddr) {length : Nat} (hlength : length ≠ 0) :
    spanned start length =
      spanned (start.offset (min length (remaining start)))
        (length - min length (remaining start)) + 1 := by
  have hlt := within_lt start
  rcases Nat.le_total length (remaining start) with hinside | hacross
  · rw [Nat.min_eq_left hinside, Nat.sub_self, spanned_zero, spanned, if_neg hlength]
    unfold remaining at hinside
    unfold size at *
    omega
  · rw [Nat.min_eq_right hacross]
    have hpos := remaining_pos start
    have hstart := within_offset_remaining start
    unfold spanned
    rw [if_neg hlength, hstart]
    unfold remaining at *
    unfold size at *
    split <;> omega

end Page

/-- The addresses of the bytes that the device reads through a descriptor. -/
def SgElement.addresses (element : SgElement) : List PhysAddr :=
  element.address.span element.length

theorem SgList.length_flatMap_addresses (list : SgList) :
    (list.elements.flatMap SgElement.addresses).length = list.totalLength := by
  simp only [totalLength, List.length_flatMap, SgElement.addresses, PhysAddr.length_span,
    List.sum_eq_foldr, List.foldr_map]

namespace SgElement

/-- Descriptors through which the device reads given addresses, and nothing else. -/
structure Cover (elements : List SgElement) (addresses : List PhysAddr) : Prop where
  nonempty : ∀ element ∈ elements, element.length ≠ 0
  flatMap_addresses : elements.flatMap SgElement.addresses = addresses

theorem Cover.nil : Cover [] [] := ⟨nofun, rfl⟩

theorem Cover.singleton {element : SgElement} (hlength : element.length ≠ 0) :
    Cover [element] element.addresses where
  nonempty other hother := by rwa [List.mem_singleton.mp hother]
  flatMap_addresses := List.append_nil _

theorem Cover.append {first second : List SgElement} {before after : List PhysAddr}
    (hfirst : Cover first before) (hsecond : Cover second after) :
    Cover (first ++ second) (before ++ after) where
  nonempty element helement := by
    rcases List.mem_append.mp helement with hleft | hright
    · exact hfirst.nonempty element hleft
    · exact hsecond.nonempty element hright
  flatMap_addresses := by
    rw [List.flatMap_append, hfirst.flatMap_addresses, hsecond.flatMap_addresses]

/-- Where there is room for every page that a span touches, the pieces of the span are
one for each page, and nothing is left over. -/
theorem pieces_of_spanned_le {room : Nat} {start : PhysAddr} {length : Nat}
    (hroom : Page.spanned start length ≤ room) :
    (pieces room start length).2 = 0 ∧
      (pieces room start length).1.length = Page.spanned start length ∧
      Cover (pieces room start length).1 (start.span length) := by
  induction room generalizing start length with
  | zero =>
      by_cases hlength : length = 0
      · subst hlength
        exact ⟨rfl, rfl, .nil⟩
      · rw [Page.spanned_step start hlength] at hroom
        omega
  | succ room ih =>
      unfold pieces
      by_cases hlength : length = 0
      · subst hlength
        exact ⟨rfl, rfl, .nil⟩
      · have hstep := Page.spanned_step start hlength
        have hpos := Page.remaining_pos start
        rw [if_neg hlength]
        dsimp only
        -- The first piece takes one page, and the rest of the span one page less than before.
        have hsplit : length = min length (Page.remaining start) +
            (length - min length (Page.remaining start)) := by omega
        obtain ⟨hleft, hcount, hcover⟩ := ih (by omega :
          Page.spanned (start.offset (min length (Page.remaining start)))
            (length - min length (Page.remaining start)) ≤ room)
        refine ⟨hleft, by rw [List.length_cons, hcount, hstep], ?_⟩
        have hfirst : Cover [⟨start, min length (Page.remaining start)⟩]
            (start.span (min length (Page.remaining start))) :=
          .singleton (by dsimp only; omega)
        -- The rest starts where the first piece ends, so the two cover the span.
        have hboth := hfirst.append hcover
        rwa [← PhysAddr.span_add, ← hsplit] at hboth

end SgElement

namespace SgList

/-- Appending a span for whose pages the list has room. -/
theorem pushSpan_of_spanned_le (list : SgList) (start : PhysAddr) (length : Nat)
    (hroom : list.length + Page.spanned start length ≤ list.limit) :
    ∃ longer, list.pushSpan start length = (.ok (), longer) ∧ longer.limit = list.limit ∧
      longer.length = list.length + Page.spanned start length ∧
      ∃ more, longer.elements = list.elements ++ more ∧
        SgElement.Cover more (start.span length) := by
  have hspan : Page.spanned start length ≤ list.room := by
    unfold room
    omega
  obtain ⟨hleft, hcount, hcover⟩ := SgElement.pieces_of_spanned_le hspan
  refine ⟨(list.pushSpan start length).2, ?_, limit_pushSpan list start length, ?_, _, rfl,
    hcover⟩
  · simp only [pushSpan, hleft, if_true]
  · change (list.elements ++ _).length = _
    rw [List.length_append, hcount]
    rfl

/-- Appending fragments for whose pages the list has room. -/
theorem pushFragments_of_descriptors_le (list : SgList) (fragments : List Fragment)
    (hroom : list.length + BounceAnalysis.descriptors fragments ≤ list.limit) :
    ∃ longer, list.pushFragments fragments = (.ok (), longer) ∧
      longer.length = list.length + BounceAnalysis.descriptors fragments ∧
      ∃ more, longer.elements = list.elements ++ more ∧
        SgElement.Cover more (fragments.flatMap Fragment.addresses) := by
  induction fragments generalizing list with
  | nil => exact ⟨list, rfl, rfl, [], (List.append_nil _).symm, .nil⟩
  | cons fragment rest ih =>
      rw [BounceAnalysis.descriptors_cons] at hroom ⊢
      obtain ⟨longer, hpush, hlimit, hlength, first, hfirst, hcover⟩ :=
        list.pushSpan_of_spanned_le fragment.physStart fragment.length (by omega)
      obtain ⟨full, hpushed, hfull, second, hsecond, hcovered⟩ := ih longer (by omega)
      refine ⟨full, ?_, by omega, first ++ second, ?_, ?_⟩
      · rw [pushFragments, hpush]
        exact hpushed
      · rw [hsecond, hfirst, List.append_assoc]
      · rw [List.flatMap_cons]
        exact hcover.append hcovered

end SgList

/-- A direct mapping within the descriptor budget reads a packet's fragments where they
lie. What the shared list held before is gone. -/
theorem Mapper.mapDirect_of_descriptors_le {P : Type} [Packet P] {scratch : SgList} {packet : P}
    (hroom : BounceAnalysis.descriptors (Packet.fragments packet) ≤ scratch.limit) :
    ∃ list, (mapDirect scratch packet).1 = .ok list ∧
      list.length = BounceAnalysis.descriptors (Packet.fragments packet) ∧
      SgElement.Cover list.elements ((Packet.fragments packet).flatMap Fragment.addresses) := by
  obtain ⟨list, hpush, hlength, more, hmore, hcover⟩ :=
    scratch.clear.pushFragments_of_descriptors_le (Packet.fragments packet) (by
        rw [SgList.limit_clear]
        exact Nat.le_trans (Nat.le_of_eq (Nat.zero_add _)) hroom)
  rw [SgList.elements_clear, List.nil_append] at hmore
  refine ⟨list, ?_, hlength.trans (Nat.zero_add _), hmore ▸ hcover⟩
  rw [mapDirect_answer, hpush]
  rfl

end TransmitQueue
