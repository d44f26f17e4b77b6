import TransmitQueue.Proofs.Mapping.Span

/-!
# Splits

What a span comes to when it is cut at every page boundary, written down page by page and
without a walk along the span. The walk gives just these parts, as many of them as there is
room for, and it is left with bytes exactly if the room is less than the number of pages.
-/

namespace TransmitQueue

namespace Page

/-- How many bytes of a span lie before one of its pages, counted from the page that it begins
in. Before that page there are none. -/
def before (start : PhysAddr) (page : Nat) : Nat := page * size - within start

/-- The part of a span that lies in one of its pages, counted from the page that it begins in. -/
def part (start : PhysAddr) (length page : Nat) : SgElement :=
  ⟨start.offset (before start page), min length (before start (page + 1)) - before start page⟩

/-- The parts of a span, one for each page that it touches. -/
def split (start : PhysAddr) (length : Nat) : List SgElement :=
  (List.range (spanned start length)).map (part start length)

@[simp] theorem length_split (start : PhysAddr) (length : Nat) :
    (split start length).length = spanned start length := by
  simp [split]

/-- No part crosses the end of its page. -/
theorem within_part_le (start : PhysAddr) (length page : Nat) :
    within (part start length page).address + (part start length page).length ≤ size := by
  have hlt := within_lt start
  have hmod := within_eq_mod start
  have hwithin : within (start.offset (before start page)) =
      (start.toNat + before start page) % size := by
    rw [within_eq_mod, PhysAddr.toNat_offset]
    exact Nat.mod_mod_of_dvd _ (by decide : size ∣ addressSpace)
  change within (start.offset (before start page)) +
    (min length (before start (page + 1)) - before start page) ≤ size
  rw [hwithin]
  unfold before
  unfold size at *
  omega

section Walk

variable (start : PhysAddr) {length : Nat}

/-- The first part runs from the start of the span to the end of its page, or of the span. -/
theorem part_zero : part start length 0 = ⟨start, min length (remaining start)⟩ := by
  simp [part, before, remaining]

/-- A later part is one of what is left of the span behind its first page. -/
theorem part_succ (hacross : remaining start < length) (page : Nat) :
    part start length (page + 1) =
      part (start.offset (remaining start)) (length - remaining start) page := by
  have hlt := within_lt start
  have hbefore : ∀ later, before start (later + 1) =
      remaining start + before (start.offset (remaining start)) later := by
    intro later
    unfold before
    rw [within_offset_remaining, Nat.succ_mul]
    unfold remaining
    omega
  unfold part
  rw [hbefore page, hbefore (page + 1), PhysAddr.offset_offset]
  congr 1
  omega

/-- A span is the part in its first page, and then what is left of it. -/
theorem split_step (hlength : length ≠ 0) :
    split start length = ⟨start, min length (remaining start)⟩ ::
      split (start.offset (min length (remaining start)))
        (length - min length (remaining start)) := by
  have hcount := spanned_step start hlength
  rw [split, hcount, List.range_succ_eq_map, List.map_cons, List.map_map, part_zero, split]
  congr 1
  by_cases hacross : remaining start < length
  · rw [Nat.min_eq_right (Nat.le_of_lt hacross)]
    exact List.map_congr_left fun page _ => part_succ start hacross page
  · -- A span that ends in its first page has no later part.
    rw [Nat.min_eq_left (Nat.le_of_not_lt hacross), Nat.sub_self]
    rfl

end Walk

end Page

namespace SgElement

/-- The walk along a span finds its parts in order, up to the room that there is. -/
theorem pieces_eq_take (room : Nat) (start : PhysAddr) (length : Nat) :
    (pieces room start length).1 = (Page.split start length).take room := by
  induction room generalizing start length with
  | zero => rfl
  | succ room ih =>
      unfold pieces
      split
      next hlength => rw [hlength]; rfl
      next hlength =>
        rw [Page.split_step start hlength, List.take_succ_cons, ← ih]

/-- The walk leaves nothing over exactly if there is room for every page. -/
theorem pieces_left_eq_zero_iff (room : Nat) (start : PhysAddr) (length : Nat) :
    (pieces room start length).2 = 0 ↔ Page.spanned start length ≤ room := by
  induction room generalizing start length with
  | zero =>
      by_cases hlength : length = 0
      · subst hlength
        exact ⟨fun _ => Nat.le_refl 0, fun _ => rfl⟩
      · rw [Page.spanned_step start hlength]
        exact ⟨fun hleft => absurd hleft hlength,
          fun hroom => absurd hroom (Nat.not_succ_le_zero _)⟩
  | succ room ih =>
      unfold pieces
      split
      next hlength => simp [hlength]
      next hlength =>
        rw [Page.spanned_step start hlength, Nat.add_le_add_iff_right]
        exact ih _ _

/-- The device reads a span, and nothing else, through its parts. -/
theorem cover_split (start : PhysAddr) (length : Nat) :
    Cover (Page.split start length) (start.span length) := by
  obtain ⟨_, _, hcover⟩ := pieces_of_spanned_le (Nat.le_refl (Page.spanned start length))
  rwa [pieces_eq_take, List.take_of_length_le (Nat.le_of_eq (Page.length_split _ _))] at hcover

end SgElement

/-- The parts of a fragment, page by page. -/
def Fragment.parts (fragment : Fragment) : List SgElement :=
  Page.split fragment.physStart fragment.length

/-- The device reads the fragments, one after another, through their parts. -/
theorem SgElement.cover_flatMap_parts (fragments : List Fragment) :
    Cover (fragments.flatMap Fragment.parts) (fragments.flatMap Fragment.addresses) := by
  induction fragments with
  | nil => exact .nil
  | cons fragment rest ih => exact (cover_split _ _).append ih

/-- The analysis counts the parts of the fragments. -/
theorem BounceAnalysis.length_flatMap_parts (fragments : List Fragment) :
    (fragments.flatMap Fragment.parts).length = descriptors fragments := by
  simp only [List.length_flatMap, Fragment.parts, Page.length_split, descriptors,
    List.sum_eq_foldr, List.foldr_map]

namespace SgList

variable (list : SgList)

/-- Appending a span succeeds exactly if there is room for each of its pages. -/
theorem answer_pushSpan (start : PhysAddr) (length : Nat) :
    (list.pushSpan start length).1 =
      if Page.spanned start length ≤ list.room then .ok () else .error .scatterGatherOverflow := by
  simp only [pushSpan, SgElement.pieces_left_eq_zero_iff]

/-- Whether the span fits or not, the list gets the parts that there is room for. -/
theorem elements_pushSpan (start : PhysAddr) (length : Nat) :
    (list.pushSpan start length).2.elements =
      list.elements ++ (Page.split start length).take list.room :=
  congrArg _ (SgElement.pieces_eq_take _ _ _)

/-- The room that a span leaves. -/
theorem room_pushSpan (start : PhysAddr) (length : Nat) :
    (list.pushSpan start length).2.room = list.room - Page.spanned start length := by
  change list.limit - (list.pushSpan start length).2.elements.length = _
  rw [elements_pushSpan, List.length_append, List.length_take, Page.length_split]
  unfold room SgList.length
  omega

/-- Appending fragments succeeds exactly if there is room for each of their pages, and the list
gets the parts that there is room for in either case. -/
theorem pushFragments_eq (fragments : List Fragment) :
    (list.pushFragments fragments).1 =
        (if BounceAnalysis.descriptors fragments ≤ list.room then .ok ()
          else .error .scatterGatherOverflow) ∧
      (list.pushFragments fragments).2.elements =
        list.elements ++ (fragments.flatMap Fragment.parts).take list.room := by
  induction fragments generalizing list with
  | nil => simp [pushFragments, BounceAnalysis.descriptors]
  | cons fragment rest ih =>
      have hanswer := list.answer_pushSpan fragment.physStart fragment.length
      have helements := list.elements_pushSpan fragment.physStart fragment.length
      have hleft := list.room_pushSpan fragment.physStart fragment.length
      have hparts : fragment.parts.length = Page.spanned fragment.physStart fragment.length :=
        Page.length_split _ _
      rw [List.flatMap_cons, List.take_append, hparts, BounceAnalysis.descriptors_cons]
      unfold pushFragments
      rcases hpush : list.pushSpan fragment.physStart fragment.length with ⟨answer, longer⟩
      rw [hpush] at hanswer helements hleft
      dsimp only at hanswer helements hleft
      by_cases hroom : Page.spanned fragment.physStart fragment.length ≤ list.room
      · rw [if_pos hroom] at hanswer
        subst hanswer
        obtain ⟨hrest, hmore⟩ := ih longer
        dsimp only
        rw [hrest, hmore, helements, hleft, List.append_assoc]
        refine ⟨?_, rfl⟩
        simp only [Nat.le_sub_iff_add_le' hroom]
      · -- The fragment fills the list, and the parts of the others find no room.
        rw [if_neg hroom] at hanswer
        subst hanswer
        dsimp only
        rw [helements, if_neg (by omega), Nat.sub_eq_zero_of_le (Nat.le_of_not_le hroom)]
        exact ⟨rfl, by rw [List.take_zero, List.append_nil]; rfl⟩

end SgList

end TransmitQueue
