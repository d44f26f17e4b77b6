import Mathlib.Algebra.GroupWithZero.Nat
import TransmitQueue.Proofs.Mapping.Split

/-!
# Spans, page by page

What a span comes to when it is cut at page boundaries, told by what the elements are like and
not by how they are found: they follow each other from the start of the span to its end, each
lies in one page, and each but the last goes to the end of its page. Just one list is like that.
A list takes it in whole or up to its own limit, and the walk that pushes element after element
does the same.
-/

namespace TransmitQueue

namespace SgElement

/-- Elements that follow each other from an address on, each beginning where the one before it
ends. -/
def Consecutive (start : PhysAddr) : List SgElement → Prop
  | [] => True
  | element :: rest => element.address = start ∧ Consecutive (start.offset element.length) rest

/-- The elements that a span comes to, page by page. -/
structure PageWise (start : PhysAddr) (length : Nat) (elements : List SgElement) : Prop where
  consecutive : Consecutive start elements
  pos : ∀ element ∈ elements, 0 < element.length
  sum_length : (elements.map SgElement.length).sum = length
  /-- No element crosses the end of its page. -/
  inside : ∀ element ∈ elements, Page.within element.address + element.length ≤ Page.size
  /-- The end of every element but the last is the start of a page. -/
  ends : ∀ element ∈ elements.dropLast,
    Page.within (element.address.offset element.length) = 0

theorem pageWise_nil_iff {start : PhysAddr} {length : Nat} :
    PageWise start length [] ↔ length = 0 :=
  ⟨fun hparts => hparts.sum_length.symm, fun hlength => ⟨trivial, nofun, hlength.symm, nofun,
    nofun⟩⟩

/-- An element that stays in its page and ends at the start of a page takes the rest of its
page. -/
theorem length_eq_remaining {address : PhysAddr} {length : Nat} (hpos : 0 < length)
    (hinside : Page.within address + length ≤ Page.size)
    (hend : Page.within (address.offset length) = 0) : length = Page.remaining address := by
  have hmod := Page.within_eq_mod address
  rw [Page.within_eq_mod, PhysAddr.toNat_offset,
    Nat.mod_mod_of_dvd _ (by decide : Page.size ∣ addressSpace)] at hend
  unfold Page.remaining
  unfold Page.size at *
  omega

/-- The first element of a span takes what there is of the span up to the end of its page, and
the others are those of what is left. -/
theorem pageWise_cons_iff {start : PhysAddr} {length : Nat} {element : SgElement}
    {rest : List SgElement} :
    PageWise start length (element :: rest) ↔
      length ≠ 0 ∧ element = ⟨start, min length (Page.remaining start)⟩ ∧
        PageWise (start.offset (min length (Page.remaining start)))
          (length - min length (Page.remaining start)) rest := by
  have hpage := Page.remaining_pos start
  have hremaining : Page.within start + Page.remaining start = Page.size :=
    Nat.add_sub_cancel' (Nat.le_of_lt (Page.within_lt start))
  constructor
  · rintro ⟨⟨haddress, hconsecutive⟩, hpos, hsum, hinside, hends⟩
    obtain ⟨address, first⟩ := element
    obtain rfl : address = start := haddress
    obtain ⟨hfirst, hpos⟩ := List.forall_mem_cons.mp hpos
    obtain ⟨hstays, hinside⟩ := List.forall_mem_cons.mp hinside
    rw [List.map_cons, List.sum_cons] at hsum
    dsimp only at hfirst hstays hsum
    have hlength : first = min length (Page.remaining address) := by
      cases rest with
      | nil =>
          rw [List.map_nil, List.sum_nil] at hsum
          omega
      | cons next others =>
          have hend : Page.within (address.offset first) = 0 :=
            hends ⟨address, first⟩ List.mem_cons_self
          have hfull := length_eq_remaining hfirst hstays hend
          omega
    refine ⟨by omega, by rw [← hlength], ?_⟩
    rw [← hlength]
    refine ⟨hconsecutive, hpos, by omega, hinside, fun later hlater => ?_⟩
    cases rest with
    | nil => cases hlater
    | cons next others => exact hends later (List.mem_cons_of_mem _ hlater)
  · rintro ⟨hlength, rfl, hrest⟩
    obtain ⟨hconsecutive, hpos, hsum, hinside, hends⟩ := hrest
    refine ⟨⟨rfl, hconsecutive⟩, List.forall_mem_cons.mpr ⟨?_, hpos⟩, ?_,
      List.forall_mem_cons.mpr ⟨?_, hinside⟩, ?_⟩
    · dsimp only
      omega
    · rw [List.map_cons, List.sum_cons, hsum]
      dsimp only
      omega
    · dsimp only
      omega
    · cases rest with
      | nil => nofun
      | cons next others =>
          -- Bytes are left behind the first element, so it goes to the end of its page.
          have hnext := hpos next List.mem_cons_self
          rw [List.map_cons, List.sum_cons] at hsum
          have hacross : min length (Page.remaining start) = Page.remaining start := by omega
          refine List.forall_mem_cons.mpr ⟨?_, hends⟩
          dsimp only
          rw [hacross]
          exact Page.within_offset_remaining start

/-- Just one list of elements is what a span comes to, page by page. -/
theorem pageWise_iff {start : PhysAddr} {length : Nat} {elements : List SgElement} :
    PageWise start length elements ↔ elements = Page.split start length := by
  induction elements generalizing start length with
  | nil =>
      rw [pageWise_nil_iff]
      constructor
      · rintro rfl
        rfl
      · intro hnone
        refine Decidable.byContradiction fun hlength => ?_
        rw [Page.split_step start hlength] at hnone
        cases hnone
  | cons element rest ih =>
      rw [pageWise_cons_iff, ih]
      constructor
      · rintro ⟨hlength, rfl, rfl⟩
        exact (Page.split_step start hlength).symm
      · intro hparts
        have hlength : length ≠ 0 := by
          rintro rfl
          cases hparts
        rw [Page.split_step start hlength] at hparts
        exact ⟨hlength, List.cons.inj hparts⟩

end SgElement

namespace SgList

/-- What is asked of a list. -/
inductive Request where
  | push (address : PhysAddr) (length : Nat)
  | pushSpan (start : PhysAddr) (length : Nat)
  | clear

/-- The list after a request, whether it was granted or not. -/
def serve (list : SgList) : Request → SgList
  | .push address length => (list.push address length).2
  | .pushSpan start length => (list.pushSpan start length).2
  | .clear => list.clear

/-- The list after requests made one after another. -/
def serveAll (list : SgList) (requests : List Request) : SgList := requests.foldl serve list

variable (list : SgList)

theorem limit_serve (request : Request) : (list.serve request).limit = list.limit := by
  cases request with
  | push address length =>
      unfold serve push
      dsimp only
      split <;> rfl
  | pushSpan start length => rfl
  | clear => rfl

theorem limit_serveAll (requests : List Request) :
    (list.serveAll requests).limit = list.limit := by
  induction requests generalizing list with
  | nil => rfl
  | cons request rest ih => exact (ih (list.serve request)).trans (list.limit_serve request)

/-- The walk along a span: as long as bytes are left, the element that goes to the end of the
page is pushed. The first that the list refuses ends it. -/
def pushPages (list : SgList) (address : PhysAddr) (left : Nat) : Except DmaError Unit × SgList :=
  if left = 0 then (.ok (), list)
  else
    match list.push address (min left (Page.remaining address)) with
    | (.ok (), longer) =>
        longer.pushPages (address.offset (min left (Page.remaining address)))
          (left - min left (Page.remaining address))
    | (.error error, full) => (.error error, full)
termination_by left
decreasing_by
  have hpos := Page.remaining_pos address
  omega

theorem room_append_singleton (element : SgElement) (hroom : [element].length ≤ list.room) :
    (list.append [element] hroom).room + 1 = list.room := by
  have hpos : 1 ≤ list.limit - list.elements.length := hroom
  change list.limit - (list.elements ++ [element]).length + 1 =
    list.limit - list.elements.length
  rw [List.length_append, List.length_singleton]
  omega

/-- The walk leaves the list, and answers, as appending the parts that there is room for. -/
theorem pushPages_eq_pushSpan (start : PhysAddr) (length : Nat) :
    list.pushPages start length = list.pushSpan start length := by
  induction length using Nat.strongRecOn generalizing list start with
  | ind length ih =>
      have hpos := Page.remaining_pos start
      have hanswer := list.answer_pushSpan start length
      have helements := list.elements_pushSpan start length
      rw [pushPages]
      split
      next hlength =>
        subst hlength
        have hnone : Page.split start 0 = [] := rfl
        rw [hnone, List.take_nil, List.append_nil] at helements
        exact Prod.ext (hanswer.trans (if_pos (Nat.zero_le _))).symm (ext rfl helements.symm)
      next hlength =>
        rw [Page.spanned_step start hlength] at hanswer
        rw [Page.split_step start hlength] at helements
        unfold push
        by_cases hroom : 0 < list.room
        · rw [dif_pos hroom]
          dsimp only
          rw [ih _ (by omega)]
          -- One element is in the list, and one place less is left for the others.
          have hless := list.room_append_singleton
            ⟨start, min length (Page.remaining start)⟩ hroom
          rw [← hless] at hanswer helements
          refine Prod.ext ?_ (ext rfl ?_)
          · rw [hanswer, answer_pushSpan]
            simp only [Nat.add_le_add_iff_right]
          · rw [helements, elements_pushSpan, elements_append, List.take_succ_cons,
              List.append_assoc, List.singleton_append]
        · rw [dif_neg hroom]
          rw [Nat.eq_zero_of_not_pos hroom] at hanswer helements
          rw [List.take_zero, List.append_nil] at helements
          exact Prod.ext (hanswer.trans (if_neg (Nat.not_succ_le_zero _))).symm
            (ext rfl helements.symm)

/-- Whatever a list was asked for before, it takes in a span page by page. What that comes to is
one list of elements and no other, with an element for each page that the span touches. If all of
them fit, they are appended in order. If not, the list overflows: it is filled up with the first
of them, as many as there is room for. Pushing element after element ends, and does just this. -/
theorem pushSpan_page_by_page (limit : Nat) (history : List Request) (start : PhysAddr)
    (length : Nat) :
    let list := (ofLimit limit).serveAll history
    let pushed := list.pushSpan start length
    ∃ parts, (∀ elements, SgElement.PageWise start length elements ↔ elements = parts) ∧
      parts.length = Page.spanned start length ∧ list.length ≤ limit ∧
      (if list.length + parts.length ≤ limit then
        pushed.1 = .ok () ∧ pushed.2.elements = list.elements ++ parts
      else
        pushed.1 = .error .scatterGatherOverflow ∧
          pushed.2.elements = list.elements ++ parts.take (limit - list.length) ∧
          pushed.2.length = limit) ∧
      pushed.2.limit = limit ∧ list.pushPages start length = pushed := by
  have hlimit : ((ofLimit limit).serveAll history).limit = limit :=
    limit_serveAll (ofLimit limit) history
  dsimp only
  generalize (ofLimit limit).serveAll history = list at hlimit ⊢
  subst hlimit
  have hroom : list.length + list.room = list.limit := Nat.add_sub_cancel' list.within
  refine ⟨Page.split start length, fun _ => SgElement.pageWise_iff, Page.length_split _ _,
    list.within, ?_, rfl, list.pushPages_eq_pushSpan start length⟩
  have hanswer := list.answer_pushSpan start length
  have helements := list.elements_pushSpan start length
  rw [Page.length_split]
  split
  next hfits =>
    have hspan : (Page.split start length).length ≤ list.room := by
      rw [Page.length_split]
      omega
    rw [List.take_of_length_le hspan] at helements
    exact ⟨hanswer.trans (if_pos (by omega)), helements⟩
  next hover =>
    have hfull := list.room_pushSpan start length
    rw [Nat.sub_eq_zero_of_le (by omega)] at hfull
    refine ⟨hanswer.trans (if_neg (by omega)), helements, ?_⟩
    exact Nat.le_antisymm (list.pushSpan start length).2.within (Nat.le_of_sub_eq_zero hfull)

end SgList

end TransmitQueue
