import TransmitQueue.Error
import TransmitQueue.Packet
import TransmitQueue.Page

/-!
# Scatter/gather lists

The list of descriptors that a device follows to read a packet. A list holds at
most as many elements as its limit, and a span is appended page by page: its
elements follow each other, and none crosses a page boundary.
-/

namespace TransmitQueue

/-- One descriptor: the address of a piece of memory and its length in bytes. -/
structure SgElement where
  address : PhysAddr
  length : Nat
  deriving DecidableEq

namespace SgElement

/-- The first `room` page-bounded pieces of a span, and the bytes left over. -/
def pieces : Nat → PhysAddr → Nat → List SgElement × Nat
  | 0, _, length => ([], length)
  | room + 1, start, length =>
      if length = 0 then ([], 0)
      else
        let first := min length (Page.remaining start)
        let rest := pieces room (start.offset first) (length - first)
        (⟨start, first⟩ :: rest.1, rest.2)

theorem length_pieces_le (room : Nat) (start : PhysAddr) (length : Nat) :
    (pieces room start length).1.length ≤ room := by
  induction room generalizing start length with
  | zero => simp [pieces]
  | succ room ih =>
      unfold pieces
      split
      · simp
      · simp only [List.length_cons]
        exact Nat.succ_le_succ (ih _ _)

end SgElement

/-- A bounded list of descriptors in transfer order. -/
structure SgList where
  limit : Nat
  elements : List SgElement
  within : elements.length ≤ limit

namespace SgList

/-- The empty list that holds at most `limit` elements. -/
def ofLimit (limit : Nat) : SgList := ⟨limit, [], Nat.zero_le _⟩

/-- The full list of one element. -/
def singleton (element : SgElement) : SgList := ⟨1, [element], Nat.le_refl _⟩

variable (list : SgList)

def length : Nat := list.elements.length

def isEmpty : Bool := list.elements.isEmpty

/-- The number of elements that still fit. -/
def room : Nat := list.limit - list.length

/-- The bytes that the elements describe. -/
def totalLength : Nat := list.elements.foldr (fun element rest => element.length + rest) 0

/-- The list without its elements, and with its limit. -/
def clear : SgList := ofLimit list.limit

/-- Appends elements that fit. -/
def append (more : List SgElement) (h : more.length ≤ list.room) : SgList where
  limit := list.limit
  elements := list.elements ++ more
  within := by
    have hwithin := list.within
    simp only [room, length] at h
    rw [List.length_append]
    omega

/-- Appends one element, or leaves a full list as it is. -/
def push (address : PhysAddr) (length : Nat) : Except DmaError Unit × SgList :=
  if h : 0 < list.room then (.ok (), list.append [⟨address, length⟩] h)
  else (.error .scatterGatherOverflow, list)

/-- Appends a span page by page. Where it does not fit, the pieces that do are
kept and the list ends up full. -/
def pushSpan (start : PhysAddr) (length : Nat) : Except DmaError Unit × SgList :=
  let split := SgElement.pieces list.room start length
  (if split.2 = 0 then .ok () else .error .scatterGatherOverflow,
    list.append split.1 (SgElement.length_pieces_le _ _ _))

/-- Appends the spans of fragments in order, up to the first that does not fit. -/
def pushFragments (list : SgList) : List Fragment → Except DmaError Unit × SgList
  | [] => (.ok (), list)
  | fragment :: rest =>
      match list.pushSpan fragment.physStart fragment.length with
      | (.ok (), longer) => longer.pushFragments rest
      | (.error error, full) => (.error error, full)

@[simp] theorem elements_ofLimit (limit : Nat) : (ofLimit limit).elements = [] := rfl

@[simp] theorem limit_ofLimit (limit : Nat) : (ofLimit limit).limit = limit := rfl

@[simp] theorem elements_clear : list.clear.elements = [] := rfl

@[simp] theorem limit_clear : list.clear.limit = list.limit := rfl

@[simp] theorem elements_append (more : List SgElement) (h : more.length ≤ list.room) :
    (list.append more h).elements = list.elements ++ more := rfl

@[simp] theorem limit_append (more : List SgElement) (h : more.length ≤ list.room) :
    (list.append more h).limit = list.limit := rfl

@[ext] theorem ext {left right : SgList} (hlimit : left.limit = right.limit)
    (helements : left.elements = right.elements) : left = right := by
  cases left; cases right
  simp_all

end SgList

end TransmitQueue
