/-!
# Byte sequences

Memory is a list of bytes. `slice` reads a window of it and `splice` writes one;
a splice inside the memory keeps its length, reads back, and leaves every
disjoint window as it was.
-/

namespace TransmitQueue

/-- The content of a stretch of memory. -/
abbrev Bytes := List UInt8

namespace Bytes

/-- The `length` bytes from `start` on, fewer where the memory ends. -/
def slice (memory : Bytes) (start length : Nat) : Bytes :=
  (memory.drop start).take length

/-- The memory after `content` was written from `start` on. -/
def splice (memory : Bytes) (start : Nat) (content : Bytes) : Bytes :=
  memory.take start ++ content ++ memory.drop (start + content.length)

/-- Two lowercase hexadecimal digits for a byte. -/
def hexByte (byte : UInt8) : String :=
  String.ofList [Nat.digitChar (byte.toNat / 16), Nat.digitChar (byte.toNat % 16)]

/-- Lowercase hexadecimal without separators. -/
def hex (memory : Bytes) : String := String.join (memory.map hexByte)

theorem length_slice {memory : Bytes} {start length : Nat}
    (h : start + length ≤ memory.length) : (slice memory start length).length = length := by
  simp only [slice, List.length_take, List.length_drop]
  omega

theorem length_splice {memory content : Bytes} {start : Nat}
    (h : start + content.length ≤ memory.length) :
    (splice memory start content).length = memory.length := by
  simp only [splice, List.length_append, List.length_take, List.length_drop]
  omega

/-- A window reads back what was written into it. -/
theorem slice_splice_self {memory content : Bytes} {start : Nat}
    (h : start + content.length ≤ memory.length) :
    slice (splice memory start content) start content.length = content := by
  have hstart : (memory.take start).length = start := by
    rw [List.length_take]
    omega
  rw [slice, splice, List.append_assoc, List.drop_append_of_le_length (by omega),
    List.drop_of_length_le (by omega), List.nil_append, List.take_left']
  rfl

/-- The bytes outside a written window are those of before. -/
theorem getElem?_splice_outside {memory content : Bytes} {start index : Nat}
    (h : start + content.length ≤ memory.length)
    (outside : index < start ∨ start + content.length ≤ index) :
    (splice memory start content)[index]? = memory[index]? := by
  have hstart : (memory.take start).length = start := by
    rw [List.length_take]
    omega
  rcases outside with hbefore | hafter
  · rw [splice, List.append_assoc, List.getElem?_append_left (by omega),
      List.getElem?_take_of_lt hbefore]
  · rw [splice, List.getElem?_append_right (by rw [List.length_append]; omega),
      List.getElem?_drop, List.length_append, hstart]
    congr 1
    omega

/-- A window disjoint from a written one reads what it read before. -/
theorem slice_splice_disjoint {memory content : Bytes} {start other length : Nat}
    (h : start + content.length ≤ memory.length)
    (disjoint : other + length ≤ start ∨ start + content.length ≤ other) :
    slice (splice memory start content) other length = slice memory other length := by
  apply List.ext_getElem?
  intro index
  by_cases hindex : index < length
  · rw [slice, slice, List.getElem?_take_of_lt hindex, List.getElem?_take_of_lt hindex,
      List.getElem?_drop, List.getElem?_drop]
    exact getElem?_splice_outside h (by omega)
  · rw [List.getElem?_eq_none (by simp only [slice, List.length_take]; omega),
      List.getElem?_eq_none (by simp only [slice, List.length_take]; omega)]

end Bytes

end TransmitQueue
