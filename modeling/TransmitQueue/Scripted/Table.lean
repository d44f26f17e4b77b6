/-!
# Scripts by number

What a scripted collaborator is to do, listed by packet or call number. A later
entry for a number replaces the earlier one.
-/

namespace TransmitQueue

/-- At most one entry for each number. -/
abbrev ScriptTable (α : Type) := List (Nat × α)

namespace ScriptTable

variable {α : Type}

def get? (table : ScriptTable α) (key : Nat) : Option α := table.lookup key

/-- Enters a value, in place of the one entered before. -/
def insert (table : ScriptTable α) (key : Nat) (value : α) : ScriptTable α :=
  (key, value) :: table.filter fun entry => entry.1 != key

theorem get?_insert_self (table : ScriptTable α) (key : Nat) (value : α) :
    (table.insert key value).get? key = some value := by
  simp [insert, get?]

/-- Dropping the entries for one number leaves the others as they were. -/
theorem get?_filter_of_ne (table : ScriptTable α) {key other : Nat} (h : other ≠ key) :
    get? (table.filter fun entry => entry.1 != key) other = table.get? other := by
  induction table with
  | nil => rfl
  | cons entry rest ih =>
      obtain ⟨number, value⟩ := entry
      unfold get? at ih ⊢
      by_cases hnumber : number = key
      · have hother : (other == number) = false := by simpa [hnumber] using h
        simp only [List.filter_cons, hnumber, bne_self_eq_false, Bool.false_eq_true, if_false]
        rw [ih, ← hnumber, List.lookup_cons, hother]
      · have hkept : (number != key) = true := by simpa using hnumber
        simp only [List.filter_cons, hkept, if_true, List.lookup_cons, ih]

/-- Entering a value for one number leaves the others as they were. -/
theorem get?_insert_of_ne (table : ScriptTable α) {key other : Nat} (value : α)
    (h : other ≠ key) : (table.insert key value).get? other = table.get? other := by
  have hother : (other == key) = false := by simpa using h
  rw [← table.get?_filter_of_ne h]
  simp only [insert, get?, List.lookup_cons, hother]

end ScriptTable

end TransmitQueue
