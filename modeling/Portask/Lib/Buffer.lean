import Mathlib.Data.List.Basic

/-! # Slices that are emptied and filled again in place

A buffer is a slice of length `len` over a backing array. Emptying it keeps the array,
and appending to it writes the next cell of that array as long as there is one; only a
full array is replaced. A slice of the same array that somebody else still holds changes
with it. What the owner sees does not depend on any of this.
-/

namespace Portask.Lib

structure Buffer (M : Type) where
  capacity : Nat
  /-- The cells of the array that have been written so far. -/
  cells : List M
  len : Nat
  len_le : len ≤ cells.length
  cells_le : cells.length ≤ capacity
  deriving DecidableEq

namespace Buffer

variable {M : Type}

/-- `make([]M, 0, capacity)`. -/
def make (capacity : Nat) : Buffer M := ⟨capacity, [], 0, Nat.le_refl _, Nat.zero_le _⟩

def contents (b : Buffer M) : List M := b.cells.take b.len

/-- `b[:0]`. -/
def clear (b : Buffer M) : Buffer M := { b with len := 0, len_le := Nat.zero_le _ }

theorem written_length (b : Buffer M) (m : M) :
    (b.cells.take b.len ++ m :: b.cells.drop (b.len + 1)).length =
      max b.cells.length (b.len + 1) := by
  have := b.len_le
  simp only [List.length_append, List.length_take, List.length_cons, List.length_drop]
  omega

/-- `append(b, m)`. By how much a full array grows is up to the runtime; one cell more
    than the double is as good as any. -/
def append (b : Buffer M) (m : M) : Buffer M :=
  if room : b.len < b.capacity then
    { capacity := b.capacity
      cells := b.cells.take b.len ++ m :: b.cells.drop (b.len + 1)
      len := b.len + 1
      len_le := by rw [written_length]; exact Nat.le_max_right _ _
      cells_le := by rw [written_length]; exact Nat.max_le.mpr ⟨b.cells_le, room⟩ }
  else
    { capacity := 2 * b.capacity + 1
      cells := b.contents ++ [m]
      len := b.len + 1
      len_le := by simp [contents, b.len_le]
      cells_le := by
        have := b.cells_le
        have := b.len_le
        simp only [contents, List.length_append, List.length_take, List.length_singleton]
        omega }

@[simp] theorem contents_make (capacity : Nat) : (make capacity : Buffer M).contents = [] := rfl

variable (b : Buffer M)

@[simp] theorem contents_clear : b.clear.contents = [] := by
  simp [clear, contents]

@[simp] theorem length_contents : b.contents.length = b.len := by
  simp [contents, b.len_le]

@[simp] theorem contents_append (m : M) : (b.append m).contents = b.contents ++ [m] := by
  have inside : (b.cells.take b.len).length = b.len := b.length_contents
  by_cases room : b.len < b.capacity
  · simp only [append, room, dite_true, contents]
    rw [List.take_append, inside, Nat.add_sub_cancel_left, List.take_of_length_le (by omega)]
    rfl
  · simp only [append, room, dite_false, contents]
    rw [List.take_of_length_le]
    simp [b.len_le]

theorem len_eq_zero : b.len = 0 ↔ b.contents = [] := by
  rw [← List.length_eq_zero_iff, length_contents]

end Buffer

end Portask.Lib
