import Mathlib.Data.List.Basic
import Mathlib.Tactic.TypeStar

/-! # Collecting up to a limit

A loop that stops as soon as it has enough results, possibly with such loops inside, collects
the first results of the loop without a limit. A list is cut into pieces of one size.
-/

namespace Portask.Lib

variable {α β : Type*}

/-- Goes through a list until there are `limit` results. -/
def upTo (limit : Nat) (round : List β → α → List β) : List β → List α → List β
  | results, [] => results
  | results, a :: rest =>
    if limit ≤ results.length then results else upTo limit round (round results a) rest

theorem take_take_append (n : Nat) (l later : List β) :
    (l.take n ++ later).take n = (l ++ later).take n := by
  by_cases enough : n ≤ l.length
  · rw [List.take_append_of_le_length (Nat.le_of_eq (List.length_take_of_le enough).symm),
      List.take_take, Nat.min_self, List.take_append_of_le_length enough]
  · rw [List.take_of_length_le (Nat.le_of_not_le enough)]

/-- If a round adds what is found, up to the limit, then so does the loop. -/
theorem upTo_eq {limit round found}
    (adds : ∀ results a, results.length < limit → round results a = (results ++ found a).take limit)
    {results : List β} (room : results.length ≤ limit) (l : List α) :
    upTo limit round results l = (results ++ l.flatMap found).take limit := by
  induction l generalizing results with
  | nil => rw [upTo, List.flatMap_nil, List.append_nil, List.take_of_length_le room]
  | cons a rest ih =>
    rw [upTo]
    split
    · next enough =>
        have full : results.length = limit := Nat.le_antisymm room enough
        rw [List.take_append_of_le_length enough, ← full, List.take_length]
    · next more =>
        have within : ((results ++ found a).take limit).length ≤ limit := List.length_take_le ..
        rw [adds results a (Nat.not_le.mp more), ih within, take_take_append, List.append_assoc, List.flatMap_cons]

/-- At most `fuel` pieces from the front of a list. -/
def cut (size : Nat) : (fuel : Nat) → List α → List (List α)
  | 0, _ => []
  | _, [] => []
  | fuel + 1, a :: rest => (a :: rest).take size :: cut size fuel ((a :: rest).drop size)

def pieces (size : Nat) (l : List α) : List (List α) := cut size l.length l

theorem flatten_cut (some_ : 0 < size) {l : List α} (enough : l.length ≤ fuel) :
    (cut size fuel l).flatten = l := by
  induction fuel generalizing l with
  | zero =>
    rw [List.length_eq_zero_iff.mp (Nat.le_zero.mp enough)]
    rfl
  | succ fuel ih =>
    cases l with
    | nil => rfl
    | cons a rest =>
      have shorter : ((a :: rest).drop size).length ≤ fuel := by
        rw [List.length_drop]
        omega
      rw [cut, List.flatten_cons, ih shorter, List.take_append_drop]

theorem flatten_pieces {size : Nat} (some_ : 0 < size) (l : List α) : (pieces size l).flatten = l :=
  flatten_cut some_ (Nat.le_refl _)

end Portask.Lib
