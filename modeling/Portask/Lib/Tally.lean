import Mathlib.Data.List.Basic
import Mathlib.Tactic.TypeStar

/-! # Tallies

The total weight of a list, and what replacing one element does to it. A conservation law
over places (queues, workers, callers) is an equation between tallies, and each step of the
system changes one element or the end of a list.
-/

namespace Portask.Lib

variable {α : Type*}

def tally (weight : α → Nat) : List α → Nat
  | [] => 0
  | a :: rest => weight a + tally weight rest

variable {weight : α → Nat} {l : List α}

@[simp] theorem tally_nil : tally weight [] = 0 := rfl

@[simp] theorem tally_cons : tally weight (a :: l) = weight a + tally weight l := rfl

@[simp] theorem tally_append : tally weight (l ++ later) = tally weight l + tally weight later := by
  induction l with
  | nil => simp
  | cons a rest ih => simp [ih, Nat.add_assoc]

@[simp] theorem tally_replicate : tally weight (List.replicate n a) = n * weight a := by
  induction n with
  | zero => simp
  | succ n ih =>
    rw [List.replicate_succ, tally_cons, ih, Nat.succ_mul]
    omega

theorem tally_set (weight : α → Nat) (new : α) (found : l[i]? = some old) :
    tally weight (l.set i new) + weight old = tally weight l + weight new := by
  induction l generalizing i with
  | nil => simp at found
  | cons a rest ih =>
    cases i with
    | zero =>
      obtain rfl : a = old := by simpa using found
      simp only [List.set_cons_zero, tally_cons]
      omega
    | succ i =>
      have later := ih (i := i) (by simpa using found)
      simp only [List.set_cons_succ, tally_cons]
      omega

theorem le_tally (weight : α → Nat) {i : Nat} (found : l[i]? = some a) :
    weight a ≤ tally weight l := by
  induction l generalizing i with
  | nil => simp at found
  | cons b rest ih =>
    cases i with
    | zero =>
      obtain rfl : b = a := by simpa using found
      simp
    | succ i =>
      have later := ih (i := i) (by simpa using found)
      rw [tally_cons]
      omega

theorem exists_of_tally_pos (positive : 0 < tally weight l) :
    ∃ (i : Nat) (a : α), l[i]? = some a ∧ 0 < weight a := by
  induction l with
  | nil => simp at positive
  | cons a rest ih =>
    by_cases here : 0 < weight a
    · exact ⟨0, a, rfl, here⟩
    · obtain ⟨i, b, found, heavy⟩ := ih (by rw [tally_cons] at positive; omega)
      exact ⟨i + 1, b, by simpa using found, heavy⟩

theorem forall_set {P : Nat → α → Prop}
    (others : ∀ (i : Nat) (a : α), i ≠ j → l[i]? = some a → P i a)
    (here : P j new) : ∀ (i : Nat) (a : α), (l.set j new)[i]? = some a → P i a := by
  intro i a found
  rw [List.getElem?_set] at found
  split at found
  · next same =>
      subst same
      split at found
      · exact Option.some.inj found ▸ here
      · cases found
  · next different => exact others i a (Ne.symm different) found

theorem at_set {P : α → Prop} {i j : Nat} (found : l[j]? = some old) (keeps : P old → P new)
    (here : ∃ a, l[i]? = some a ∧ P a) : ∃ a, (l.set j new)[i]? = some a ∧ P a := by
  obtain ⟨a, place, holds⟩ := here
  have inside : j < l.length := (List.getElem?_eq_some_iff.mp found).1
  by_cases same : j = i
  · subst same
    obtain rfl : old = a := Option.some.inj (found.symm.trans place)
    exact ⟨new, List.getElem?_set_self inside, keeps holds⟩
  · exact ⟨a, by rw [List.getElem?_set_ne same, place], holds⟩

end Portask.Lib
