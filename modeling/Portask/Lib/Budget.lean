import Mathlib.Data.List.Basic
import Mathlib.Algebra.Ring.Nat
import Mathlib.Tactic.TypeStar

/-! # Runs within a budget

Items are taken from the front of a list as long as their weights together stay within a
budget. What is taken is the longest run from the front that fits.
-/

namespace Portask.Lib

section

variable {α : Type*} (weight : α → Nat)

def load (l : List α) : Nat := (l.map weight).sum

@[simp] theorem load_nil : load weight [] = 0 := rfl

@[simp] theorem load_cons (a : α) (rest : List α) :
    load weight (a :: rest) = weight a + load weight rest := by
  simp [load]

theorem load_drop_le (n : Nat) (l : List α) : load weight (l.drop n) ≤ load weight l := by
  induction l generalizing n with
  | nil => simp
  | cons a rest ih =>
    cases n with
    | zero => exact Nat.le_refl _
    | succ n =>
      rw [List.drop_succ_cons, load_cons]
      exact Nat.le_trans (ih n) (Nat.le_add_left _ _)

/-- What fits from the front. A negative budget has room for nothing. -/
def within : (budget : Int) → List α → List α
  | _, [] => []
  | budget, a :: rest => if weight a ≤ budget then a :: within (budget - weight a) rest else []

structure Longest (budget : Int) (l run : List α) : Prop where
  front : run <+: l
  fits : load weight run ≤ budget
  longest : ∀ other, other <+: l → load weight other ≤ budget → other <+: run

variable {weight}

theorem within_longest (room : 0 ≤ budget) (l : List α) :
    Longest weight budget l (within weight budget l) := by
  induction l generalizing budget with
  | nil => exact ⟨List.nil_prefix, by simpa [within] using room, fun _ before _ => before⟩
  | cons a rest ih =>
    by_cases fits : weight a ≤ budget
    · have later := ih (show 0 ≤ budget - weight a by omega)
      rw [within, if_pos fits]
      refine ⟨(List.prefix_cons_inj a).mpr later.front, ?_, fun other before within => ?_⟩
      · have := later.fits
        rw [load_cons]
        omega
      · cases other with
        | nil => exact List.nil_prefix
        | cons b other =>
          obtain ⟨rfl, inside⟩ := List.cons_prefix_cons.mp before
          rw [load_cons] at within
          exact (List.prefix_cons_inj b).mpr (later.longest other inside (by omega))
    · rw [within, if_neg fits]
      refine ⟨List.nil_prefix, by simpa using room, fun other before within => ?_⟩
      cases other with
      | nil => exact List.nil_prefix
      | cons b other =>
        -- The first item alone is over the budget already.
        obtain ⟨rfl, -⟩ := List.cons_prefix_cons.mp before
        rw [load_cons] at within
        omega

end

end Portask.Lib
