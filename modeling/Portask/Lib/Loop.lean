import Mathlib.Data.Nat.Notation
import Mathlib.Tactic.TypeStar

/-! # Loops

A round of a loop stops with a result or goes on with another state. A loop that keeps an
invariant under which no round stops does not return.
-/

namespace Portask.Lib

structure Loop (σ ρ : Type*) where
  round : σ → ρ ⊕ σ

namespace Loop

variable {σ ρ : Type*} (l : Loop σ ρ)

/-- What `n` rounds lead to: the result, if one of them stops, or the state before the next. -/
def run : Nat → σ → ρ ⊕ σ
  | 0, s => .inr s
  | n + 1, s => (run n s).elim .inl l.round

def Returns (s : σ) : Prop := ∃ n r, l.run n s = .inl r

theorem run_succ_of_running (running : l.run n s = .inr t) : l.run (n + 1) s = l.round t := by
  rw [run, running, Sum.elim_inr]

/-- The rounds go on as long as each of them leads from one state of the invariant to another. -/
theorem running_of_invariant {P : Nat → σ → Prop} (start : P 0 s)
    (goesOn : ∀ n < limit, ∀ t, P n t → ∃ u, l.round t = .inr u ∧ P (n + 1) u)
    (inside : n ≤ limit) : ∃ t, l.run n s = .inr t ∧ P n t := by
  induction n with
  | zero => exact ⟨s, rfl, start⟩
  | succ n ih =>
    obtain ⟨t, running, holds⟩ := ih (Nat.le_of_succ_le inside)
    obtain ⟨u, next, later⟩ := goesOn n inside t holds
    exact ⟨u, (l.run_succ_of_running running).trans next, later⟩

theorem not_returns_of_invariant {P : σ → Prop} (start : P s)
    (goesOn : ∀ t, P t → ∃ u, l.round t = .inr u ∧ P u) : ¬ l.Returns s := by
  rintro ⟨n, r, returned⟩
  obtain ⟨t, running, -⟩ :=
    l.running_of_invariant (P := fun _ => P) start (fun _ _ t holds => goesOn t holds)
      (Nat.le_refl n)
  rw [returned] at running
  cases running

end Loop

end Portask.Lib
