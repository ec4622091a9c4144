import Portask.Lib.Machine

/-! # Items in places

Numbered items are spread over places, each of which has room for one. They are placed if
each item is in exactly one place and nothing else is anywhere. A new item may be put into
a free place, and items may move as long as nothing appears that was not there.
-/

namespace Portask.Lib

variable {P A : Type*}

/-- `holds` gives the number and the item in a place. -/
structure Placed (holds : P → Option (Nat × A)) (items : List A) : Prop where
  genuine : ∀ p n a, holds p = some (n, a) → items[n]? = some a
  somewhere : ∀ n a, items[n]? = some a → ∃ p, holds p = some (n, a)
  once : ∀ p q n a b, holds p = some (n, a) → holds q = some (n, b) → p = q

namespace Placed

variable {holds holds' : P → Option (Nat × A)} {items : List A}

variable (placed : Placed holds items)
include placed

theorem exactly_one (there : items[n]? = some a) :
    ∃ p, holds p = some (n, a) ∧ ∀ q b, holds q = some (n, b) → q = p := by
  obtain ⟨p, here⟩ := placed.somewhere n a there
  exact ⟨p, here, fun q b also => placed.once q p n b a also here⟩

theorem add (free : holds p = none)
    (new : holds' p = some (items.length, a)) (same : ∀ q, q ≠ p → holds' q = holds q) :
    Placed holds' (items ++ [a]) := by
  have cases_of {q : P} {n : Nat} {b : A} (there : holds' q = some (n, b)) :
      (q = p ∧ n = items.length ∧ b = a) ∨ holds q = some (n, b) := by
    by_cases here : q = p
    · subst here
      rw [new, Option.some_inj, Prod.mk.injEq] at there
      exact .inl ⟨rfl, there.1.symm, there.2.symm⟩
    · exact .inr (same q here ▸ there)
  have short {q : P} {b : A} : holds q ≠ some (items.length, b) := by
    intro there
    have := placed.genuine q _ b there
    simp at this
  refine ⟨fun q n b there => ?_, fun n b there => ?_, fun q r n b c first second => ?_⟩
  · obtain ⟨-, rfl, rfl⟩ | before := cases_of there
    · simp
    · have inside := placed.genuine q n b before
      rwa [List.getElem?_append_left (List.getElem?_eq_some_iff.mp inside).1]
  · obtain ⟨-, inside⟩ | ⟨rfl, rfl⟩ := getElem?_concat_cases there
    swap
    · exact ⟨p, new⟩
    · obtain ⟨q, here⟩ := placed.somewhere n b inside
      have other : q ≠ p := by
        rintro rfl
        rw [free] at here
        cases here
      exact ⟨q, (same q other).trans here⟩
  · obtain ⟨rfl, rfl, rfl⟩ | first := cases_of first
    · obtain ⟨rfl, -, -⟩ | second := cases_of second
      · rfl
      · exact absurd second short
    · obtain ⟨rfl, rfl, rfl⟩ | second := cases_of second
      · exact absurd first short
      · exact placed.once q r n b c first second

/-- Every item moves to its target, and nothing else is anywhere. No two items meet, since a
    place holds one. -/
theorem relocate (target : P → P) (moved : ∀ x, holds x ≠ none → holds' (target x) = holds x)
    (origin : ∀ p, holds' p ≠ none → ∃ x, target x = p ∧ holds x = holds' p) :
    Placed holds' items := by
  have before {p : P} {n : Nat} {a : A} (there : holds' p = some (n, a)) : ∃ x, target x = p ∧
      holds x = some (n, a) := by
    obtain ⟨x, goes, same⟩ := origin p (by rw [there]; exact Option.some_ne_none _)
    exact ⟨x, goes, same.trans there⟩
  refine ⟨fun p n a there => ?_, fun n a there => ?_, fun p q n a b first second => ?_⟩
  · obtain ⟨x, -, here⟩ := before there
    exact placed.genuine x n a here
  · obtain ⟨x, here⟩ := placed.somewhere n a there
    exact ⟨target x, (moved x (by rw [here]; exact Option.some_ne_none _)).trans here⟩
  · obtain ⟨x, rfl, here⟩ := before first
    obtain ⟨y, rfl, also⟩ := before second
    rw [placed.once x y n a b here also]

end Placed

end Portask.Lib
