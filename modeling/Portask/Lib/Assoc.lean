import Mathlib.Data.List.AList
import Mathlib.Tactic.TypeStar

/-! # Ranging over a map while changing it

A loop over the entries of a map that keeps, replaces or deletes each entry as it comes to
it is the map with that applied to every value.
-/

namespace Portask.Lib

variable {K V : Type*} [DecidableEq K]

/-- What a loop does with the entry it has come to. -/
def visit (f : K → V → Option V) (done : AList fun _ : K => V) (k : K) (v : V) :
    AList fun _ : K => V :=
  match f k v with
  | some v' => done.insert k v'
  | none => done.erase k

def sweep (f : K → V → Option V) (m : AList fun _ : K => V) : AList fun _ : K => V :=
  m.foldl (visit f) m

variable {f : K → V → Option V} {m : AList fun _ : K => V}

theorem lookup_visit (done : AList fun _ : K => V) (k : K) (v : V) (l : K) :
    (visit f done k v).lookup l = if l = k then f k v else done.lookup l := by
  rw [visit]
  by_cases here : l = k
  · subst here
    cases result : f l v with
    | none => simp
    | some v' => simp
  · cases result : f k v with
    | none => simp [here, AList.lookup_erase_ne here]
    | some v' => simp [here, AList.lookup_insert_ne here]

theorem lookup_sweep (m : AList fun _ : K => V) (k : K) :
    (sweep f m).lookup k = (m.lookup k).bind (f k) := by
  -- The loop has its own list of entries, which the map it changes agrees with to begin with.
  suffices loop : ∀ (entries : List (Σ _ : K, V)) (done : AList fun _ : K => V), entries.NodupKeys →
      (∀ l, l ∉ entries.keys → done.lookup l = (m.lookup l).bind (f l)) →
      (∀ l ∈ entries.keys, entries.dlookup l = m.lookup l) →
      (entries.foldl (fun done e => visit f done e.1 e.2) done).lookup k = (m.lookup k).bind (f k) by
    refine loop m.entries m m.nodupKeys (fun l out => ?_) fun l _ => rfl
    have none : m.lookup l = none := AList.lookup_eq_none.mpr out
    rw [none, Option.bind_none]
  intro entries
  induction entries with
  | nil => exact fun done _ outside _ => outside k (by simp)
  | cons e rest ih =>
    intro done nodup outside inside
    obtain ⟨fresh, nodup⟩ := List.nodupKeys_cons.mp nodup
    rw [List.foldl_cons]
    refine ih _ nodup (fun l out => ?_) fun l later => ?_
    · rw [lookup_visit]
      split
      · next here =>
          subst here
          have there := inside e.1 (by simp)
          rw [List.dlookup_cons_eq] at there
          rw [← there, Option.bind_some]
      · next differ => exact outside l (by simp [differ, out])
    · have differ : l ≠ e.1 := fun same => fresh (same ▸ later)
      rw [← inside l (by simp [later]), List.dlookup_cons_ne rest e differ]

/-- A map that is not there reads as an empty one. -/
theorem lookup_getD_empty (m : Option (AList fun _ : K => V)) (k : K) :
    (m.getD ∅).lookup k = m.bind (·.lookup k) := by
  cases m with
  | none => rfl
  | some m => rfl

/-- A map that is taken away if it is empty reads as before. -/
theorem lookup_unless_empty (m : AList fun _ : K => V) (k : K) :
    ((if m.keys = [] then none else some m).bind fun m : AList fun _ : K => V => m.lookup k) =
      m.lookup k := by
  split
  · next empty =>
      have out : k ∉ m := by simp [AList.mem_keys, empty]
      rw [AList.lookup_eq_none.mpr out, Option.bind_none]
  · rfl

theorem forall_insert {P : K → V → Prop} (own : P k v)
    (others : ∀ l w, m.lookup l = some w → P l w) :
    ∀ l w, (m.insert k v).lookup l = some w → P l w := by
  intro l w there
  by_cases here : l = k
  · subst here
    rw [AList.lookup_insert] at there
    exact Option.some.inj there ▸ own
  · rw [AList.lookup_insert_ne here] at there
    exact others l w there

theorem lookup_of_erase (there : (m.erase k).lookup l = some w) : m.lookup l = some w := by
  by_cases here : l = k
  · rw [here, AList.lookup_erase] at there
    cases there
  · rwa [AList.lookup_erase_ne here] at there

omit [DecidableEq K] in
theorem exists_mem_of_keys (some : m.keys ≠ []) : ∃ k, k ∈ m := by
  obtain ⟨k, inside⟩ := List.exists_mem_of_ne_nil _ some
  exact ⟨k, AList.mem_keys.mpr inside⟩

theorem exists_lookup_of_keys (some : m.keys ≠ []) : ∃ k v, m.lookup k = .some v := by
  obtain ⟨k, inside⟩ := exists_mem_of_keys some
  obtain ⟨v, found⟩ := Option.isSome_iff_exists.mp (AList.lookup_isSome.mpr inside)
  exact ⟨k, v, found⟩

end Portask.Lib
