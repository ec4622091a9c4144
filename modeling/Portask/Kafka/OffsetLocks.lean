import Portask.Lib.RWMutex

/-! # The two locks of the offset manager with metadata

`OffsetManagerWithMetadata` has `mutex` for the offsets and `metaMux` for the metadata.
`Stats` takes `mutex` and then `metaMux`, and `CleanupExpiredOffsets` holds `metaMux` while
`DeleteGroup` takes `mutex`, so these two can wait for each other. No other two can.
-/

namespace Portask.Kafka

open Lib LockSystem

inductive OffsetMutex where
  | mutex
  | metaMux
  deriving DecidableEq

/-- The parameter is the number of groups that a cleanup deletes. -/
inductive OffsetOperation where
  | commitOffset
  | fetchOffset
  | deleteGroup
  | commitOffsetWithMetadata
  | fetchOffsetMetadata
  | cleanupExpiredOffsets (deleted : Nat)
  | stats
  deriving DecidableEq

open OffsetOperation

namespace OffsetOperation

/-- `Lock` and `Unlock` -/
def exclusively (m : OffsetMutex) (inside : List (LockAction OffsetMutex)) :
    List (LockAction OffsetMutex) :=
  .acquire .write m :: (inside ++ [.release .write m])

/-- `RLock` and `RUnlock` -/
def shared (m : OffsetMutex) (inside : List (LockAction OffsetMutex)) :
    List (LockAction OffsetMutex) :=
  .acquire .read m :: (inside ++ [.release .read m])

/-- `DeleteGroup`, so many times. -/
def deletions : Nat → List (LockAction OffsetMutex)
  | 0 => []
  | n + 1 => exclusively .mutex [] ++ deletions n

def program : OffsetOperation → List (LockAction OffsetMutex)
  | .commitOffset | .deleteGroup => exclusively .mutex []
  | .fetchOffset => shared .mutex []
  | .commitOffsetWithMetadata => exclusively .mutex [] ++ exclusively .metaMux []
  | .fetchOffsetMetadata => shared .metaMux []
  | .cleanupExpiredOffsets deleted => exclusively .metaMux (deletions deleted)
  | .stats => shared .mutex (shared .metaMux [])

def IsCleanup : OffsetOperation → Prop
  | .cleanupExpiredOffsets _ => True
  | _ => False

instance : (o : OffsetOperation) → Decidable o.IsCleanup
  | .cleanupExpiredOffsets _ => .isTrue trivial
  | .commitOffset | .fetchOffset | .deleteGroup | .commitOffsetWithMetadata
    | .fetchOffsetMetadata | .stats =>
    .isFalse id

theorem held_deletions (n : Nat) (m : OffsetMutex) :
    held (deletions n ++ [.release .write .metaMux]) m = if m = .metaMux then some .write
      else none := by
  induction n with
  | zero => rfl
  | succ n ih =>
    cases m with
    | mutex => rfl
    | metaMux => exact ih

theorem bracketed_deletions (n : Nat) : Bracketed (deletions n ++ [.release .write .metaMux]) := by
  induction n with
  | zero => exact ⟨rfl, trivial⟩
  | succ n ih => exact ⟨rfl, held_deletions n .mutex, ih⟩

theorem ordered_deletions (up : rank .metaMux < rank .mutex) (n : Nat) :
    Ordered rank (deletions n ++ [.release .write .metaMux]) := by
  induction n with
  | zero => trivial
  | succ n ih =>
    refine ⟨fun k differ _ => ?_, ih⟩
    cases k with
    | mutex => exact absurd rfl differ
    | metaMux => exact up

theorem bracketed_program (o : OffsetOperation) : Bracketed o.program := by
  cases o with
  | cleanupExpiredOffsets n => exact ⟨held_deletions n .metaMux, bracketed_deletions n⟩
  | commitOffset | fetchOffset | deleteGroup | commitOffsetWithMetadata
    | fetchOffsetMetadata | stats =>
    simp [program, exclusively, shared, Bracketed, held]

theorem held_program (o : OffsetOperation) (m : OffsetMutex) : held o.program m = none := by
  cases o with
  | cleanupExpiredOffsets n =>
    cases m with
    | mutex => exact held_deletions n .mutex
    | metaMux => rfl
  | commitOffset | fetchOffset | deleteGroup | commitOffsetWithMetadata
    | fetchOffsetMetadata | stats =>
    cases m with
    | mutex => rfl
    | metaMux => rfl

/-- The order of `CleanupExpiredOffsets`. -/
def metaFirst : OffsetMutex → Nat
  | .metaMux => 0
  | .mutex => 1

/-- The order of `Stats`. -/
def metaLast : OffsetMutex → Nat
  | .mutex => 0
  | .metaMux => 1

theorem ordered_metaFirst {o : OffsetOperation} (other : o ≠ .stats) :
    Ordered metaFirst o.program := by
  cases o with
  | cleanupExpiredOffsets n =>
    refine ⟨fun k differ holds => ?_, ordered_deletions Nat.one_pos n⟩
    rw [held_deletions, if_neg differ] at holds
    cases holds
  | stats => exact absurd rfl other
  | commitOffset | fetchOffset | deleteGroup | commitOffsetWithMetadata | fetchOffsetMetadata =>
    simp +contextual [program, exclusively, shared, Ordered, held]

theorem ordered_metaLast {o : OffsetOperation} (other : ¬ o.IsCleanup) :
    Ordered metaLast o.program := by
  cases o with
  | cleanupExpiredOffsets n => exact absurd trivial other
  | stats => simp +contextual [program, shared, Ordered, held, metaLast]
  | commitOffset | fetchOffset | deleteGroup | commitOffsetWithMetadata | fetchOffsetMetadata =>
    simp +contextual [program, exclusively, shared, Ordered, held]

end OffsetOperation

namespace OffsetLocks

variable {T : Type*} [DecidableEq T]

abbrev State (T : Type*) := LockSystem OffsetMutex OffsetOperation T

abbrev Label (T : Type*) := LockSystem.Label OffsetOperation T

/-- Threads that call the operations of the manager. -/
def system : Machine (State T) (Label T) := machine program

/-- If an operation is in progress, then one of those in progress can go on. -/
def Live (s : State T) : Prop :=
  (∃ t, t ∈ s.running) → ∃ t after, system.next s (.step t) = some after

/-- `Stats` is not called while a cleanup is in progress, nor a cleanup while `Stats` is. -/
def Apart (s : State T) : Label T → Prop
  | .call _ .stats => ∀ e ∈ s.running.entries, ¬ e.2.1.IsCleanup
  | .call _ (.cleanupExpiredOffsets _) => ∀ e ∈ s.running.entries, e.2.1 ≠ .stats
  | _ => True

instance (s : State T) : (label : Label T) → Decidable (Apart s label)
  | .call _ .stats => inferInstanceAs (Decidable (∀ _ ∈ _, _))
  | .call _ (.cleanupExpiredOffsets _) => inferInstanceAs (Decidable (∀ _ ∈ _, _))
  | .call _ .commitOffset | .call _ .fetchOffset | .call _ .deleteGroup
  | .call _ .commitOffsetWithMetadata
  | .call _ .fetchOffsetMetadata | .step _ => .isTrue trivial

/-- All operations in progress satisfy `P`. -/
def All (P : OffsetOperation → Prop) (s : State T) : Prop :=
  ∀ t r, s.running.lookup t = some r → P r.1

/-- Not both kinds of operation are in progress. -/
def OneOrder (s : State T) : Prop := All (· ≠ .stats) s ∨ All (fun o => ¬ o.IsCleanup) s

variable {s : State T} {P : OffsetOperation → Prop}

theorem All.call (all : All P s) (this : P o) (rest : List (LockAction OffsetMutex)) :
    All P (s.goOn t o rest) := by
  intro u r there
  by_cases here : u = t
  · subst here
    rw [goOn, AList.lookup_insert] at there
    cases there
    exact this
  · rw [goOn, AList.lookup_insert_ne here] at there
    exact all u r there

theorem all_of_entries (entries : ∀ e ∈ s.running.entries, P e.2.1) : All P s :=
  fun t r found => entries ⟨t, r⟩ (AList.mem_lookup_iff.mp found)

theorem OneOrder.call (one : OneOrder s) (apart : Apart s (.call t o))
    (rest : List (LockAction OffsetMutex)) : OneOrder (s.goOn t o rest) := by
  cases o with
  | stats =>
    have others : All (fun o => ¬ o.IsCleanup) s := all_of_entries apart
    exact .inr (others.call id rest)
  | cleanupExpiredOffsets n =>
    have others : All (· ≠ .stats) s := all_of_entries apart
    exact .inl (others.call (by simp) rest)
  | commitOffset | fetchOffset | deleteGroup | commitOffsetWithMetadata | fetchOffsetMetadata =>
    exact one.imp (fun all => all.call (by simp) rest) fun all => all.call id rest

theorem OneOrder.next (one : OneOrder s) (apart : Apart s label)
    (stepped : system.next s label = some after) : OneOrder after := by
  cases label with
  | call t o =>
    simp only [system, machine] at stepped
    split at stepped
    · cases stepped
    · cases stepped
      exact one.call apart _
  | step t =>
    obtain ⟨r, found, stepped⟩ := Option.bind_eq_some_iff.mp stepped
    have acts := acts_of_stepOf stepped
    refine one.imp (fun all u r' there => ?_) fun all u r' there => ?_
    all_goals
      obtain ⟨before, was, same⟩ := acts.operation found _ _ there
      exact same ▸ all u before was

theorem live_of_oneOrder (inv : s.Inv program) (one : OneOrder s) : Live s := by
  intro busy
  have moves : ¬ s.Stuck program := by
    rcases one with noStats | noCleanup
    · refine not_stuck_of_ordered inv metaFirst 2 ?_ ?_ busy
      · intro m
        cases m <;> decide
      · exact fun t r found => ordered_metaFirst (noStats t r found)
    · refine not_stuck_of_ordered inv metaLast 2 ?_ ?_ busy
      · intro m
        cases m <;> decide
      · exact fun t r found => ordered_metaLast (noCleanup t r found)
  obtain ⟨t, some⟩ := not_forall.mp moves
  exact ⟨t, Option.ne_none_iff_exists'.mp some⟩

/-- If `Stats` and a cleanup are never in progress together, then no state is a deadlock. -/
theorem offsetLocks_live_of_apart {labels : List (Label T)}
    (ran : (system.restrict Apart).run .init labels = some s) : Live s := by
  have kept : s.Inv program ∧ OneOrder s := by
    refine Machine.run_invariant _ (P := fun s => s.Inv program ∧ OneOrder s)
      (fun s label after kept stepped => ?_) ⟨init_inv, .inl ?_⟩ ran
    · obtain ⟨apart, stepped⟩ := Machine.restrict_next _ |>.mp stepped
      exact ⟨kept.1.next bracketed_program held_program stepped,
        kept.2.next apart stepped⟩
    · intro t r found
      cases found
  exact live_of_oneOrder kept.1 kept.2

section Runs

/-- `Stats` has `mutex`, and a commit with metadata waits for it. -/
def statsAndCommit : List (Label Bool) :=
  [.call false .stats, .step false, .call true .commitOffsetWithMetadata, .step true]

theorem offsetLocks_live_of_apart_commit :
    ∃ s, (system.restrict Apart).run .init statsAndCommit = some s ∧
      s.running.keys = [true, false] ∧ Live s := by
  refine exists_of_view (·.running.keys) [true, false] (by decide +kernel) fun s ran busy => ?_
  exact ⟨busy, offsetLocks_live_of_apart ran⟩

/-- `Stats` has `mutex`; a cleanup has `metaMux` and, to delete a group, waits for `mutex`; and
    now `Stats` comes to `metaMux`. -/
def statsAndCleanup : List (Label Bool) :=
  [.call false .stats, .step false, .call true (.cleanupExpiredOffsets 1), .step true,
    .step true, .step true, .step false]

theorem not_offsetLocks_live : ∃ s, system.run .init statsAndCleanup = some s ∧ ¬ Live s := by
  refine exists_of_view (fun s =>
    (s.running.keys, [false, true].map fun t => (system.next s (.step t)).isSome))
    ([true, false], [false, false]) (by decide +kernel) fun s ran view live => ?_
  obtain ⟨busy, stuck⟩ := Prod.mk.inj view
  obtain ⟨t, after, moves⟩ := live ⟨true, AList.mem_keys.mpr (by rw [busy]; simp)⟩
  simp only [List.map_cons, List.map_nil, List.cons.injEq, and_true] at stuck
  cases t with
  | false => simp [moves] at stuck
  | true => simp [moves] at stuck

end Runs

end OffsetLocks

end Portask.Kafka
