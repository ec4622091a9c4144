import Portask.Lib.Buffer

/-! # Storing a buffer with retries

The part that the batch writers share: `StoreBatch` is called on the whole buffer until it
succeeds or the retries are used up, and the buffer is given up only after a success.
A call of the storage is given a choice, which stands for everything the outside decides
about it; whether the call fails is part of that.
-/

namespace Portask.Processor

open Lib

/-- `StoreBatch` gives `none` for the nil error. -/
structure StorageBackend (σ ο ε M : Type) where
  storeBatch : σ → ο → List M → σ × Option ε

/-- What a flush has done: nothing, all attempts in vain, or the batch is stored. -/
inductive Flush (σ ε : Type) where
  | empty
  | failed (store : σ) (err : ε)
  | stored (store : σ)

/-- What is known after a flush, by how it ended. -/
def Flush.Ends {σ ε : Type} (empty : Prop) (failed stored : σ → Prop) : Flush σ ε → Prop
  | .empty => empty
  | .failed store _ => failed store
  | .stored store => stored store

section

variable {σ ο ε M : Type}

/-- The loop over the attempts, with `left` of them to go. `err` is the variable of that
    name, which is nil before the first attempt. The backoff between two attempts takes
    time only. -/
def StorageBackend.attempts (backend : StorageBackend σ ο ε M) (batch : List M)
    (choices : Nat → ο) : (left attempt : Nat) → σ → (err : Option ε) → σ × Option ε
  | 0, _, store, err => (store, err)
  | left + 1, attempt, store, _ =>
    match backend.storeBatch store (choices attempt) batch with
    | (store, none) => (store, none)
    | (store, some err) => attempts backend batch choices left (attempt + 1) store (some err)

/-- `for attempt := 0; attempt <= maxRetries; attempt++`. -/
def StorageBackend.storeWithRetries (backend : StorageBackend σ ο ε M) (maxRetries : Int)
    (batch : List M) (choices : Nat → ο) (store : σ) : σ × Option ε :=
  backend.attempts batch choices (maxRetries + 1).toNat 0 store none

def StorageBackend.flush (backend : StorageBackend σ ο ε M) (maxRetries : Int) (buffer : Buffer M)
    (choices : Nat → ο) (store : σ) : Flush σ ε :=
  if buffer.len = 0 then .empty
  else
    match backend.storeWithRetries maxRetries buffer.contents choices store with
    | (store, some err) => .failed store err
    | (store, none) => .stored store

/-- From `P`, and from what a failed call before has left, a failed call makes `F` and a
    successful one `Q`. -/
def StorageBackend.Takes (backend : StorageBackend σ ο ε M) (P F Q : σ → Prop) (choice : ο)
    (batch : List M) : Prop :=
  ∀ store, P store ∨ F store →
    match backend.storeBatch store choice batch with
    | (store, some _) => F store
    | (store, none) => Q store

variable {backend : StorageBackend σ ο ε M} {P F Q : σ → Prop} {batch : List M} {choices : Nat → ο}

theorem StorageBackend.Takes.attempts (left attempt : Nat) (err : Option ε)
    (takes : ∀ i < left, backend.Takes P F Q (choices (attempt + i)) batch)
    (start : P store ∨ F store) (ending : left = 0 → err ≠ none ∧ F store) :
    match backend.attempts batch choices left attempt store err with
    | (store, some _) => F store
    | (store, none) => Q store := by
  induction left generalizing attempt store err with
  | zero =>
    cases err with
    | none => exact absurd rfl (ending rfl).1
    | some err => exact (ending rfl).2
  | succ left ih =>
    have first := takes 0 (Nat.succ_pos left) store start
    rw [Nat.add_zero] at first
    rw [StorageBackend.attempts]
    cases called : backend.storeBatch store (choices attempt) batch with
    | mk store' err' =>
      rw [called] at first
      cases err' with
      | none => exact first
      | some err' =>
        refine ih (attempt + 1) (some err') (fun i below => ?_) (.inr first)
          (fun _ => ⟨Option.some_ne_none err', first⟩)
        have later := takes (i + 1) (Nat.succ_lt_succ below)
        rwa [Nat.add_comm i 1, ← Nat.add_assoc] at later

/-- One attempt that succeeds, in whatever state it finds the storage, is enough. -/
theorem StorageBackend.attempts_succeed (left attempt : Nat) (err : Option ε)
    (succeeds :
      ∃ i < left, ∀ store, (backend.storeBatch store (choices (attempt + i)) batch).2 = none) :
    (backend.attempts batch choices left attempt store err).2 = none := by
  induction left generalizing attempt store err with
  | zero =>
    obtain ⟨i, below, -⟩ := succeeds
    exact absurd below (Nat.not_lt_zero i)
  | succ left ih =>
    rw [StorageBackend.attempts]
    split
    · rfl
    · next failed =>
        obtain ⟨i, below, stores⟩ := succeeds
        cases i with
        | zero =>
          have first := stores store
          simp [failed] at first
        | succ i =>
          refine ih (attempt + 1) _ ⟨i, Nat.lt_of_succ_lt_succ below, ?_⟩
          rwa [Nat.add_assoc, Nat.add_comm 1 i]

variable {maxRetries : Int}

/-- What a flush does to the storage, with at least one attempt to make. The batch it
    hands over is the whole buffer, and never empty. -/
theorem StorageBackend.Takes.flush (retries : 0 ≤ maxRetries)
    (takes : buffer.contents ≠ [] → ∀ i : Nat, (i : Int) ≤ maxRetries →
      backend.Takes P F Q (choices i) buffer.contents) (start : P store) :
    (backend.flush maxRetries buffer choices store).Ends (buffer.contents = []) F Q := by
  by_cases empty : buffer.len = 0
  · simp only [StorageBackend.flush, empty, if_true]
    exact buffer.len_eq_zero.mp empty
  · have filled : buffer.contents ≠ [] := fun none => empty (buffer.len_eq_zero.mpr none)
    have result := StorageBackend.Takes.attempts (maxRetries + 1).toNat 0 none
      (fun i below => by simpa using takes filled i (by omega)) (.inl start) (by omega)
    simp only [StorageBackend.flush, empty, if_false, StorageBackend.storeWithRetries]
    cases stored : backend.attempts buffer.contents choices (maxRetries + 1).toNat 0 store none with
    | mk store' err =>
      rw [stored] at result
      cases err <;> exact result

/-- With a negative retry count no attempt is made, and the batch passes for stored. -/
theorem StorageBackend.flush_of_neg (unused : maxRetries < 0) (buffer : Buffer M) (store : σ) :
    backend.flush maxRetries buffer choices store = if buffer.len = 0 then .empty
      else .stored store := by
  have none_left : (maxRetries + 1).toNat = 0 := by omega
  simp [StorageBackend.flush, StorageBackend.storeWithRetries, none_left, StorageBackend.attempts]

/-- A storage that takes a batch as a whole or fails and takes nothing of it. It keeps its
    own copy of the batch. -/
structure Recorder (ε M : Type) where
  stored : List (List M) := []
  failures : List ε := []

/-- The choice is the error to fail with. -/
def recording : StorageBackend (Recorder ε M) (Option ε) ε M where
  storeBatch r choice batch :=
    match choice with
    | none => ({ r with stored := r.stored ++ [batch] }, none)
    | some err => ({ r with failures := r.failures ++ [err] }, some err)

theorem recording_takes {P F Q} {choice : Option ε} {batch : List M}
    (success : ∀ r, P r ∨ F r → Q { r with stored := r.stored ++ [batch] })
    (failure : ∀ r err, P r ∨ F r → F { r with failures := r.failures ++ [err] }) :
    recording.Takes P F Q choice batch := by
  intro r before
  cases choice with
  | none => exact success r before
  | some err => exact failure r err before

theorem recording_flush (retries : 0 ≤ maxRetries) (buffer : Buffer M) (choices : Nat → Option ε)
    (r : Recorder ε M) : (recording.flush maxRetries buffer choices r).Ends (buffer.contents = [])
      (fun r' => r'.stored = r.stored) (fun r' => r'.stored = r.stored ++ [buffer.contents]) := by
  have takes (choice : Option ε) : recording.Takes (fun r' : Recorder ε M => r'.stored = r.stored)
      (fun r' => r'.stored = r.stored) (fun r' => r'.stored = r.stored ++ [buffer.contents]) choice
      buffer.contents :=
    recording_takes (fun _ before => congrArg (· ++ [buffer.contents]) (before.elim id id))
      (fun _ _ before => before.elim id id)
  exact StorageBackend.Takes.flush retries (fun _ i _ => takes (choices i)) rfl

theorem recording_flush_succeeds (retries : 0 ≤ maxRetries) (buffer : Buffer M) {choices}
    (succeeds : (choices 0).isNone = true) (r : Recorder ε M) :
    recording.flush maxRetries buffer choices r =
      if buffer.len = 0 then .empty else .stored { r with stored := r.stored ++ [buffer.contents] } := by
  obtain ⟨left, attempts⟩ : ∃ left, (maxRetries + 1).toNat = left + 1 :=
    ⟨maxRetries.toNat, by omega⟩
  have first : choices 0 = none := Option.isNone_iff_eq_none.mp succeeds
  simp [StorageBackend.flush, StorageBackend.storeWithRetries, attempts, StorageBackend.attempts,
    recording, first]

end

end Portask.Processor
