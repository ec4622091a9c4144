import Portask.Queue.LockFreeSequential
import Portask.Queue.Ultra

/-! # Both rings are bounded FIFOs under one caller

The two queues of the package use different slot protocols and are driven through
different methods, one message or one batch at a time. For a single caller each of
them answers as a list of bounded length does. The lock-free queue does so through
any number of wraps of its positions, since it compares by signed difference; the
ultra queue compares positions as unsigned words and is right up to the wrap.
-/

namespace Portask.Queue

open Lib Lib.Ring Fifo

namespace BoundedFifo

variable {M : Type}

inductive Call (M : Type) where
  | enqueue (item : M)
  | dequeue
  | size
  deriving DecidableEq

inductive Answer (M : Type) where
  | accepted (ok : Bool)
  | taken (item : Option M) (ok : Bool)
  | size (n : Int)
  deriving DecidableEq

def lockFree : Object (LockFreeQueue M) (Call M) (Answer M) where
  apply q
    | .enqueue item => ((q.enqueue (some item)).1, .accepted (q.enqueue (some item)).2)
    | .dequeue => (q.dequeue.1, .taken q.dequeue.2.1 q.dequeue.2.2)
    | .size => (q, .size q.size.toInt)

def single (bound : Nat) : Object (List M) (Call M) (Answer M) where
  apply held
    | .enqueue item => ((offer bound held item).1, .accepted (offer bound held item).2)
    | .dequeue => ((take held).1, .taken (take held).2 (take held).2.isSome)
    | .size => (held, .size held.length)

inductive BatchCall (M : Type) where
  | batchEnqueue (messages : List M)
  | batchDequeue (maxBatch : Nat)
  deriving DecidableEq

/-- How many single enqueues a call may make. -/
def BatchCall.offered : BatchCall M → Nat
  | .batchEnqueue messages => messages.length
  | .batchDequeue _ => 0

inductive BatchAnswer (M : Type) where
  | enqueued (count : Nat)
  | messages (batch : List M)
  | noReturn
  deriving DecidableEq

def ultra : Object (UltraHighPerformanceQueue M) (BatchCall M) (BatchAnswer M) where
  apply q
    | .batchEnqueue messages =>
      match q.batchEnqueue (messages.map some) with
      | some (after, count) => (after, .enqueued count)
      | none => (q, .noReturn)
    | .batchDequeue maxBatch =>
      match q.batchDequeue maxBatch with
      | some (after, batch) => (after, .messages batch)
      | none => (q, .noReturn)

def batched (bound : Nat) : Object (List M) (BatchCall M) (BatchAnswer M) where
  apply held
    | .batchEnqueue messages =>
      ((offerAll bound held messages).1, .enqueued (offerAll bound held messages).2)
    | .batchDequeue maxBatch =>
      ((takeAll held maxBatch).1, .messages (takeAll held maxBatch).2)

/-- The lock-free queue holds `held`; how many calls may follow does not matter. -/
def LockFreeHolds (e : Nat) (_ : Nat) (q : LockFreeQueue M) (held : List M) : Prop :=
  q.dropPolicy = .dropNewest ∧ ∃ head, q.Represents e head (held.map some)

theorem lockFree_step (e n : Nat) (q : LockFreeQueue M) (held : List M) (call : Call M)
    (related : LockFreeHolds e (0 + n) q held) :
    (lockFree.apply q call).2 = ((single (2 ^ e)).apply held call).2 ∧
      LockFreeHolds e n (lockFree.apply q call).1 ((single (2 ^ e)).apply held call).1 := by
  obtain ⟨policy, head, rep⟩ := related
  cases call with
  | enqueue item =>
    simp only [lockFree, single, offer]
    by_cases room : held.length < 2 ^ e
    · obtain ⟨ok, after, samePolicy, -⟩ := rep.enqueue_room (by simpa using room) (some item)
      simp only [if_pos room]
      exact ⟨by rw [ok], samePolicy.trans policy, head, by simpa using after⟩
    · have full : (held.map some).length = 2 ^ e :=
        Nat.le_antisymm rep.holds.bounded (by simpa using room)
      simp only [if_neg room, rep.enqueue_dropNewest full policy]
      exact ⟨trivial, policy, head, rep.addDropCount⟩
  | dequeue =>
    cases held with
    | nil =>
      simp only [lockFree, single, take, rep.dequeue_nil]
      exact ⟨rfl, policy, head, rep⟩
    | cons x rest =>
      obtain ⟨answer, after, samePolicy, -⟩ := rep.dequeue_cons
      simp only [lockFree, single, take, answer]
      exact ⟨rfl, samePolicy.trans policy, head + 1, after⟩
  | size =>
    refine ⟨?_, policy, head, rep⟩
    simp [lockFree, single, rep.size_eq]

/-- The ultra queue holds `held` and can take `n` more messages before the positions
    leave the range in which they compare as numbers. -/
def UltraHolds (e n : Nat) (q : UltraHighPerformanceQueue M) (held : List M) : Prop :=
  ∃ head, q.Represents e head (held.map some) ∧ head + held.length + n < 2 ^ 63

theorem ultra_step (e n : Nat) (q : UltraHighPerformanceQueue M) (held : List M)
    (call : BatchCall M) (related : UltraHolds e (call.offered + n) q held) :
    (ultra.apply q call).2 = ((batched (2 ^ e)).apply held call).2 ∧
      UltraHolds e n (ultra.apply q call).1 ((batched (2 ^ e)).apply held call).1 := by
  obtain ⟨head, rep, unwrapped⟩ := related
  cases call with
  | batchEnqueue messages =>
    simp only [BatchCall.offered] at unwrapped
    obtain ⟨after, entered, final⟩ := rep.batchEnqueue (messages.map some) (by simp; omega)
    have offers : offerAll (2 ^ e) (held.map some) (messages.map some) =
        ((offerAll (2 ^ e) held messages).1.map some,
          (offerAll (2 ^ e) held messages).2) := by
      simp [offerAll]
    rw [offers] at entered final
    simp only [ultra, batched, entered]
    refine ⟨trivial, head, final, ?_⟩
    simp only [offerAll, List.length_append, List.length_take]
    omega
  | batchDequeue maxBatch =>
    simp only [BatchCall.offered] at unwrapped
    obtain ⟨after, taken, final⟩ := rep.batchDequeue maxBatch (by omega)
    simp only [ultra, batched, taken]
    refine ⟨trivial, _, final, ?_⟩
    simp only [takeAll, List.length_take, List.length_drop]
    omega

/-- The number of slots for which there is room is a power of two, so rounding up does not pass it. -/
theorem makeable_iff (two : 2 ≤ capacity) (room : size * 2 ^ k = maxAlloc) (few : k ≤ 62) :
    ¬ (roundCapacity capacity < 0 ∨ maxAlloc < size * (roundCapacity capacity).toNatClampNeg) ↔
      capacity.toInt ≤ 2 ^ k := by
  have nonneg : 0 ≤ capacity := Int64.le_trans (by decide) two
  have sized : 0 < size := by
    by_contra none
    simp [Nat.eq_zero_of_not_pos none, maxAlloc] at room
  rw [not_or, Int64.not_lt, Nat.not_lt, ← room, toInt_of_nonneg nonneg,
    Nat.mul_le_mul_left_iff sized]
  constructor
  · rintro ⟨kept, fits⟩
    obtain ⟨e, -, -, rfl, rounded⟩ := roundCapacity_ring ((roundCapacity_of_two_le two).2 kept)
    rw [rounded] at fits
    exact_mod_cast (Nat.le_pow_clog (by decide) _).trans fits
  · intro asked
    have below : (2 : Int) ^ k ≤ 2 ^ 62 := by exact_mod_cast Nat.pow_le_pow_right (by decide) few
    have kept := (roundCapacity_of_two_le two).1.mpr (toInt_of_nonneg nonneg ▸ asked.trans below)
    obtain ⟨e, -, -, rfl, rounded⟩ := roundCapacity_ring ((roundCapacity_of_two_le two).2 kept)
    rw [rounded]
    exact ⟨kept, Nat.pow_le_pow_right (by decide) (Nat.clog_le_of_le_pow (by exact_mod_cast asked))⟩

/-- For a requested capacity of at least two each constructor makes a queue unless the
    rounded capacity takes more bytes than can be allocated, and the queue made answers every
    sequence of calls as the FIFO of the next power of two. -/
theorem queues_refine_fifo {capacity : Int64} (two : 2 ≤ capacity) (name : String) :
    ((newLockFreeQueue (M := M) name capacity .dropNewest).isSome ↔ capacity.toInt ≤ 2 ^ 44) ∧
    (∀ q : LockFreeQueue M, newLockFreeQueue name capacity .dropNewest = some q → ∀ calls,
      (lockFree.run q calls).2 =
        ((single (2 ^ Nat.clog 2 capacity.toNatClampNeg)).run [] calls).2) ∧
    (∀ batchSize, (newUltraHighPerformanceQueue (M := M) name capacity batchSize).isSome ↔
      capacity.toInt ≤ 2 ^ 42) ∧
    (∀ batchSize (q : UltraHighPerformanceQueue M),
      newUltraHighPerformanceQueue name capacity batchSize = some q →
      ∀ calls, (calls.map BatchCall.offered).sum < 2 ^ 63 →
        (ultra.run q calls).2 =
          ((batched (2 ^ Nat.clog 2 capacity.toNatClampNeg)).run [] calls).2) := by
  have nonneg : 0 ≤ capacity := Int64.le_trans (by decide) two
  rw [← Int64.toNat_toUInt64_of_le nonneg]
  refine ⟨?_, ?_, ?_, ?_⟩
  · rw [← makeable_iff two (show 16 * 2 ^ 44 = maxAlloc by decide) (by decide)]
    simp only [newLockFreeQueue]
    split <;> simp [*]
  · intro q made calls
    have rounded : q.capacity = roundCapacity capacity ∧ ¬ roundCapacity capacity < 0 := by
      simp only [newLockFreeQueue] at made
      split at made
      · cases made
      · next makeable =>
          cases made
          exact ⟨rfl, fun negative => makeable (.inl negative)⟩
    have atLeast : 2 ≤ q.capacity := by
      rw [rounded.1]
      exact (roundCapacity_of_two_le two).2 (Int64.not_lt.mp rounded.2)
    obtain ⟨rep, policy⟩ := LockFreeQueue.represents_new made atLeast
    exact (Object.run_simulates (fun _ => 0) (lockFree_step _) calls (n := 0)
      ⟨policy, 0, rep⟩).1
  · intro batchSize
    rw [← makeable_iff two (show 64 * 2 ^ 42 = maxAlloc by decide) (by decide),
      UltraHighPerformanceQueue.new_eq two]
    split <;> simp [*]
  · intro batchSize q made calls few
    have rep := UltraHighPerformanceQueue.represents_new two made
    exact (Object.run_simulates BatchCall.offered (ultra_step _) calls
      (n := 0) ⟨0, rep, by simpa using few⟩).1

/-- Asked for three slots, the queues have four; the fifth message is refused. -/
theorem queues_refine_fifo_three :
    (2 : Int64) ≤ 3 ∧
    (∀ q : LockFreeQueue Nat, newLockFreeQueue "orders" 3 .dropNewest = some q →
      (lockFree.run q
        [.enqueue 1, .enqueue 2, .enqueue 3, .enqueue 4, .enqueue 5, .size, .dequeue]).2 =
      [.accepted true, .accepted true, .accepted true, .accepted true, .accepted false, .size 4,
        .taken (some 1) true]) ∧
    (∀ q : UltraHighPerformanceQueue Nat, newUltraHighPerformanceQueue "orders" 3 8 = some q →
      (ultra.run q [.batchEnqueue [1, 2, 3, 4, 5], .batchDequeue 3, .batchDequeue 3]).2 =
        [.enqueued 4, .messages [1, 2, 3], .messages [4]]) := by
  have two : (2 : Int64) ≤ 3 := by decide
  obtain ⟨-, single, -, batched⟩ := queues_refine_fifo (M := Nat) two "orders"
  refine ⟨two, ?_, ?_⟩
  · intro q made
    rw [single q made]
    decide +kernel
  · intro q made
    rw [batched 8 q made _ (by decide)]
    decide +kernel

end BoundedFifo

end Portask.Queue
