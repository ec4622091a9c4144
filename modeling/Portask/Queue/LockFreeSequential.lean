import Portask.Lib.Machine
import Portask.Lib.Fifo
import Portask.Queue.LockFree

/-! # The lock-free queue under one caller

`Represents` says which messages a queue at rest holds. Every method moves it in
the way the abstract queue moves, through any number of wraps of the positions.
The drop-oldest policy is the exception: on a full queue `Enqueue` moves
`dequeuePos` past a slot that nobody ever releases.
-/

namespace Portask.Queue

open Lib Lib.Ring Ring

namespace LockFreeQueue

variable {M : Type}

/-! One pass of each loop, by what it finds in the slot. -/

variable {q : LockFreeQueue M}

section

variable (item : Option M)

theorem enqueue_of_ready (ready : dif (q.sequence q.enqueuePos) q.enqueuePos = 0) :
    q.enqueue item =
      (((({ q with enqueuePos := q.enqueuePos + 1 }).storeData q.enqueuePos item).storeSequence
        q.enqueuePos (q.enqueuePos + 1)).addEnqueueCount, true) := by
  rw [enqueue, show maxRetries = 999 + 1 from rfl, enqueueLoop]
  simp only [ready, if_true]

theorem enqueue_of_behind (notReady : dif (q.sequence q.enqueuePos) q.enqueuePos ≠ 0)
    (behind : dif (q.sequence q.enqueuePos) q.enqueuePos < 0)
    (policy : q.dropPolicy = .dropNewest) : q.enqueue item = (q.addDropCount, false) := by
  rw [enqueue, show maxRetries = 999 + 1 from rfl, enqueueLoop]
  simp only [notReady, behind, policy, if_false, if_true]

/-- Nothing a retry of the drop-oldest branch does can make the slot ready. After all of
    them only `dequeuePos` has moved, and where to does not depend on where it was. -/
theorem enqueueLoop_gives_up (tries : Nat) (policy : q.dropPolicy = .dropOldest)
    (notReady : dif (q.sequence q.enqueuePos) q.enqueuePos ≠ 0)
    (behind : dif (q.sequence q.enqueuePos) q.enqueuePos < 0) : enqueueLoop item (tries + 1) q =
      (({ q with dequeuePos := q.enqueuePos - q.capacity.toUInt64 + 1 }).addDropCount, false) := by
  induction tries generalizing q with
  | zero =>
    rw [enqueueLoop]
    simp only [notReady, behind, policy, if_false, if_true]
    rfl
  | succ tries ih =>
    rw [enqueueLoop]
    simp only [notReady, behind, policy, if_false, if_true]
    exact ih rfl notReady behind

theorem enqueue_gives_up (policy : q.dropPolicy = .dropOldest)
    (notReady : dif (q.sequence q.enqueuePos) q.enqueuePos ≠ 0)
    (behind : dif (q.sequence q.enqueuePos) q.enqueuePos < 0) :
    q.enqueue item =
      (({ q with dequeuePos := q.enqueuePos - q.capacity.toUInt64 + 1 }).addDropCount, false) := by
  rw [enqueue, show maxRetries = 999 + 1 from rfl]
  exact enqueueLoop_gives_up item 999 policy notReady behind

end

theorem dequeue_of_ready (ready : dif (q.sequence q.dequeuePos) (q.dequeuePos + 1) = 0) :
    q.dequeue =
      (((({ q with dequeuePos := q.dequeuePos + 1 }).storeData q.dequeuePos none).storeSequence
        q.dequeuePos (q.dequeuePos + q.mask + 1)).addDequeueCount, q.data q.dequeuePos, true) := by
  rw [dequeue, show maxRetries = 999 + 1 from rfl, dequeueLoop]
  simp only [ready, if_true]
  rfl

theorem dequeue_of_behind (notReady : dif (q.sequence q.dequeuePos) (q.dequeuePos + 1) ≠ 0)
    (behind : dif (q.sequence q.dequeuePos) (q.dequeuePos + 1) < 0) :
    q.dequeue = (q, none, false) := by
  rw [dequeue, show maxRetries = 999 + 1 from rfl, dequeueLoop]
  simp only [notReady, behind, if_false, if_true]

/-- The queue is at rest and holds `held`, the oldest at position `head`. -/
structure Represents (q : LockFreeQueue M) (e head : Nat) (held : List (Option M)) : Prop where
  shape : q.Shape e
  enqueuePos : q.enqueuePos = UInt64.ofNat (head + held.length)
  dequeuePos : q.dequeuePos = UInt64.ofNat head
  holds : Holds e head held q.buffer

theorem represents_new {name capacity dropPolicy}
    (made : newLockFreeQueue name capacity dropPolicy = some q) (two : 2 ≤ q.capacity) :
    q.Represents (Nat.clog 2 capacity.toUInt64.toNat) 0 [] ∧ q.dropPolicy = dropPolicy := by
  obtain ⟨e, rfl, shape, buffer, enqueuePos, dequeuePos, policy⟩ := newLockFreeQueue_eq made two
  refine ⟨⟨shape, enqueuePos, dequeuePos, ?_⟩, policy⟩
  rw [buffer]
  exact Holds.fresh _

namespace Represents

variable {q : LockFreeQueue M} {e head : Nat} {held : List (Option M)}

section

variable (rep : q.Represents e head held)
include rep

/-- The slot the next `Enqueue` looks at. -/
theorem enqueue_sequence :
    q.sequence q.enqueuePos = sequenceAt q.buffer (slot e (head + held.length)) := by
  rw [sequence, rep.enqueuePos, rep.shape.index]

theorem enqueue_ready (room : held.length < 2 ^ e) : q.sequence q.enqueuePos = q.enqueuePos := by
  rw [rep.enqueue_sequence, rep.holds.free _ le_rfl room, rep.enqueuePos]

/-- On a full queue the next slot still carries the oldest message. -/
theorem enqueue_blocked (full : held.length = 2 ^ e) :
    q.sequence q.enqueuePos = UInt64.ofNat (head + 1) := by
  rw [rep.enqueue_sequence, full, slot_add_turn]
  have positive := Nat.two_pow_pos e
  obtain ⟨x, rest, rfl⟩ := List.exists_cons_of_length_pos (l := held) (by omega)
  simpa using (rep.holds.full 0 x (by simp)).1

theorem enqueue_room (room : held.length < 2 ^ e) (item : Option M) :
    (q.enqueue item).2 = true ∧ (q.enqueue item).1.Represents e head (held ++ [item]) ∧
      (q.enqueue item).1.dropPolicy = q.dropPolicy ∧
      (q.enqueue item).1.dequeuePos = q.dequeuePos := by
  have ready : dif (q.sequence q.enqueuePos) q.enqueuePos = 0 :=
    (dif_eq_zero_iff _ _).mpr (rep.enqueue_ready room)
  have index := rep.shape.index (head + held.length)
  rw [← rep.enqueuePos, LockFreeQueue.index] at index
  rw [enqueue_of_ready item ready]
  refine ⟨rfl, ⟨?_, ?_, rep.dequeuePos, ?_⟩, rfl, rfl⟩
  · exact rep.shape.congr rfl rfl (by simp [storeData, storeSequence, addEnqueueCount])
  · simp only [addEnqueueCount, storeSequence, storeData, rep.enqueuePos, word_succ]
    simp [Nat.add_assoc]
  · simp only [addEnqueueCount, storeSequence, storeData, LockFreeQueue.index, index]
    rw [rep.enqueuePos, word_succ]
    exact rep.holds.pushed room item

theorem enqueue_full (full : held.length = 2 ^ e) :
    dif (q.sequence q.enqueuePos) q.enqueuePos ≠ 0 ∧
      dif (q.sequence q.enqueuePos) q.enqueuePos < 0 := by
  have turn := rep.shape.turn
  have two : 2 ^ 1 ≤ 2 ^ e := Nat.pow_le_pow_right (by omega) rep.shape.two
  rw [rep.enqueue_blocked full, rep.enqueuePos, full, Ne,
    dif_eq_zero (by omega) (by omega), dif_neg (by omega) (by omega)]
  omega

theorem enqueue_dropNewest (full : held.length = 2 ^ e)
    (policy : q.dropPolicy = .dropNewest) (item : Option M) :
    q.enqueue item = (q.addDropCount, false) := by
  obtain ⟨notReady, behind⟩ := rep.enqueue_full full
  exact enqueue_of_behind item notReady behind policy

theorem addDropCount : q.addDropCount.Represents e head held :=
  ⟨rep.shape.congr rfl rfl rfl, rep.enqueuePos, rep.dequeuePos, rep.holds⟩

theorem dequeue_sequence : q.sequence q.dequeuePos = sequenceAt q.buffer (slot e head) := by
  rw [sequence, rep.dequeuePos, rep.shape.index]

end

theorem dequeue_cons (rep : q.Represents e head (x :: rest)) :
    q.dequeue.2 = (x, true) ∧ q.dequeue.1.Represents e (head + 1) rest ∧
      q.dequeue.1.dropPolicy = q.dropPolicy ∧ q.dequeue.1.dequeuePos = q.dequeuePos + 1 := by
  obtain ⟨sequence, data⟩ := rep.holds.full 0 x (by simp)
  rw [Nat.add_zero] at sequence data
  have ready : dif (q.sequence q.dequeuePos) (q.dequeuePos + 1) = 0 := by
    rw [dif_eq_zero_iff, rep.dequeue_sequence, sequence, rep.dequeuePos, word_succ]
  have index := rep.shape.index head
  rw [← rep.dequeuePos, LockFreeQueue.index] at index
  have inside : slot e head < q.buffer.length := by
    rw [rep.shape.size]
    exact slot_lt e _
  rw [dequeue_of_ready ready]
  refine ⟨?_, ⟨?_, ?_, ?_, ?_⟩, rfl, rfl⟩
  · simp only [LockFreeQueue.data, LockFreeQueue.index, index, data]
  · exact rep.shape.congr rfl rfl (by simp [storeData, storeSequence, addDequeueCount])
  · simp only [addDequeueCount, storeSequence, storeData, rep.enqueuePos, List.length_cons]
    congr 1
    omega
  · simp only [addDequeueCount, storeSequence, storeData, rep.dequeuePos, word_succ]
  · simp only [addDequeueCount, storeSequence, storeData, LockFreeQueue.index, index]
    apply rep.holds.pop
    · simp
    · rw [sequenceAt_setSequence _ _ _ (by simpa using inside), if_pos rfl, rep.dequeuePos,
        rep.shape.mask, word_add_mask]
    · intro i elsewhere
      rw [sequenceAt_setSequence _ _ _ (by simpa using inside), if_neg (Ne.symm elsewhere),
        sequenceAt_setData, dataAt_setSequence, dataAt_setData _ _ _ inside,
        if_neg (Ne.symm elsewhere)]
      exact ⟨rfl, rfl⟩

theorem dequeue_nil (rep : q.Represents e head []) : q.dequeue = (q, none, false) := by
  have free := rep.holds.free 0 le_rfl (Nat.two_pow_pos e)
  rw [Nat.add_zero] at free
  have sequence : q.sequence q.dequeuePos = UInt64.ofNat head := rep.dequeue_sequence.trans free
  have behind : dif (q.sequence q.dequeuePos) (q.dequeuePos + 1) ≠ 0 ∧
      dif (q.sequence q.dequeuePos) (q.dequeuePos + 1) < 0 := by
    rw [sequence, rep.dequeuePos, word_succ, Ne, dif_eq_zero (by omega) (by omega),
      dif_neg (by omega) (by omega)]
    omega
  exact dequeue_of_behind behind.1 behind.2

theorem size_eq (rep : q.Represents e head held) : q.size.toInt = held.length := by
  have turn := rep.shape.turn
  have bounded := rep.holds.bounded
  have apart := dif_toInt (head + held.length) head (by omega) (by omega)
  rw [size, rep.enqueuePos, rep.dequeuePos, UInt64.toInt64_sub]
  rw [dif] at apart
  omega

end Represents

end LockFreeQueue

end Portask.Queue
