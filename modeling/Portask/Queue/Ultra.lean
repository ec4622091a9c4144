import Portask.Lib.Fifo
import Portask.Queue.LockFree

/-! # The ultra-high-performance queue

The second ring of the package, `pkg/queue/ultra_performance.go`, as one caller alone
executes it. Its fast paths store into the slot first and advance the position
afterwards; its slow paths win the position first. Comparisons are unsigned. Of the
statistics only the integer counters are kept: the averages are floating point and
the latencies come from the clock.
-/

namespace Portask.Queue

open Lib Lib.Ring Fifo

abbrev UltraQueueNode := Ring.Node

structure UltraQueueStats where
  enqueueCount : UInt64 := 0
  dequeueCount : UInt64 := 0
  batchCount : UInt64 := 0
  deriving DecidableEq

structure UltraHighPerformanceQueue (M : Type) where
  mask : UInt64
  buffer : List (UltraQueueNode M)
  enqueuePos : UInt64
  dequeuePos : UInt64
  batchSize : Int64
  stats : UltraQueueStats
  name : String
  capacity : Int64
  deriving DecidableEq

/-- `none` is the panic of `make` on a negative length or too many bytes; a node has 64. -/
def newUltraHighPerformanceQueue {M : Type} (name : String) (capacity batchSize : Int64) :
    Option (UltraHighPerformanceQueue M) :=
  let capacity := if capacity ≤ 0 then 65536 else capacity
  let capacity := (nextPowerOf2 capacity.toUInt64).toInt64
  if capacity < 0 ∨ maxAlloc < 64 * capacity.toNatClampNeg then none
  else some {
    name, capacity, batchSize
    mask := (capacity - 1).toUInt64
    buffer := Ring.fresh capacity.toNatClampNeg
    enqueuePos := 0, dequeuePos := 0
    stats := {} }

namespace UltraHighPerformanceQueue

variable {M : Type}

section

variable (q : UltraHighPerformanceQueue M)

def index (pos : UInt64) : Nat := (pos &&& q.mask).toNat

def sequence (pos : UInt64) : UInt64 :=
  sequenceAt q.buffer (q.index pos)

def data (pos : UInt64) : Option M := dataAt q.buffer (q.index pos)

def storeData (pos : UInt64) (message : Option M) :
    UltraHighPerformanceQueue M :=
  { q with buffer := setData q.buffer (q.index pos) message }

def storeSequence (pos value : UInt64) :
    UltraHighPerformanceQueue M :=
  { q with buffer := setSequence q.buffer (q.index pos) value }

def addEnqueuePos : UltraHighPerformanceQueue M :=
  { q with enqueuePos := q.enqueuePos + 1 }

def addDequeuePos : UltraHighPerformanceQueue M :=
  { q with dequeuePos := q.dequeuePos + 1 }

/-- `none`: the call never returns. A caller that is alone and finds the slot ahead of
    the position repeats the loads of the slow path without end. -/
def fastEnqueue (message : Option M) :
    Option (UltraHighPerformanceQueue M × Bool) :=
  let pos := q.enqueuePos
  let seq := q.sequence pos
  if seq = pos then
    some (((q.storeData pos message).storeSequence pos (pos + 1)).addEnqueuePos, true)
  else if seq < pos then some (q, false)
  else none

def fastDequeue :
    Option (UltraHighPerformanceQueue M × Option M) :=
  let pos := q.dequeuePos
  let seq := q.sequence pos
  if seq = pos + 1 then
    let data := q.data pos
    some ((q.storeSequence pos (pos + q.mask + 1)).addDequeuePos, data)
  else if seq < pos + 1 then some (q, none)
  else none

end

/-- Messages enter until the first one that does not. -/
def batchEnqueueLoop : List (Option M) → UltraHighPerformanceQueue M →
    Option (UltraHighPerformanceQueue M × Nat)
  | [], q => some (q, 0)
  | msg :: messages, q =>
    match q.fastEnqueue msg with
    | some (q, true) => (batchEnqueueLoop messages q).map fun (q, enqueued) => (q, enqueued + 1)
    | some (q, false) => some (q, 0)
    | none => none

def batchEnqueue (q : UltraHighPerformanceQueue M) (messages : List (Option M)) :
    Option (UltraHighPerformanceQueue M × Nat) :=
  (batchEnqueueLoop messages q).map fun (q, enqueued) =>
    ({ q with
      stats.batchCount := q.stats.batchCount + 1
      stats.enqueueCount := q.stats.enqueueCount + UInt64.ofNat enqueued }, enqueued)

/-- Up to `maxBatch` messages; a nil message ends the batch like an empty queue. -/
def batchDequeueLoop : Nat → UltraHighPerformanceQueue M →
    Option (UltraHighPerformanceQueue M × List M)
  | 0, q => some (q, [])
  | maxBatch + 1, q =>
    match q.fastDequeue with
    | some (q, some msg) =>
      (batchDequeueLoop maxBatch q).map fun (q, messages) => (q, msg :: messages)
    | some (q, none) => some (q, [])
    | none => none

def batchDequeue (q : UltraHighPerformanceQueue M) (maxBatch : Nat) :
    Option (UltraHighPerformanceQueue M × List M) :=
  (batchDequeueLoop maxBatch q).map fun (q, messages) =>
    (if messages.length > 0 then
      { q with stats.dequeueCount := q.stats.dequeueCount + UInt64.ofNat messages.length }
    else q, messages)

end UltraHighPerformanceQueue

/-- The fields that never change, for a ring of `2 ^ e` slots. -/
structure UltraHighPerformanceQueue.Shape {M : Type} (q : UltraHighPerformanceQueue M) (e : Nat) :
    Prop where
  two : 1 ≤ e
  fits : e ≤ 62
  mask : q.mask = UInt64.ofNat (2 ^ e - 1)
  size : q.buffer.length = 2 ^ e

namespace UltraHighPerformanceQueue

variable {M : Type}

variable {q : UltraHighPerformanceQueue M}

theorem Shape.index (shape : q.Shape e) (p : Nat) : q.index (UInt64.ofNat p) = slot e p := by
  rw [UltraHighPerformanceQueue.index, shape.mask]
  exact masked (by have := shape.fits; omega) p

theorem Shape.index_word (shape : q.Shape e) (pos : UInt64) : q.index pos = slot e pos.toNat := by
  rw [← shape.index, UInt64.ofNat_toNat]

theorem Shape.congr {q after : UltraHighPerformanceQueue M} (shape : q.Shape e)
    (mask : after.mask = q.mask) (size : after.buffer.length = q.buffer.length) : after.Shape e :=
  ⟨shape.two, shape.fits, mask.trans shape.mask, size.trans shape.size⟩

end UltraHighPerformanceQueue

/-- For a requested capacity of at least two both constructors round alike. -/
theorem roundCapacity_eq_nextPowerOf2 (positive : 1 ≤ capacity.toUInt64.toNat) :
    roundCapacity capacity = (nextPowerOf2 capacity.toUInt64).toInt64 := by
  have words : (roundCapacity capacity).toUInt64 = nextPowerOf2 capacity.toUInt64 := by
    rw [← UInt64.toNat_inj, roundCapacity_toNat positive, nextPowerOf2_toNat positive]
  rw [← words, Int64.toInt64_toUInt64]

namespace UltraHighPerformanceQueue

variable {M : Type}

variable {q : UltraHighPerformanceQueue M}

theorem fastEnqueue_of_ready (message : Option M) (ready : q.sequence q.enqueuePos = q.enqueuePos) :
    q.fastEnqueue message =
      some (((q.storeData q.enqueuePos message).storeSequence q.enqueuePos
        (q.enqueuePos + 1)).addEnqueuePos, true) := by
  simp only [fastEnqueue, ready, if_true]

theorem fastDequeue_of_ready (ready : q.sequence q.dequeuePos = q.dequeuePos + 1) : q.fastDequeue =
      some ((q.storeSequence q.dequeuePos (q.dequeuePos + q.mask + 1)).addDequeuePos,
        q.data q.dequeuePos) := by
  simp only [fastDequeue, ready, if_true]

/-- The queue is at rest and holds `held`, the oldest at position `head`. -/
structure Represents (q : UltraHighPerformanceQueue M) (e head : Nat) (held : List (Option M)) :
    Prop where
  shape : q.Shape e
  enqueuePos : q.enqueuePos = UInt64.ofNat (head + held.length)
  dequeuePos : q.dequeuePos = UInt64.ofNat head
  holds : Holds e head held q.buffer

variable {capacity batchSize : Int64} {name : String}

theorem new_eq (two : 2 ≤ capacity) :
    (newUltraHighPerformanceQueue name capacity batchSize : Option (UltraHighPerformanceQueue M)) =
      if roundCapacity capacity < 0 ∨ maxAlloc < 64 * (roundCapacity capacity).toNatClampNeg then none
      else some {
        name, batchSize
        capacity := roundCapacity capacity
        mask := (roundCapacity capacity - 1).toUInt64
        buffer := Ring.fresh (roundCapacity capacity).toNatClampNeg
        enqueuePos := 0, dequeuePos := 0
        stats := {} } := by
  have positive : 0 < capacity := Int64.lt_of_lt_of_le (by decide) two
  have word : 1 ≤ capacity.toUInt64.toNat := by
    have value := toInt_of_nonneg (Int64.le_of_lt positive)
    have := Int64.lt_iff_toInt_lt.mp positive
    rw [value, Int64.toInt_zero] at this
    omega
  simp only [newUltraHighPerformanceQueue, if_neg (Int64.not_le.mpr positive),
    ← roundCapacity_eq_nextPowerOf2 word]

/-- What the constructor makes of a requested capacity of at least two. -/
theorem new_fresh (two : 2 ≤ capacity)
    (made : newUltraHighPerformanceQueue name capacity batchSize = some q) :
    ∃ e, e = Nat.clog 2 capacity.toUInt64.toNat ∧ q.Shape e ∧ q.buffer = Ring.fresh (2 ^ e) ∧
      q.enqueuePos = 0 ∧ q.dequeuePos = 0 := by
  rw [new_eq two] at made
  split at made
  · cases made
  · rename_i makeable
    cases made
    have nonneg := Int64.not_lt.mp fun negative => makeable (.inl negative)
    obtain ⟨e, atLeast, atMost, exponent, rounded⟩ :=
      roundCapacity_ring ((roundCapacity_of_two_le two).2 nonneg)
    refine ⟨e, exponent, ⟨atLeast, atMost, mask_of_ring nonneg rounded, by simp [rounded]⟩, ?_,
      rfl, rfl⟩
    rw [rounded]

theorem represents_new (two : 2 ≤ capacity)
    (made : newUltraHighPerformanceQueue name capacity batchSize = some q) :
    q.Represents (Nat.clog 2 capacity.toUInt64.toNat) 0 [] := by
  obtain ⟨e, rfl, shape, buffer, enqueuePos, dequeuePos⟩ := new_fresh two made
  refine ⟨shape, enqueuePos, dequeuePos, ?_⟩
  rw [buffer]
  exact Holds.fresh _

namespace Represents

variable {q : UltraHighPerformanceQueue M} {e head : Nat} {held : List (Option M)}

section

variable (rep : q.Represents e head held)
include rep

theorem slot_inside (p : Nat) : slot e p < q.buffer.length := by
  rw [rep.shape.size]
  exact slot_lt e _

theorem fastEnqueue_room (room : held.length < 2 ^ e) (item : Option M) :
    ∃ after, q.fastEnqueue item = some (after, true) ∧
      after.Represents e head (held ++ [item]) := by
  have index := rep.shape.index (head + held.length)
  rw [← rep.enqueuePos] at index
  have ready : q.sequence q.enqueuePos = q.enqueuePos := by
    rw [sequence, index, rep.holds.free _ le_rfl room, rep.enqueuePos]
  rw [UltraHighPerformanceQueue.index] at index
  refine ⟨_, fastEnqueue_of_ready item ready, ?_, ?_, rep.dequeuePos, ?_⟩
  · exact rep.shape.congr rfl (by simp [storeData, storeSequence, addEnqueuePos])
  · simp only [addEnqueuePos, storeSequence, storeData, rep.enqueuePos, word_succ]
    simp [Nat.add_assoc]
  · simp only [addEnqueuePos, storeSequence, storeData, UltraHighPerformanceQueue.index, index]
    rw [rep.enqueuePos, word_succ]
    exact rep.holds.pushed room item

/-- The comparison with the oldest message's slot is unsigned, so the positions
    must not have wrapped. -/
theorem fastEnqueue_full (full : held.length = 2 ^ e)
    (unwrapped : head + held.length < 2 ^ 64) (item : Option M) :
    q.fastEnqueue item = some (q, false) := by
  have two : 2 ^ 1 ≤ 2 ^ e := Nat.pow_le_pow_right (by omega) rep.shape.two
  have oldest : q.sequence q.enqueuePos = UInt64.ofNat (head + 1) := by
    rw [sequence, rep.enqueuePos, rep.shape.index, full, slot_add_turn]
    obtain ⟨x, rest, rfl⟩ := List.exists_cons_of_length_pos (l := held) (by omega)
    simpa using (rep.holds.full 0 x (by simp)).1
  have below : q.sequence q.enqueuePos < q.enqueuePos := by
    rw [oldest, rep.enqueuePos, UInt64.lt_iff_toNat_lt, toNat_word (by omega), toNat_word unwrapped]
    omega
  simp only [fastEnqueue, if_neg (UInt64.ne_of_lt below), if_pos below]

end

theorem fastDequeue_cons (rep : q.Represents e head (x :: rest)) :
    ∃ after, q.fastDequeue = some (after, x) ∧ after.Represents e (head + 1) rest := by
  obtain ⟨sequenceEq, dataEq⟩ := rep.holds.full 0 x (by simp)
  rw [Nat.add_zero] at sequenceEq dataEq
  have index := rep.shape.index head
  rw [← rep.dequeuePos] at index
  have inside := rep.slot_inside head
  have ready : q.sequence q.dequeuePos = q.dequeuePos + 1 := by
    rw [sequence, index, sequenceEq, rep.dequeuePos, word_succ]
  have found : q.data q.dequeuePos = x := by
    rw [data, index, dataEq]
  rw [UltraHighPerformanceQueue.index] at index
  refine ⟨_, by rw [fastDequeue_of_ready ready, found], ?_, ?_, ?_, ?_⟩
  · exact rep.shape.congr rfl (by simp [storeSequence, addDequeuePos])
  · simp only [addDequeuePos, storeSequence, rep.enqueuePos, List.length_cons]
    congr 1
    omega
  · simp only [addDequeuePos, storeSequence, rep.dequeuePos, word_succ]
  · simp only [addDequeuePos, storeSequence, UltraHighPerformanceQueue.index, index]
    apply rep.holds.pop
    · simp
    · rw [sequenceAt_setSequence _ _ _ inside, if_pos rfl, rep.dequeuePos, rep.shape.mask,
        word_add_mask]
    · intro i elsewhere
      rw [sequenceAt_setSequence _ _ _ inside, if_neg (Ne.symm elsewhere), dataAt_setSequence]
      exact ⟨rfl, rfl⟩

theorem fastDequeue_nil (rep : q.Represents e head []) (unwrapped : head < 2 ^ 63) :
    q.fastDequeue = some (q, none) := by
  have free := rep.holds.free 0 le_rfl (Nat.two_pow_pos e)
  rw [Nat.add_zero] at free
  have below : q.sequence q.dequeuePos < q.dequeuePos + 1 := by
    rw [sequence, rep.dequeuePos, rep.shape.index, free, word_succ, UInt64.lt_iff_toNat_lt,
      toNat_word (by omega), toNat_word (by omega)]
    omega
  simp only [fastDequeue, if_neg (UInt64.ne_of_lt below), if_pos below]

section

variable (rep : q.Represents e head held)
include rep

theorem stats (stats : UltraQueueStats) :
    ({ q with stats } : UltraHighPerformanceQueue M).Represents e head held :=
  ⟨rep.shape.congr rfl rfl, rep.enqueuePos, rep.dequeuePos, rep.holds⟩

/-- What a batch puts in is what fits of it. -/
theorem batchEnqueueLoop (messages : List (Option M))
    (unwrapped : head + held.length + messages.length < 2 ^ 63) :
    ∃ after, UltraHighPerformanceQueue.batchEnqueueLoop messages q =
        some (after, (offerAll (2 ^ e) held messages).2) ∧
      after.Represents e head (offerAll (2 ^ e) held messages).1 := by
  induction messages generalizing q held with
  | nil => exact ⟨q, by simp [UltraHighPerformanceQueue.batchEnqueueLoop, offerAll], by
      simpa [offerAll] using rep⟩
  | cons item rest ih =>
    simp only [List.length_cons] at unwrapped
    by_cases room : held.length < 2 ^ e
    · obtain ⟨middle, entered, rep'⟩ := rep.fastEnqueue_room room item
      obtain ⟨after, looped, final⟩ := ih rep' (by simp; omega)
      have split : 2 ^ e - held.length = (2 ^ e - (held.length + 1)) + 1 := by omega
      refine ⟨after, ?_, ?_⟩
      · simp only [UltraHighPerformanceQueue.batchEnqueueLoop, entered, looped, Option.map_some]
        simp [offerAll, split]
      · simpa [offerAll, split] using final
    · have bounded := rep.holds.bounded
      have none : 2 ^ e - held.length = 0 := by omega
      refine ⟨q, ?_, by simpa [offerAll, none] using rep⟩
      simp only [UltraHighPerformanceQueue.batchEnqueueLoop,
        rep.fastEnqueue_full (by omega) (by omega) item]
      simp [offerAll, none]

theorem batchEnqueue (messages : List (Option M))
    (unwrapped : head + held.length + messages.length < 2 ^ 63) :
    ∃ after, q.batchEnqueue messages = some (after, (offerAll (2 ^ e) held messages).2) ∧
      after.Represents e head (offerAll (2 ^ e) held messages).1 := by
  obtain ⟨after, looped, final⟩ := rep.batchEnqueueLoop messages unwrapped
  refine ⟨_, by rw [UltraHighPerformanceQueue.batchEnqueue, looped]; rfl, final.stats _⟩

end

/-- A batch is what the queue holds, up to the size asked for. The messages are not
    nil: a nil one would end the batch. -/
theorem batchDequeueLoop {held} (rep : q.Represents e head (held.map some)) (maxBatch : Nat)
    (unwrapped : head + held.length < 2 ^ 63) :
    ∃ after, UltraHighPerformanceQueue.batchDequeueLoop maxBatch q =
        some (after, (takeAll held maxBatch).2) ∧
      after.Represents e (head + (held.take maxBatch).length)
        ((takeAll held maxBatch).1.map some) := by
  induction maxBatch generalizing q head held with
  | zero => exact ⟨q, by simp [UltraHighPerformanceQueue.batchDequeueLoop, takeAll], by
      simpa [takeAll] using rep⟩
  | succ maxBatch ih =>
    cases held with
    | nil =>
      refine ⟨q, ?_, by simpa [takeAll] using rep⟩
      simp only [UltraHighPerformanceQueue.batchDequeueLoop,
        rep.fastDequeue_nil (by simpa using unwrapped)]
      rfl
    | cons x rest =>
      simp only [List.length_cons] at unwrapped
      obtain ⟨middle, taken, rep'⟩ := rep.fastDequeue_cons
      obtain ⟨after, looped, final⟩ := ih rep' (by omega)
      refine ⟨after, ?_, ?_⟩
      · simp only [UltraHighPerformanceQueue.batchDequeueLoop, taken, looped, Option.map_some]
        rfl
      · have position : head + 1 + (rest.take maxBatch).length =
            head + ((x :: rest).take (maxBatch + 1)).length := by
          simp only [List.take_succ_cons, List.length_cons]
          omega
        rw [← position]
        exact final

theorem batchDequeue {held} (rep : q.Represents e head (held.map some)) (maxBatch : Nat)
    (unwrapped : head + held.length < 2 ^ 63) :
    ∃ after, q.batchDequeue maxBatch = some (after, (takeAll held maxBatch).2) ∧
      after.Represents e (head + (held.take maxBatch).length)
        ((takeAll held maxBatch).1.map some) := by
  obtain ⟨after, looped, final⟩ := rep.batchDequeueLoop maxBatch unwrapped
  refine ⟨_, by rw [UltraHighPerformanceQueue.batchDequeue, looped]; rfl, ?_⟩
  dsimp only
  split
  · exact final.stats _
  · exact final

end Represents

end UltraHighPerformanceQueue

end Portask.Queue
