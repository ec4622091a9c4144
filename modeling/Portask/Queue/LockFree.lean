import Portask.Lib.SequencedRing

/-! # The lock-free queue

The ring of `pkg/queue/lockfree.go`: its data, its constructor, and each method
as one caller alone executes it. Words keep their 64-bit arithmetic. A message is
a pointer, `none` being nil. The interleaved execution of the same methods is the
subject of `Portask.Queue.LockFreeThreads`.
-/

namespace Portask.Queue

open Lib Lib.Ring

inductive DropPolicy where
  | dropOldest
  | dropNewest
  | block
  deriving DecidableEq

abbrev QueueNode := Ring.Node

structure LockFreeQueue (M : Type) where
  mask : UInt64
  buffer : List (QueueNode M)
  enqueuePos : UInt64
  dequeuePos : UInt64
  enqueueCount : UInt64
  dequeueCount : UInt64
  dropCount : UInt64
  name : String
  capacity : Int64
  dropPolicy : DropPolicy
  deriving DecidableEq

/-- The next power of 2 that is at least `n`. -/
def nextPowerOf2 (n : UInt64) : UInt64 :=
  if n = 0 then 1
  else
    let n := n - 1
    let n := n ||| n >>> 1
    let n := n ||| n >>> 2
    let n := n ||| n >>> 4
    let n := n ||| n >>> 8
    let n := n ||| n >>> 16
    let n := n ||| n >>> 32
    n + 1

def roundCapacity (capacity : Int64) : Int64 :=
  if capacity &&& (capacity - 1) ≠ 0 then (nextPowerOf2 capacity.toUInt64).toInt64 else capacity

/-- The largest number of bytes for which `make` does not panic. That there is enough memory
    for them is taken for granted. -/
def maxAlloc : Nat := 2 ^ 48

/-- `none` is the panic of `make` on a negative length or too many bytes; a node has 16. -/
def newLockFreeQueue {M : Type} (name : String) (capacity : Int64) (dropPolicy : DropPolicy) :
    Option (LockFreeQueue M) :=
  let capacity := roundCapacity capacity
  if capacity < 0 ∨ maxAlloc < 16 * capacity.toNatClampNeg then none
  else some {
    name, capacity, dropPolicy
    mask := (capacity - 1).toUInt64
    buffer := Ring.fresh capacity.toNatClampNeg
    enqueuePos := 0, dequeuePos := 0
    enqueueCount := 0, dequeueCount := 0, dropCount := 0 }

namespace LockFreeQueue

variable {M : Type}

section

variable (q : LockFreeQueue M)

def index (pos : UInt64) : Nat := (pos &&& q.mask).toNat

def sequence (pos : UInt64) : UInt64 := sequenceAt q.buffer (q.index pos)

def data (pos : UInt64) : Option M := dataAt q.buffer (q.index pos)

def storeData (pos : UInt64) (item : Option M) : LockFreeQueue M :=
  { q with buffer := setData q.buffer (q.index pos) item }

def storeSequence (pos value : UInt64) : LockFreeQueue M :=
  { q with buffer := setSequence q.buffer (q.index pos) value }

def addEnqueueCount : LockFreeQueue M :=
  { q with enqueueCount := q.enqueueCount + 1 }

def addDequeueCount : LockFreeQueue M :=
  { q with dequeueCount := q.dequeueCount + 1 }

def addDropCount : LockFreeQueue M :=
  { q with dropCount := q.dropCount + 1 }

end

def maxRetries : Nat := 1000

/-- The loop of `Enqueue` with `maxRetries - retryCount` tries left. Alone on the
    queue, every compare-and-swap of a position just loaded succeeds. -/
def enqueueLoop (item : Option M) : Nat → LockFreeQueue M → LockFreeQueue M × Bool
  | 0, q => (q.addDropCount, false)
  | tries + 1, q =>
    let pos := q.enqueuePos
    let dif := Ring.dif (q.sequence pos) pos
    if dif = 0 then
      let q := { q with enqueuePos := pos + 1 }
      (((q.storeData pos item).storeSequence pos (pos + 1)).addEnqueueCount, true)
    else if dif < 0 then
      match q.dropPolicy with
      | .dropNewest => (q.addDropCount, false)
      | .dropOldest =>
        enqueueLoop item tries { q with dequeuePos := pos - q.capacity.toUInt64 + 1 }
      | .block => enqueueLoop item tries q
    else enqueueLoop item tries q

def enqueue (q : LockFreeQueue M) (item : Option M) : LockFreeQueue M × Bool :=
  enqueueLoop item maxRetries q

def dequeueLoop : Nat → LockFreeQueue M → LockFreeQueue M × Option M × Bool
  | 0, q => (q, none, false)
  | tries + 1, q =>
    let pos := q.dequeuePos
    let dif := Ring.dif (q.sequence pos) (pos + 1)
    if dif = 0 then
      let q := { q with dequeuePos := pos + 1 }
      let data := q.data pos
      (((q.storeData pos none).storeSequence pos (pos + q.mask + 1)).addDequeueCount, data, true)
    else if dif < 0 then (q, none, false)
    else dequeueLoop tries q

variable (q : LockFreeQueue M)

def dequeue : LockFreeQueue M × Option M × Bool :=
  dequeueLoop maxRetries q

def size : Int64 := (q.enqueuePos - q.dequeuePos).toInt64

def isEmpty : Bool := q.size ≤ 0

def isFull : Bool := q.capacity ≤ q.size

/-- Drops one item from the head, if there is one, and tries to enqueue once more. -/
def tryForceEnqueueDropOldest (item : Option M) : LockFreeQueue M × Bool :=
  if q.dropPolicy ≠ .dropOldest then (q, false)
  else q.dequeue.1.enqueue item

end LockFreeQueue

theorem nextPowerOf2_toNat (positive : 1 ≤ n.toNat) :
    (nextPowerOf2 n).toNat = 2 ^ Nat.clog 2 n.toNat % 2 ^ 64 := by
  have nonzero : n ≠ 0 := by
    rintro rfl
    simp at positive
  have less : (n - 1).toNat = n.toNat - 1 := by
    rw [UInt64.toNat_sub_of_le _ _ (UInt64.le_iff_toNat_le.mpr (by simpa using positive))]
    simp
  -- the six shifts gather 64 bits
  have covers := (Covers.refl (n - 1).toNat).double.double.double.double.double.double
  have ones := covers.eq_ones (UInt64.toNat_lt (n - 1))
  rw [less, Nat.sub_add_cancel positive] at ones
  simp only [Nat.reduceAdd] at ones
  simp only [nextPowerOf2, nonzero, if_false, UInt64.toNat_add, UInt64.toNat_or,
    UInt64.toNat_shiftRight, UInt64.toNat_ofNat, less, Nat.reducePow, Nat.reduceMod]
  rw [ones]

/-- A word that shares no bit with its predecessor is a power of two. -/
theorem isPowerOfTwo_of_and_pred {c : UInt64} (positive : 1 ≤ c.toNat)
    (disjoint : c &&& (c - 1) = 0) : c.toNat = 2 ^ Nat.clog 2 c.toNat := by
  have less : (c - 1).toNat = c.toNat - 1 := by
    rw [UInt64.toNat_sub_of_le _ _ (UInt64.le_iff_toNat_le.mpr (by simpa using positive))]
    simp
  have zero : c.toNat &&& (c.toNat - 1) = 0 := by
    simpa [less] using congrArg UInt64.toNat disjoint
  obtain ⟨k, power⟩ := (Nat.and_sub_one_eq_zero_iff_isPowerOfTwo (by omega)).mp zero
  rw [power, Nat.clog_pow 2 k (by omega)]

variable {capacity : Int64}

theorem and_pred_toUInt64 (disjoint : capacity &&& (capacity - 1) = 0) :
    capacity.toUInt64 &&& (capacity.toUInt64 - 1) = 0 := by
  have same := congrArg Int64.toUInt64 disjoint
  simp only [Int64.toUInt64_and, Int64.toUInt64_sub] at same
  exact same

theorem roundCapacity_toNat (positive : 1 ≤ capacity.toUInt64.toNat) :
    (roundCapacity capacity).toUInt64.toNat = 2 ^ Nat.clog 2 capacity.toUInt64.toNat % 2 ^ 64 := by
  simp only [roundCapacity]
  split
  · simpa using nextPowerOf2_toNat positive
  · rename_i disjoint
    have power := isPowerOfTwo_of_and_pred positive (and_pred_toUInt64 (not_not.mp disjoint))
    rw [← power, Nat.mod_eq_of_lt (UInt64.toNat_lt _)]

/-- The fields that never change, for a ring of `2 ^ e` slots. -/
structure LockFreeQueue.Shape {M : Type} (q : LockFreeQueue M) (e : Nat) : Prop where
  two : 1 ≤ e
  fits : e ≤ 62
  mask : q.mask = UInt64.ofNat (2 ^ e - 1)
  capacity : q.capacity.toInt = 2 ^ e
  size : q.buffer.length = 2 ^ e

namespace LockFreeQueue

variable {M : Type}

variable {q : LockFreeQueue M} {e : Nat}

theorem Shape.index (shape : q.Shape e) (p : Nat) : q.index (UInt64.ofNat p) = slot e p := by
  rw [LockFreeQueue.index, shape.mask]
  exact masked (by have := shape.fits; omega) p

theorem Shape.index_word (shape : q.Shape e) (pos : UInt64) : q.index pos = slot e pos.toNat := by
  rw [← shape.index, UInt64.ofNat_toNat]

theorem Shape.turn (shape : q.Shape e) : 2 ^ e ≤ 2 ^ 62 :=
  Nat.pow_le_pow_right (by omega) shape.fits

theorem Shape.congr {q after : LockFreeQueue M} (shape : q.Shape e)
    (mask : after.mask = q.mask) (capacity : after.capacity = q.capacity)
    (size : after.buffer.length = q.buffer.length) : after.Shape e :=
  ⟨shape.two, shape.fits, mask.trans shape.mask, by rw [capacity]; exact shape.capacity,
    size.trans shape.size⟩

end LockFreeQueue

/-- A rounded capacity of at least two is `2 ^ e` with `e` at most 62: one more
    doubling leaves the positive integers. -/
theorem roundCapacity_ring (two : 2 ≤ roundCapacity capacity) :
    ∃ e, 1 ≤ e ∧ e ≤ 62 ∧ e = Nat.clog 2 capacity.toUInt64.toNat ∧
      (roundCapacity capacity).toNatClampNeg = 2 ^ e := by
  have nonneg : 0 ≤ roundCapacity capacity := Int64.le_trans (by decide) two
  have word := Int64.toNat_toUInt64_of_le nonneg
  have large : 2 ≤ (roundCapacity capacity).toNatClampNeg := by
    have := Int64.le_iff_toInt_le.mp two
    rw [← Int64.cast_toNatClampNeg _ nonneg] at this
    have atLeast : (2 : Int) ≤ (roundCapacity capacity).toNatClampNeg := this
    omega
  have small := Int64.toNatClampNeg_lt (roundCapacity capacity)
  have positive : 1 ≤ capacity.toUInt64.toNat := by
    by_contra zero
    have none : capacity.toUInt64 = 0 := UInt64.toNat_inj.mp (by simpa using zero)
    obtain rfl : capacity = 0 := congrArg UInt64.toInt64 none
    exact absurd large (by decide)
  have rounded := roundCapacity_toNat positive
  rw [word] at rounded
  have exponent : Nat.clog 2 capacity.toUInt64.toNat ≤ 64 :=
    Nat.clog_le_of_le_pow (UInt64.toNat_lt _).le
  have notWrapped : Nat.clog 2 capacity.toUInt64.toNat ≠ 64 := by
    intro wrapped
    rw [wrapped] at rounded
    omega
  have bound : 2 ^ Nat.clog 2 capacity.toUInt64.toNat < 2 ^ 64 :=
    Nat.pow_lt_pow_right (by omega) (by omega)
  rw [Nat.mod_eq_of_lt bound] at rounded
  rw [rounded] at large small
  refine ⟨_, ?_, ?_, rfl, rounded⟩
  · by_contra zero
    obtain zero : Nat.clog 2 capacity.toUInt64.toNat = 0 := by omega
    rw [zero] at large
    omega
  · have := (Nat.pow_lt_pow_iff_right (by omega : 1 < 2)).mp small
    omega

theorem mask_of_ring {e : Nat} (nonneg : 0 ≤ capacity) (ring : capacity.toNatClampNeg = 2 ^ e) :
    (capacity - 1).toUInt64 = UInt64.ofNat (2 ^ e - 1) := by
  have word : capacity.toUInt64 = UInt64.ofNat (2 ^ e) := by
    rw [← ring, ← Int64.toNat_toUInt64_of_le nonneg, UInt64.ofNat_toNat]
  rw [Int64.toUInt64_sub, word, UInt64.ofNat_sub (Nat.one_le_two_pow)]
  rfl

theorem nonneg_iff_word {c : Int64} : 0 ≤ c ↔ c.toUInt64.toNat < 2 ^ 63 := by
  have value : c.toInt = if 2 * c.toUInt64.toNat < 2 ^ 64 then (c.toUInt64.toNat : Int)
      else (c.toUInt64.toNat : Int) - (2 ^ 64 : Nat) := BitVec.toInt_eq_toNat_cond c.toBitVec
  have bound := UInt64.toNat_lt c.toUInt64
  rw [Int64.le_iff_toInt_le, value, Int64.toInt_zero]
  split <;> omega

theorem toInt_of_nonneg {c : Int64} (nonneg : 0 ≤ c) : c.toInt = c.toUInt64.toNat := by
  rw [Int64.toNat_toUInt64_of_le nonneg, Int64.cast_toNatClampNeg _ nonneg]

/-- A requested capacity of at least two is rounded up to the next power of two,
    unless that is `2 ^ 63`, which as a signed integer is negative. -/
theorem roundCapacity_of_two_le (two : 2 ≤ capacity) :
    (0 ≤ roundCapacity capacity ↔ capacity.toInt ≤ 2 ^ 62) ∧
      (0 ≤ roundCapacity capacity → 2 ≤ roundCapacity capacity) := by
  have nonneg : 0 ≤ capacity := Int64.le_trans (by decide) two
  have value := toInt_of_nonneg nonneg
  have least : (2 : Int64).toInt = 2 := rfl
  have small := nonneg_iff_word.mp nonneg
  rw [Int64.le_iff_toInt_le, value, least] at two
  have positive : 1 ≤ Nat.clog 2 capacity.toUInt64.toNat := Nat.clog_pos (by omega) (by omega)
  have exponent : Nat.clog 2 capacity.toUInt64.toNat ≤ 63 := Nat.clog_le_of_le_pow small.le
  have rounded := roundCapacity_toNat (show 1 ≤ capacity.toUInt64.toNat by omega)
  rw [Nat.mod_eq_of_lt (Nat.pow_lt_pow_right (by omega) (by omega))] at rounded
  constructor
  · rw [nonneg_iff_word, rounded, Nat.pow_lt_pow_iff_right (by omega),
      Nat.lt_iff_le_pred (by omega), Nat.clog_le_iff_le_pow (by omega), value]
    omega
  · intro kept
    have atLeast : 2 ^ 1 ≤ 2 ^ Nat.clog 2 capacity.toUInt64.toNat :=
      Nat.pow_le_pow_right (by omega) positive
    rw [Int64.le_iff_toInt_le, toInt_of_nonneg kept, rounded, least]
    omega

/-- What the constructor returns when it rounds the capacity to at least two. -/
theorem newLockFreeQueue_eq {q : LockFreeQueue M}
    (made : newLockFreeQueue name capacity dropPolicy = some q) (two : 2 ≤ q.capacity) :
    ∃ e, e = Nat.clog 2 capacity.toUInt64.toNat ∧ q.Shape e ∧ q.buffer = Ring.fresh (2 ^ e) ∧
      q.enqueuePos = 0 ∧ q.dequeuePos = 0 ∧ q.dropPolicy = dropPolicy := by
  simp only [newLockFreeQueue] at made
  split at made
  · cases made
  · cases made
    obtain ⟨e, atLeast, atMost, exponent, rounded⟩ := roundCapacity_ring two
    have nonneg : 0 ≤ roundCapacity capacity := Int64.le_trans (by decide) two
    have value : (roundCapacity capacity).toInt = 2 ^ e := by
      rw [← Int64.cast_toNatClampNeg _ nonneg, rounded]
      simp
    refine ⟨e, exponent, ⟨atLeast, atMost, mask_of_ring nonneg rounded, value, ?_⟩, ?_,
      rfl, rfl, rfl⟩
    · simp [rounded]
    · simp [rounded]

end Portask.Queue
