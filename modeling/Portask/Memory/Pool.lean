import Portask.Processor.Process
import Portask.Queue.LockFree

/-! # Buffers and sizes of package memory

The buffer of `pkg/memory/pool.go` that grows while it is written to, each write by a rule of its own, and the loop
that rounds a size up to a power of two.
-/

namespace Portask.Memory

open Processor

/-- `for p < n { p <<= 1 }`; `none` is a loop that is still running. -/
def doubled (n : Int64) : Nat → Int64 → Option Int64
  | 0, _ => none
  | fuel + 1, p => if p < n then doubled n fuel (p <<< 1) else some p

def nextPowerOf2 (fuel : Nat) (n : Int64) : Option Int64 :=
  if n ≤ 0 then some 1
  else if n &&& (n - 1) = 0 then some n
  else doubled n fuel 1

/-- The value of `p` after some rounds of the loop. -/
def shifted : Nat → Int64
  | 0 => 1
  | rounds + 1 => shifted rounds <<< 1

theorem shifted_toInt : ∀ rounds ≤ 62, (shifted rounds).toInt = 2 ^ rounds := by decide

theorem doubled_shifted {n : Int64} {k : Nat} (small : k ≤ 62)
    (below : ∀ j, 2 ^ j < n.toInt ↔ j < k)
    (started : rounds ≤ k) (enough : k < rounds + fuel) :
    doubled n fuel (shifted rounds) = some (shifted k) := by
  induction fuel generalizing rounds with
  | zero => omega
  | succ fuel ih =>
    have less : shifted rounds < n ↔ rounds < k := by
      rw [Int64.lt_iff_toInt_lt, shifted_toInt rounds (by omega), below]
    unfold doubled
    by_cases running : rounds < k
    · rw [if_pos (less.mpr running)]
      exact ih running (by omega)
    · rw [if_neg (mt less.mp running), Nat.le_antisymm started (Nat.not_lt.mp running)]

/-- Both packages round up to the least power of two, and no shift of the loop overflows. -/
theorem nextPowerOf2_agree (n : Nat) (positive : 1 ≤ n) (bounded : n ≤ 2 ^ 62) :
    (n ≤ 2 ^ Nat.clog 2 n ∧ ∀ j, n ≤ 2 ^ j → 2 ^ Nat.clog 2 n ≤ 2 ^ j) ∧
      (Queue.nextPowerOf2 (.ofNat n)).toNat = 2 ^ Nat.clog 2 n ∧
      (∀ fuel > Nat.clog 2 n, nextPowerOf2 fuel (.ofNat n) = some (shifted (Nat.clog 2 n))) ∧
      ∀ rounds ≤ Nat.clog 2 n, (shifted rounds).toInt = 2 ^ rounds := by
  have small : Nat.clog 2 n ≤ 62 := Nat.clog_le_of_le_pow bounded
  have word : (UInt64.ofNat n).toNat = n :=
    UInt64.toNat_ofNat_of_lt' (lt_of_le_of_lt bounded (by decide))
  have number : (Int64.ofNat n).toInt = n := Int64.toInt_ofNat_of_lt (by omega)
  refine ⟨⟨Nat.le_pow_clog (by decide) n, fun j large => ?_⟩, ?_, fun fuel enough => ?_,
    fun rounds few => shifted_toInt rounds (few.trans small)⟩
  · exact Nat.pow_le_pow_right (by decide) (Nat.clog_le_of_le_pow large)
  · rw [Queue.nextPowerOf2_toNat (by omega), word]
    exact Nat.mod_eq_of_lt (Nat.pow_lt_pow_right (by decide) (by omega))
  · have above : ¬ Int64.ofNat n ≤ 0 := by
      rw [Int64.le_iff_toInt_le, number]
      simp
      omega
    rw [nextPowerOf2, if_neg above]
    split
    · rename_i disjoint
      have power := Queue.isPowerOfTwo_of_and_pred (by simpa [word] using positive) (Queue.and_pred_toUInt64 disjoint)
      rw [Int64.toUInt64_ofNat', word] at power
      have same : Int64.ofNat n = shifted (Nat.clog 2 n) := by
        rw [← Int64.toInt_inj, number, shifted_toInt _ small]
        exact_mod_cast power
      rw [same]
    · refine doubled_shifted small (fun j => ?_) (Nat.zero_le _) (by omega)
      rw [number, Nat.lt_clog_iff_pow_lt (by decide)]
      norm_cast

theorem nextPowerOf2_agree_five : (Queue.nextPowerOf2 5).toNat = 2 ^ Nat.clog 2 5 :=
  (nextPowerOf2_agree 5 (by decide) (by decide)).2.1

structure FastBuffer where
  data : List UInt8
  pos : Nat

namespace FastBuffer

def newFastBuffer (size : Nat) : FastBuffer := ⟨.replicate size 0, 0⟩

section

variable (fb : FastBuffer)

/-- In this and the methods below `none` is the panic of a slice or an index out of range. -/
def growTo (size : Nat) : Option FastBuffer :=
  if fb.pos ≤ fb.data.length then
    some { fb with data := goCopy (.replicate size 0) (fb.data.take fb.pos) } else none

def grow : Option FastBuffer := fb.growTo (fb.data.length * 2)

/-- `copy(fb.data[fb.pos:], p)`, and `fb.pos` behind all of `p`. -/
def store (p : List UInt8) : Option FastBuffer :=
  if fb.pos ≤ fb.data.length then
    some ⟨fb.data.take fb.pos ++ goCopy (fb.data.drop fb.pos) p, fb.pos + p.length⟩
  else none

def write (p : List UInt8) : Option FastBuffer :=
  let newSize := fb.data.length * 2
  let newSize := if newSize < fb.pos + p.length then fb.pos + p.length else newSize
  (if fb.pos + p.length > fb.data.length then fb.growTo newSize else some fb).bind (store · p)

def writeByte (b : UInt8) : Option FastBuffer :=
  (if fb.pos ≥ fb.data.length then fb.grow else some fb).bind fun fb =>
    if fb.pos < fb.data.length then some ⟨fb.data.set fb.pos b, fb.pos + 1⟩ else none

def writeString (s : List UInt8) : Option FastBuffer :=
  (if fb.pos + s.length > fb.data.length then fb.growTo (fb.pos + s.length) else some fb).bind
    (store · s)

def bytes : Option (List UInt8) :=
  if fb.pos ≤ fb.data.length then some (fb.data.take fb.pos) else none

def reset : FastBuffer := { fb with pos := 0 }

def len : Nat := fb.pos

def cap : Nat := fb.data.length

end

inductive Call where
  | write (p : List UInt8)
  | writeByte (b : UInt8)
  | writeString (s : List UInt8)
  | reset

def call (fb : FastBuffer) : Call → Option FastBuffer
  | .write p => fb.write p
  | .writeByte b => fb.writeByte b
  | .writeString s => fb.writeString s
  | .reset => some fb.reset

/-- What has been written since the last `Reset`, after one more call. -/
def since (written : List UInt8) : Call → List UInt8
  | .write p | .writeString p => written ++ p
  | .writeByte b => written ++ [b]
  | .reset => []

/-- The position is inside an array that is not empty, and what was written lies before it. -/
structure Holds (fb : FastBuffer) (written : List UInt8) : Prop where
  nonempty : 1 ≤ fb.data.length
  inside : fb.pos ≤ fb.data.length
  front : fb.data.take fb.pos = written

variable {fb : FastBuffer} {written : List UInt8}

theorem growTo_holds (holds : Holds fb written) (larger : fb.data.length ≤ size) :
    ∃ after, fb.growTo size = some after ∧ Holds after written ∧ after.pos = fb.pos ∧
      after.data.length = size := by
  obtain ⟨nonempty, inside, front⟩ := holds
  refine ⟨_, if_pos inside, ⟨?_, ?_, ?_⟩, rfl, ?_⟩ <;> simp only [goCopy] <;> grind

theorem store_holds (holds : Holds fb written) (room : fb.pos + p.length ≤ fb.data.length) :
    ∃ after, fb.store p = some after ∧ Holds after (written ++ p) ∧
      after.data.length = fb.data.length := by
  obtain ⟨nonempty, inside, front⟩ := holds
  have all : goCopy (fb.data.drop fb.pos) p = p ++ fb.data.drop (fb.pos + p.length) := by
    rw [goCopy, List.drop_drop, List.take_of_length_le (by simp; omega)]
  refine ⟨_, if_pos inside, ⟨?_, ?_, ?_⟩, ?_⟩ <;> simp only [all, front] <;> grind

/-- The three writes: grow the array if it is too short, then store. -/
theorem write_holds (holds : Holds fb written) {full : Prop} [Decidable full]
    {last : FastBuffer → Option FastBuffer}
    (same : ∀ fb, fb.pos + p.length ≤ fb.data.length → last fb = fb.store p)
    (grown : full → fb.data.length ≤ size ∧ fb.pos + p.length ≤ size)
    (room : ¬ full → fb.pos + p.length ≤ fb.data.length) :
    ∃ after, (if full then fb.growTo size else some fb).bind last = some after ∧
      Holds after (written ++ p) ∧ fb.cap ≤ after.cap := by
  by_cases needed : full
  · obtain ⟨larger, fits⟩ := grown needed
    obtain ⟨wide, done, kept, samePos, length⟩ := growTo_holds holds larger
    obtain ⟨after, stored, result, wider⟩ := store_holds (p := p) kept (by omega)
    refine ⟨after, ?_, result, ?_⟩
    · rw [if_pos needed, done, Option.bind_some, same wide (by omega), stored]
    · simp only [cap]
      omega
  · obtain ⟨after, stored, result, wider⟩ := store_holds holds (room needed)
    exact ⟨after, by rw [if_neg needed, Option.bind_some, same fb (room needed), stored],
      result, wider.ge⟩

theorem set_eq_store {b : UInt8} (fb : FastBuffer) (inside : fb.pos + [b].length ≤ fb.data.length) :
    (if fb.pos < fb.data.length then some ⟨fb.data.set fb.pos b, fb.pos + 1⟩ else none) =
      fb.store [b] := by
  have room : fb.pos < fb.data.length := inside
  have one : [b].take (fb.data.length - fb.pos) = [b] := List.take_of_length_le (by simp; omega)
  simp [store, goCopy, room, room.le, List.set_eq_take_append_cons_drop, one]

/-- One call stays in range, keeps what was written and never shrinks the array. -/
theorem call_holds (holds : Holds fb written) (c : Call) :
    ∃ after, fb.call c = some after ∧ Holds after (since written c) ∧ fb.cap ≤ after.cap := by
  have nonempty := holds.nonempty
  have inside := holds.inside
  cases c with
  | write p => exact write_holds holds (fun _ _ => rfl) (by grind) (by omega)
  | writeByte b => exact write_holds holds set_eq_store (by grind) (by grind)
  | writeString s => exact write_holds holds (fun _ _ => rfl) (by omega) (by omega)
  | reset => exact ⟨_, rfl, ⟨nonempty, Nat.zero_le _, rfl⟩, Nat.le_refl _⟩

def run (fb : FastBuffer) (calls : List Call) : Option FastBuffer := calls.foldlM call fb

theorem run_holds (holds : Holds fb written) (calls : List Call) :
    ∃ after, fb.run calls = some after ∧ Holds after (calls.foldl since written) ∧
      fb.cap ≤ after.cap := by
  induction calls generalizing fb written with
  | nil => exact ⟨fb, rfl, holds, Nat.le_refl _⟩
  | cons c rest ih =>
    obtain ⟨next, done, kept, wider⟩ := call_holds holds c
    obtain ⟨after, finished, result, widest⟩ := ih kept
    exact ⟨after, by simpa [run, done] using finished, result, wider.trans widest⟩

/-- Whatever the calls, none is out of range, the bytes are what was written since the last `Reset`, and the array
has not shrunk after any further calls. -/
theorem bytes_eq_written (size : Nat) (positive : 1 ≤ size) (calls : List Call) :
    ∃ fb, (newFastBuffer size).run calls = some fb ∧ fb.bytes = some (calls.foldl since []) ∧
      fb.len = (calls.foldl since []).length ∧
        ∀ more, ∃ later, fb.run more = some later ∧ fb.cap ≤ later.cap := by
  have fresh : Holds (newFastBuffer size) [] :=
    ⟨by simpa [newFastBuffer] using positive, Nat.zero_le _, rfl⟩
  obtain ⟨fb, done, holds, _⟩ := run_holds fresh calls
  refine ⟨fb, done, ?_, ?_, fun more => ?_⟩
  · rw [bytes, if_pos holds.inside, holds.front]
  · rw [← holds.front, List.length_take, Nat.min_eq_left holds.inside, len]
  · obtain ⟨later, finished, _, wider⟩ := run_holds holds more
    exact ⟨later, finished, wider⟩

theorem bytes_eq_written_one : ∃ fb, (newFastBuffer 1).run [.writeByte 7, .write [8, 9]] = some fb ∧ fb.bytes = some [7, 8, 9] :=
  (bytes_eq_written 1 (by decide) _).imp fun _ h => ⟨h.1, h.2.1⟩

end FastBuffer

end Portask.Memory
