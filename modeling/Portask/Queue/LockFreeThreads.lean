import Portask.Lib.Machine
import Portask.Lib.RingProtocol
import Portask.Queue.LockFree

/-! # Interleaved callers of the lock-free queue

`Enqueue` and `Dequeue` cut at their atomic operations. A program counter names the
operation its caller performs next, together with the local variables it still
needs; computations on local variables belong to the operation before them. The
atomic operations are sequentially consistent: each is one step of the machine.

The log and the returns are not part of the program. They number the calls and
record, in the order of the steps, which calls won a position, by a compare-and-swap,
which positions were written and read, and what each call returned.
-/

namespace Portask.Queue.LockFreeThreads

open Lib Lib.Ring

inductive Pc (M : Type) where
  | idle
  /-- Load `enqueuePos`, at the head of the loop of `Enqueue`. -/
  | enqueueLoad (call : Nat) (item : Option M) (retryCount : Nat)
  /-- Load the sequence of the slot. -/
  | enqueueSequence (call : Nat) (item : Option M) (retryCount : Nat) (pos : UInt64)
  /-- Compare-and-swap `enqueuePos`. -/
  | enqueueCas (call : Nat) (item : Option M) (retryCount : Nat) (pos : UInt64)
  /-- Count a drop and return false. -/
  | enqueueDrop (call : Nat)
  /-- Load `dequeuePos`, for the compare-and-swap of the drop-oldest branch. -/
  | dropLoad (call : Nat) (item : Option M) (retryCount : Nat) (pos : UInt64)
  | dropCas (call : Nat) (item : Option M) (retryCount : Nat) (pos old : UInt64)
  /-- Store the item in the slot. -/
  | enqueueData (call : Nat) (item : Option M) (pos : UInt64)
  /-- Store the sequence that publishes the slot. -/
  | enqueuePublish (call : Nat) (item : Option M) (pos : UInt64)
  /-- Count the enqueue and return true. -/
  | enqueueCount (call : Nat)
  | dequeueLoad (call : Nat) (retryCount : Nat)
  | dequeueSequence (call : Nat) (retryCount : Nat) (pos : UInt64)
  | dequeueCas (call : Nat) (retryCount : Nat) (pos : UInt64)
  /-- Load the item of the slot. -/
  | dequeueData (call : Nat) (pos : UInt64)
  /-- Store nil in the slot. -/
  | dequeueClear (call : Nat) (pos : UInt64) (data : Option M)
  /-- Store the sequence that releases the slot. -/
  | dequeueRelease (call : Nat) (pos : UInt64) (data : Option M)
  | dequeueCount (call : Nat) (data : Option M)
  deriving DecidableEq

/-- What the calls have returned, each named by its call. -/
structure Returns (M : Type) where
  enqueue : List (Nat × Bool) := []
  dequeue : List (Nat × Option M × Bool) := []

structure System (T M : Type) where
  queue : LockFreeQueue M
  pc : T → Pc M
  log : Log M
  returns : Returns M

/-- What the scheduler chooses: a caller starts a call or performs its next step. -/
inductive Label (T M : Type) where
  | enqueue (t : T) (item : Option M)
  | dequeue (t : T)
  | step (t : T)

def initial {T M : Type} (queue : LockFreeQueue M) : System T M := ⟨queue, fun _ => .idle, {}, {}⟩

section

variable {T M : Type} [DecidableEq T]

def System.goto (s : System T M) (t : T) (pc : Pc M) : System T M :=
  { s with pc := Function.update s.pc t pc }

/-- The head of the loop of `Enqueue`, and its exit after the last retry. -/
def enqueueLoop (call : Nat) (item : Option M) (retryCount : Nat) : Pc M :=
  if retryCount < LockFreeQueue.maxRetries then .enqueueLoad call item retryCount
  else .enqueueDrop call

/-- A `Dequeue` that returns nil and false. -/
def System.dequeueFails (s : System T M) (t : T) (call : Nat) : System T M :=
  { s with returns.dequeue := s.returns.dequeue ++ [(call, none, false)] }.goto t .idle

def System.dequeueRetry (s : System T M) (t : T) (call retryCount : Nat) : System T M :=
  if retryCount < LockFreeQueue.maxRetries then s.goto t (.dequeueLoad call retryCount)
  else s.dequeueFails t call

/-- The next atomic operation of the caller `t`, whose program counter is given. -/
def System.advance (s : System T M) (t : T) : Pc M → System T M
  | .idle => s
  | .enqueueLoad call item retryCount =>
    s.goto t (.enqueueSequence call item retryCount s.queue.enqueuePos)
  | .enqueueSequence call item retryCount pos =>
    let dif := Ring.dif (s.queue.sequence pos) pos
    if dif = 0 then s.goto t (.enqueueCas call item retryCount pos)
    else if dif < 0 then
      match s.queue.dropPolicy with
      | .dropNewest => s.goto t (.enqueueDrop call)
      | .dropOldest => s.goto t (.dropLoad call item retryCount pos)
      | .block => s.goto t (enqueueLoop call item (retryCount + 1))
    else s.goto t (enqueueLoop call item (retryCount + 1))
  | .enqueueCas call item retryCount pos =>
    if s.queue.enqueuePos = pos then
      { s with
        queue.enqueuePos := pos + 1
        log := s.log.claim call item }.goto t (.enqueueData call item pos)
    else s.goto t (enqueueLoop call item retryCount)
  | .enqueueDrop call =>
    { s with
      queue := s.queue.addDropCount
      returns.enqueue := s.returns.enqueue ++ [(call, false)] }.goto t .idle
  | .dropLoad call item retryCount pos =>
    s.goto t (.dropCas call item retryCount pos s.queue.dequeuePos)
  | .dropCas call item retryCount pos old =>
    let dequeuePos := if s.queue.dequeuePos = old then pos - s.queue.capacity.toUInt64 + 1
      else s.queue.dequeuePos
    { s with queue.dequeuePos := dequeuePos }.goto t (enqueueLoop call item (retryCount + 1))
  | .enqueueData call item pos =>
    { s with
      queue := s.queue.storeData pos item
      log.written := s.log.written ++ [pos.toNat] }.goto t (.enqueuePublish call item pos)
  | .enqueuePublish call _ pos =>
    { s with queue := s.queue.storeSequence pos (pos + 1) }.goto t (.enqueueCount call)
  | .enqueueCount call =>
    { s with
      queue := s.queue.addEnqueueCount
      returns.enqueue := s.returns.enqueue ++ [(call, true)] }.goto t .idle
  | .dequeueLoad call retryCount => s.goto t (.dequeueSequence call retryCount s.queue.dequeuePos)
  | .dequeueSequence call retryCount pos =>
    let dif := Ring.dif (s.queue.sequence pos) (pos + 1)
    if dif = 0 then s.goto t (.dequeueCas call retryCount pos)
    else if dif < 0 then s.dequeueFails t call
    else s.dequeueRetry t call (retryCount + 1)
  | .dequeueCas call retryCount pos =>
    if s.queue.dequeuePos = pos then
      { s with
        queue.dequeuePos := pos + 1
        log := s.log.take call }.goto t (.dequeueData call pos)
    else s.dequeueRetry t call retryCount
  | .dequeueData call pos =>
    { s with log.loaded := s.log.loaded ++ [pos.toNat] }.goto t
      (.dequeueClear call pos (s.queue.data pos))
  | .dequeueClear call pos data =>
    { s with queue := s.queue.storeData pos none }.goto t (.dequeueRelease call pos data)
  | .dequeueRelease call pos data =>
    { s with queue := s.queue.storeSequence pos (pos + s.queue.mask + 1) }.goto t
      (.dequeueCount call data)
  | .dequeueCount call data =>
    { s with
      queue := s.queue.addDequeueCount
      returns.dequeue := s.returns.dequeue ++ [(call, data, true)] }.goto t .idle

/-- The callers of one queue. A caller starts a call only when it is in none. -/
def machine : Machine (System T M) (Label T M) where
  next s
    | .enqueue t item =>
      match s.pc t with
      | .idle =>
        some ({ s with log.enqueues := s.log.enqueues ++ [item] }.goto t
          (enqueueLoop s.log.enqueues.length item 0))
      | _ => none
    | .dequeue t =>
      match s.pc t with
      | .idle =>
        some ({ s with log.dequeues := s.log.dequeues + 1 }.dequeueRetry t s.log.dequeues 0)
      | _ => none
    | .step t =>
      match s.pc t with
      | .idle => none
      | pc => some (s.advance t pc)

end

end Portask.Queue.LockFreeThreads
