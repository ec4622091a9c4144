import Mathlib.Data.Fintype.Basic
import Portask.Lib.Machine
import Portask.Lib.RingProtocol
import Portask.Queue.Ultra

/-! # Interleaved callers of the ultra-high-performance queue

`BatchEnqueue` and `BatchDequeue` cut at their atomic operations, each of which is one
sequentially consistent step. A frame holds the local variables of the batch and of the
single enqueue or dequeue it is in. The running averages are left out: they are floating
point, updated without synchronisation, and nothing reads them.

The log, the batch numbers and the record are not part of the program. They number the
batches and the single calls, and record which batch counted or received which call. A
caller claims or takes a position where it decides to use it: on the fast path when it
finds the sequence it looks for, on the slow path when it wins the compare-and-swap.
The messages given to `BatchEnqueue` are not nil: `BatchDequeue` takes a nil message for
an empty queue.
-/

namespace Portask.Queue.UltraThreads

open Lib Lib.Ring

structure EnqueueFrame (M : Type) where
  batch : Nat
  call : Nat
  message : M
  /-- The messages of the batch after this one. -/
  rest : List M
  enqueued : Nat
  deriving DecidableEq

structure DequeueFrame (M : Type) where
  batch : Nat
  call : Nat
  /-- How many dequeues the batch may still make after this one. -/
  left : Nat
  messages : List M
  deriving DecidableEq

inductive Pc (M : Type) where
  | idle
  /-- The loads of `enqueuePos` and of the sequence, before the paths part. -/
  | enqueueLoad (f : EnqueueFrame M)
  | enqueueSequence (f : EnqueueFrame M) (pos : UInt64)
  /-- The fast path: store the message, publish it, advance `enqueuePos`. -/
  | fastData (f : EnqueueFrame M) (pos : UInt64)
  | fastPublish (f : EnqueueFrame M) (pos : UInt64)
  | fastAdd (f : EnqueueFrame M) (pos : UInt64)
  /-- The slow path: load again, win `enqueuePos`, then store and publish. -/
  | slowLoad (f : EnqueueFrame M)
  | slowSequence (f : EnqueueFrame M) (pos : UInt64)
  | slowCas (f : EnqueueFrame M) (pos : UInt64)
  | slowData (f : EnqueueFrame M) (pos : UInt64)
  | slowPublish (f : EnqueueFrame M) (pos : UInt64)
  /-- The statistics of `BatchEnqueue`, and its return. -/
  | batchCount (batch enqueued : Nat)
  | enqueueCount (batch enqueued : Nat)
  | dequeueLoad (f : DequeueFrame M)
  | dequeueSequence (f : DequeueFrame M) (pos : UInt64)
  /-- The fast path: load the message, release the slot, advance `dequeuePos`. -/
  | fastTake (f : DequeueFrame M) (pos : UInt64)
  | fastRelease (f : DequeueFrame M) (pos : UInt64) (data : Option M)
  | fastAdvance (f : DequeueFrame M) (pos : UInt64) (data : Option M)
  /-- The slow path: load again, win `dequeuePos`, then load and release. -/
  | slowTakeLoad (f : DequeueFrame M)
  | slowTakeSequence (f : DequeueFrame M) (pos : UInt64)
  | slowTakeCas (f : DequeueFrame M) (pos : UInt64)
  | slowTake (f : DequeueFrame M) (pos : UInt64)
  | slowRelease (f : DequeueFrame M) (pos : UInt64) (data : Option M)
  | dequeueCount (batch : Nat) (messages : List M)
  deriving DecidableEq

structure Record (M : Type) where
  /-- Batch and call of each single enqueue that was counted. -/
  counted : List (Nat × Nat) := []
  /-- Batch and call of each single dequeue that gave a message. -/
  received : List (Nat × Nat × M) := []
  /-- What each finished batch has returned. -/
  enqueued : List (Nat × Nat) := []
  dequeued : List (Nat × List M) := []

structure System (T M : Type) where
  queue : UltraHighPerformanceQueue M
  pc : T → Pc M
  log : Log M
  batches : Nat
  record : Record M

inductive Label (T M : Type) where
  | batchEnqueue (t : T) (messages : List M)
  | batchDequeue (t : T) (maxBatch : Nat)
  | step (t : T)

def initial {T M : Type} (queue : UltraHighPerformanceQueue M) : System T M :=
  ⟨queue, fun _ => .idle, {}, 0, {}⟩

section

variable {T M : Type} [DecidableEq T]

section

variable (s : System T M)

variable (t : T)

def System.goto (pc : Pc M) : System T M :=
  { s with pc := Function.update s.pc t pc }

/-- The loop of `BatchEnqueue`, before its next message. -/
def System.nextEnqueue (batch enqueued : Nat) : List M → System T M
  | [] => s.goto t (.batchCount batch enqueued)
  | message :: rest =>
    { s with log.enqueues := s.log.enqueues ++ [some message] }.goto t
      (.enqueueLoad ⟨batch, s.log.enqueues.length, message, rest, enqueued⟩)

/-- `fastEnqueue` has returned true. -/
def System.enqueueReturns (f : EnqueueFrame M) : System T M :=
  { s with record.counted := s.record.counted ++ [(f.batch, f.call)] }.nextEnqueue t f.batch
    (f.enqueued + 1) f.rest

/-- `BatchDequeue` has left its loop. -/
def System.endDequeue (batch : Nat) (messages : List M) : System T M :=
  if messages.length > 0 then s.goto t (.dequeueCount batch messages)
  else { s with record.dequeued := s.record.dequeued ++ [(batch, messages)] }.goto t .idle

/-- The loop of `BatchDequeue`, with `left` more dequeues to make. -/
def System.nextDequeue (batch : Nat) (messages : List M) : Nat → System T M
  | 0 => s.endDequeue t batch messages
  | left + 1 =>
    { s with log.dequeues := s.log.dequeues + 1 }.goto t
      (.dequeueLoad ⟨batch, s.log.dequeues, left, messages⟩)

/-- `fastDequeue` has returned `data`. -/
def System.dequeueReturns (f : DequeueFrame M) : Option M → System T M
  | some message =>
    { s with record.received := s.record.received ++ [(f.batch, f.call, message)] }.nextDequeue t
      f.batch (f.messages ++ [message]) f.left
  | none => s.endDequeue t f.batch f.messages

/-- The next atomic operation of the caller `t`, whose program counter is given. -/
def System.advance : Pc M → System T M
  | .idle => s
  | .enqueueLoad f => s.goto t (.enqueueSequence f s.queue.enqueuePos)
  | .enqueueSequence f pos =>
    let seq := s.queue.sequence pos
    if seq = pos then
      { s with log := s.log.claim f.call (some f.message) }.goto t (.fastData f pos)
    else if seq < pos then s.goto t (.batchCount f.batch f.enqueued)
    else s.goto t (.slowLoad f)
  | .fastData f pos =>
    { s with
      queue := s.queue.storeData pos (some f.message)
      log.written := s.log.written ++ [pos.toNat] }.goto t (.fastPublish f pos)
  | .fastPublish f pos =>
    { s with queue := s.queue.storeSequence pos (pos + 1) }.goto t (.fastAdd f pos)
  | .fastAdd f _ => { s with queue := s.queue.addEnqueuePos }.enqueueReturns t f
  | .slowLoad f => s.goto t (.slowSequence f s.queue.enqueuePos)
  | .slowSequence f pos =>
    let seq := s.queue.sequence pos
    if seq = pos then s.goto t (.slowCas f pos)
    else if seq < pos then s.goto t (.batchCount f.batch f.enqueued)
    else s.goto t (.slowLoad f)
  | .slowCas f pos =>
    if s.queue.enqueuePos = pos then
      { s with
        queue.enqueuePos := pos + 1
        log := s.log.claim f.call (some f.message) }.goto t (.slowData f pos)
    else s.goto t (.slowLoad f)
  | .slowData f pos =>
    { s with
      queue := s.queue.storeData pos (some f.message)
      log.written := s.log.written ++ [pos.toNat] }.goto t (.slowPublish f pos)
  | .slowPublish f pos =>
    { s with queue := s.queue.storeSequence pos (pos + 1) }.enqueueReturns t f
  | .batchCount batch enqueued =>
    { s with queue.stats.batchCount := s.queue.stats.batchCount + 1 }.goto t
      (.enqueueCount batch enqueued)
  | .enqueueCount batch enqueued =>
    { s with
      queue.stats.enqueueCount := s.queue.stats.enqueueCount + UInt64.ofNat enqueued
      record.enqueued := s.record.enqueued ++ [(batch, enqueued)] }.goto t .idle
  | .dequeueLoad f => s.goto t (.dequeueSequence f s.queue.dequeuePos)
  | .dequeueSequence f pos =>
    let seq := s.queue.sequence pos
    if seq = pos + 1 then { s with log := s.log.take f.call }.goto t (.fastTake f pos)
    else if seq < pos + 1 then s.dequeueReturns t f none
    else s.goto t (.slowTakeLoad f)
  | .fastTake f pos =>
    { s with log.loaded := s.log.loaded ++ [pos.toNat] }.goto t
      (.fastRelease f pos (s.queue.data pos))
  | .fastRelease f pos data =>
    { s with queue := s.queue.storeSequence pos (pos + s.queue.mask + 1) }.goto t
      (.fastAdvance f pos data)
  | .fastAdvance f _ data => { s with queue := s.queue.addDequeuePos }.dequeueReturns t f data
  | .slowTakeLoad f => s.goto t (.slowTakeSequence f s.queue.dequeuePos)
  | .slowTakeSequence f pos =>
    let seq := s.queue.sequence pos
    if seq = pos + 1 then s.goto t (.slowTakeCas f pos)
    else if seq < pos + 1 then s.dequeueReturns t f none
    else s.goto t (.slowTakeLoad f)
  | .slowTakeCas f pos =>
    if s.queue.dequeuePos = pos then
      { s with
        queue.dequeuePos := pos + 1
        log := s.log.take f.call }.goto t (.slowTake f pos)
    else s.goto t (.slowTakeLoad f)
  | .slowTake f pos =>
    { s with log.loaded := s.log.loaded ++ [pos.toNat] }.goto t
      (.slowRelease f pos (s.queue.data pos))
  | .slowRelease f pos data =>
    { s with queue := s.queue.storeSequence pos (pos + s.queue.mask + 1) }.dequeueReturns t f data
  | .dequeueCount batch messages =>
    { s with
      queue.stats.dequeueCount := s.queue.stats.dequeueCount + UInt64.ofNat messages.length
      record.dequeued := s.record.dequeued ++ [(batch, messages)] }.goto t .idle

end

/-- The callers of one queue. A caller starts a batch only when it is in none. -/
def machine : Machine (System T M) (Label T M) where
  next s
    | .batchEnqueue t messages =>
      match s.pc t with
      | .idle => some ({ s with batches := s.batches + 1 }.nextEnqueue t s.batches 0 messages)
      | _ => none
    | .batchDequeue t maxBatch =>
      match s.pc t with
      | .idle => some ({ s with batches := s.batches + 1 }.nextDequeue t s.batches [] maxBatch)
      | _ => none
    | .step t =>
      match s.pc t with
      | .idle => none
      | pc => some (s.advance t pc)

end

/-! ## Callers that keep apart

Nothing stops two callers on the fast path, or one on each path, from using the same
position. -/

variable {T M : Type}

/-- The position an enqueue is working on. On the fast path it is done with it when it
    has advanced `enqueuePos`, on the slow path when it has published the slot. -/
def Pc.enqueuing : Pc M → Option UInt64
  | .fastData _ pos | .fastPublish _ pos | .fastAdd _ pos | .slowData _ pos | .slowPublish _ pos =>
    some pos
  | _ => none

def Pc.dequeuing : Pc M → Option UInt64
  | .fastTake _ pos | .fastRelease _ pos _ | .fastAdvance _ pos _ | .slowTake _ pos
  | .slowRelease _ pos _ => some pos
  | _ => none

/-- The position an enqueue takes up with its next step. -/
def System.enqueueTakesUp (s : System T M) : Pc M → Option UInt64
  | .enqueueSequence _ pos => if s.queue.sequence pos = pos then some pos else none
  | .slowCas _ pos => if s.queue.enqueuePos = pos then some pos else none
  | _ => none

def System.dequeueTakesUp (s : System T M) : Pc M → Option UInt64
  | .dequeueSequence _ pos => if s.queue.sequence pos = pos + 1 then some pos else none
  | .slowTakeCas _ pos => if s.queue.dequeuePos = pos then some pos else none
  | _ => none

/-- The step does not take up a position on which another caller of the same kind is
    still working. -/
def Apart (s : System T M) : Label T M → Prop
  | .batchEnqueue .. | .batchDequeue .. => True
  | .step t => ∀ u, u ≠ t →
      ((s.enqueueTakesUp (s.pc t)).isSome → (s.pc u).enqueuing ≠ s.enqueueTakesUp (s.pc t)) ∧
      ((s.dequeueTakesUp (s.pc t)).isSome → (s.pc u).dequeuing ≠ s.dequeueTakesUp (s.pc t))

instance [Fintype T] [DecidableEq T] (s : System T M) : ∀ label, Decidable (Apart s label)
  | .batchEnqueue .. | .batchDequeue .. => .isTrue trivial
  | .step t => inferInstanceAs (Decidable (∀ u, u ≠ t → _ ∧ _))

end Portask.Queue.UltraThreads
