import Mathlib.Algebra.BigOperators.Group.Finset.Basic
import Mathlib.Algebra.Order.Group.Multiset
import Mathlib.Data.Fintype.Basic
import Portask.Lib.Intake
import Portask.Lib.Machine
import Portask.Processor.Sharding

/-! # The asynchronous batch writer

A shard does not wait for its batches: it hands each one to a goroutine of its own, which
stores it once and reports to the confirmation channel. `processConfirmations` reads the
reports and keeps the counters. The calls of `Write`, the shards, the flush goroutines, the
confirmation processor and `Stop` are interleaved at their channel operations, their
storage calls and their counters. A send on a closed channel panics, and nothing happens
after that.
-/

namespace Portask.Processor.AsyncBatchWriter

open Lib

structure Batch (n : Nat) (M : Type) where
  shard : Fin n
  id : Nat
  messages : List M

/-- Where a shard's `run` is: at its select statement, or in `flushAsync` with a batch that
    it has taken, before each counter and before the `go` statement. `final` is set in the
    flush after which `run` returns. -/
inductive ShardPc (n : Nat) (M : Type) where
  | select
  | countWritten (batch : Batch n M) (final : Bool)
  | countPending (batch : Batch n M) (final : Bool)
  | spawn (batch : Batch n M) (final : Bool)
  | returned

def ShardPc.isReturned {n : Nat} {M : Type} : ShardPc n M → Bool
  | .returned => true
  | _ => false

structure Shard (n : Nat) (M : Type) where
  input : List M
  currentBatch : List M
  batchIDGen : Nat
  stopChanClosed : Bool
  pc : ShardPc n M

structure Confirmation (ε : Type) where
  batchID : Nat
  size : Nat
  err : Option ε

/-- A flush goroutine, before it stores its batch or before it reports the result. -/
inductive Flusher (n : Nat) (ε M : Type) where
  | storing (batch : Batch n M)
  | confirming (batch : Batch n M) (err : Option ε)

/-- Where `processConfirmations` is. -/
inductive ConfirmPc (ε : Type) where
  | select
  | countResult (conf : Confirmation ε)
  | countMessages (size : Nat)
  | countDone
  | returned

def ConfirmPc.isReturned {ε : Type} : ConfirmPc ε → Bool
  | .returned => true
  | _ => false

structure Metrics where
  totalMessagesWritten : Nat := 0
  totalBatchesWritten : Nat := 0
  totalBatchesConfirmed : Nat := 0
  failedBatches : Nat := 0
  pendingBatches : Int := 0
  messagesQueued : Nat := 0
  queueFullErrors : Nat := 0

inductive WriteError where
  | notRunning
  deriving DecidableEq

def WriteError.message : WriteError → String
  | .notRunning => "AsyncBatchWriter is not running"

/-- Where a caller of `Write` is. -/
inductive Pc (n : Nat) (M : Type) where
  | idle
  | check (call : Nat) (m : M)
  | trySend (call : Nat) (m : M) (shard : Fin n)
  | countQueued (call : Nat) (m : M)
  | countFull (call : Nat) (m : M) (shard : Fin n)
  | blockingSend (call : Nat) (m : M) (shard : Fin n)

inductive StopCall where
  | pending
  | closing (shard : Nat)
  | closeConfirm
  | waiting
  | returned
  deriving DecidableEq

/-- `parallelStore` says whether the storage has `StoreBatchParallel`. `stored` and `failed`
    are the batches by what became of them. The intake and `flushed`, all the batches that
    the shards have taken, are not part of the program. -/
structure System (n : Nat) (T ε M : Type) where
  config : ParallelBatchWriterConfig
  parallelStore : Bool
  shards : Fin n → Shard n M
  running : Bool
  metrics : Metrics
  confirmChan : List (Confirmation ε)
  confirmClosed : Bool
  confirmPc : ConfirmPc ε
  flushers : List (Flusher n ε M)
  cancelled : Bool
  stopping : StopCall
  pc : T → Pc n M
  stored : List (Batch n M)
  failed : List (Batch n M)
  sentOnClosed : Bool
  intake : Intake (Fin n) WriteError M
  flushed : List (Batch n M)

/-- What the storage does: the error it returns, and which messages it has stored all the
    same if it was to store them in sub-batches. -/
structure StoreChoice (ε : Type) where
  err : Option ε
  kept : Nat → Bool

inductive Label (n : Nat) (T ε M : Type) where
  | write (t : T) (m : M)
  | step (t : T)
  /-- The three cases of the select statement in `run`, and the steps of `flushAsync`. -/
  | receive (i : Fin n)
  | timer (i : Fin n)
  | shardStops (i : Fin n)
  | shardStep (i : Fin n)
  /-- The flush goroutine number `k` stores its batch or reports the result. -/
  | store (k : Nat) (choice : StoreChoice ε)
  | confirm (k : Nat)
  | processStep
  | processCancelled
  | cancel
  | stop
  | stopStep

def started {T ε M : Type} (config : ParallelBatchWriterConfig) (parallelStore : Bool) :
    System config.numShards T ε M where
  config := config
  parallelStore := parallelStore
  shards _ := ⟨[], [], 0, false, .select⟩
  running := true
  metrics := {}
  confirmChan := []
  confirmClosed := false
  confirmPc := .select
  flushers := []
  cancelled := false
  stopping := .pending
  pc _ := .idle
  stored := []
  failed := []
  sentOnClosed := false
  intake := {}
  flushed := []

section

variable {n : Nat} {T ε M : Type} [DecidableEq T]

section

variable (s : System n T ε M)

def System.goto (t : T) (pc : Pc n M) : System n T ε M :=
  { s with pc := Function.update s.pc t pc }

def System.setShard (i : Fin n) (shard : Shard n M) : System n T ε M :=
  { s with shards := Function.update s.shards i shard }

def System.finish (t : T) (call : Nat) (m : M) (err : Option WriteError) : System n T ε M :=
  { s.goto t .idle with intake := s.intake.finish call m err }

def System.room (i : Fin n) : Prop := (s.shards i).input.length < s.config.channelSize

end

instance (s : System n T ε M) (i : Fin n) : Decidable (s.room i) :=
  inferInstanceAs (Decidable (_ < _))

/-- The send of `Write` on the channel of a shard. -/
def System.send (s : System n T ε M) (t : T) (call : Nat) (m : M) (i : Fin n) : System n T ε M :=
  { (s.setShard i { s.shards i with input := (s.shards i).input ++ [m] }).goto t (.countQueued call m) with
    intake := s.intake.enter call m i }

def System.advance (topic : M → GoString) (s : System n T ε M) (t : T) : Pc n M →
    Option (System n T ε M)
  | .idle => none
  | .check call m =>
    if s.running then (shardByBytes n (topic m)).map (fun i => s.goto t (.trySend call m i))
    else some (s.finish t call m (some .notRunning))
  | .trySend call m i =>
    if s.room i then some (s.send t call m i) else some (s.goto t (.countFull call m i))
  | .countQueued call m =>
    some (({ s with metrics.messagesQueued := s.metrics.messagesQueued + 1 }).finish t call m none)
  | .countFull call m i =>
    some (({ s with metrics.queueFullErrors := s.metrics.queueFullErrors + 1 }).goto t
      (.blockingSend call m i))
  -- `Write` returns from here at once, without counting the message.
  | .blockingSend call m i =>
    if s.room i then some ((s.send t call m i).finish t call m none) else none

/-- `run` goes back to its select statement, or returns after the final flush. -/
def ShardPc.resume (final : Bool) : ShardPc n M := if final then .returned else .select

section

variable (s : System n T ε M)

variable (i : Fin n)

/-- The first lines of `flushAsync`: take the batch and start a new one. -/
def System.flushAsync (final : Bool) : System n T ε M :=
  if (s.shards i).currentBatch = [] then s.setShard i { s.shards i with pc := .resume final }
  else
    let batch : Batch n M := ⟨i, (s.shards i).batchIDGen + 1, (s.shards i).currentBatch⟩
    { s.setShard i
        { s.shards i with
          currentBatch := []
          batchIDGen := (s.shards i).batchIDGen + 1
          pc := .countWritten batch final } with
      flushed := s.flushed ++ [batch] }

def System.append (m : M) (rest : List M) : System n T ε M :=
  s.setShard i { s.shards i with input := rest, currentBatch := (s.shards i).currentBatch ++ [m] }

def System.received (m : M) (rest : List M) : System n T ε M :=
  if s.config.batchSize ≤ ((s.append i m rest).shards i).currentBatch.length then
    (s.append i m rest).flushAsync i false
  else s.append i m rest

/-- The rest of `flushAsync`. -/
def System.shardStep : ShardPc n M → Option (System n T ε M)
  | .countWritten batch final =>
    some { s.setShard i { s.shards i with pc := .countPending batch final } with
      metrics.totalBatchesWritten := s.metrics.totalBatchesWritten + 1 }
  | .countPending batch final =>
    some { s.setShard i { s.shards i with pc := .spawn batch final } with
      metrics.pendingBatches := s.metrics.pendingBatches + 1 }
  | .spawn batch final =>
    some { s.setShard i { s.shards i with pc := .resume final } with flushers := s.flushers ++ [.storing batch] }
  | .select | .returned => none

end

/-- The part of a batch that was stored in sub-batches, and the rest of it. -/
def Batch.part (batch : Batch n M) (kept : Nat → Bool) : Batch n M :=
  { batch with messages := (batch.messages.zipIdx.filter (fun p => kept p.2)).map Prod.fst }

/-- The storage is called, with the whole batch or with sub-batches that fail one by one. -/
def System.storeBatch (s : System n T ε M) (batch : Batch n M) (choice : StoreChoice ε) :
    System n T ε M :=
  match choice.err with
  | none => { s with stored := s.stored ++ [batch] }
  | some _ =>
    if s.config.inSubBatches && s.parallelStore then
      { s with
        stored := s.stored ++ [batch.part choice.kept]
        failed := s.failed ++ [batch.part (fun i => !choice.kept i)] }
    else { s with failed := s.failed ++ [batch] }

def System.processStep (s : System n T ε M) : ConfirmPc ε → Option (System n T ε M)
  | .select =>
    match s.confirmChan with
    | conf :: rest => some { s with confirmChan := rest, confirmPc := .countResult conf }
    | [] => if s.confirmClosed then some { s with confirmPc := .returned } else none
  | .countResult conf =>
    match conf.err with
    | some _ =>
      some { s with
        confirmPc := .countDone, metrics.failedBatches := s.metrics.failedBatches + 1 }
    | none =>
      some { s with
        confirmPc := .countMessages conf.size
        metrics.totalBatchesConfirmed := s.metrics.totalBatchesConfirmed + 1 }
  | .countMessages size =>
    some { s with
      confirmPc := .countDone, metrics.totalMessagesWritten := s.metrics.totalMessagesWritten + size }
  | .countDone =>
    some { s with confirmPc := .select, metrics.pendingBatches := s.metrics.pendingBatches - 1 }
  | .returned => none

def confirmSize (n : Nat) : Nat := n * 10

def System.stopStep (s : System n T ε M) : StopCall → Option (System n T ε M)
  | .closing k =>
    if inside : k < n then
      some { s.setShard ⟨k, inside⟩ { s.shards ⟨k, inside⟩ with stopChanClosed := true } with
        stopping := .closing (k + 1) }
    else some { s with stopping := .closeConfirm }
  | .closeConfirm => some { s with confirmClosed := true, stopping := .waiting }
  | .waiting =>
    if (∀ i, (s.shards i).pc.isReturned) ∧ s.confirmPc.isReturned then
      some { s with stopping := .returned }
    else none
  | .pending | .returned => none

section

variable (topic : M → GoString)

def System.act (s : System n T ε M) : Label n T ε M → Option (System n T ε M)
  | .write t m =>
    match s.pc t with
    | .idle => some { s.goto t (.check s.intake.calls m) with intake := s.intake.begin }
    | _ => none
  | .step t => s.advance topic t (s.pc t)
  | .receive i =>
    match (s.shards i).pc, (s.shards i).input with
    | .select, m :: rest => some (s.received i m rest)
    | _, _ => none
  | .timer i =>
    match (s.shards i).pc with
    | .select => some (s.flushAsync i false)
    | _ => none
  | .shardStops i =>
    match (s.shards i).pc, (s.shards i).stopChanClosed with
    | .select, true => some (s.flushAsync i true)
    | _, _ => none
  | .shardStep i => s.shardStep i (s.shards i).pc
  | .store k choice =>
    match s.flushers[k]? with
    | some (.storing batch) =>
      some { s.storeBatch batch choice with flushers := s.flushers.set k (.confirming batch choice.err) }
    | _ => none
  | .confirm k =>
    match s.flushers[k]? with
    | some (.confirming batch err) =>
      if s.confirmClosed then some { s with sentOnClosed := true }
      else if s.confirmChan.length < confirmSize n then
        some { s with
          confirmChan := s.confirmChan ++ [⟨batch.id, batch.messages.length, err⟩]
          flushers := s.flushers.eraseIdx k }
      else none
    | _ => none
  | .processStep => s.processStep s.confirmPc
  | .processCancelled =>
    match s.confirmPc with
    | .select => if s.cancelled then some { s with confirmPc := .returned } else none
    | _ => none
  | .cancel => some { s with cancelled := true }
  | .stop => if s.running then some { s with running := false, stopping := .closing 0 } else some s
  | .stopStep => s.stopStep s.stopping

/-- After a panic the process is gone. -/
def System.next (s : System n T ε M) (label : Label n T ε M) : Option (System n T ε M) :=
  if s.sentOnClosed then none else s.act topic label

def machine : Machine (System n T ε M) (Label n T ε M) := ⟨System.next topic⟩

end

/-- What a step does, with the branches of the code taken apart. -/
inductive Step (topic : M → GoString) (s : System n T ε M) : Label n T ε M → System n T ε M → Prop
  | begins {x} (m : M) (here : s.pc x = .idle) :
      Step topic s (.write x m) { s.goto x (.check s.intake.calls m) with intake := s.intake.begin }
  | aims {x call m i} (here : s.pc x = .check call m) (running : s.running = true)
      (shard : shardByBytes n (topic m) = some i) : Step topic s (.step x) (s.goto x (.trySend call m i))
  | notRunning {x call m} (here : s.pc x = .check call m) (stopped : s.running = false) :
      Step topic s (.step x) (s.finish x call m (some .notRunning))
  | sends {x call m i} (here : s.pc x = .trySend call m i) (room : s.room i) :
      Step topic s (.step x) (s.send x call m i)
  | findsFull {x call m i} (here : s.pc x = .trySend call m i) (full : ¬ s.room i) :
      Step topic s (.step x) (s.goto x (.countFull call m i))
  | countsQueued {x call m} (here : s.pc x = .countQueued call m) :
      Step topic s (.step x)
        (({ s with metrics.messagesQueued := s.metrics.messagesQueued + 1 }).finish x call m none)
  | countsFull {x call m i} (here : s.pc x = .countFull call m i) :
      Step topic s (.step x)
        (({ s with metrics.queueFullErrors := s.metrics.queueFullErrors + 1 }).goto x (.blockingSend call m i))
  | sendsLate {x call m i} (here : s.pc x = .blockingSend call m i) (room : s.room i) :
      Step topic s (.step x) ((s.send x call m i).finish x call m none)
  | receives {i m rest} (selecting : (s.shards i).pc = .select)
      (queued : (s.shards i).input = m :: rest) : Step topic s (.receive i) (s.received i m rest)
  | ticks {i} (selecting : (s.shards i).pc = .select) :
    Step topic s (.timer i) (s.flushAsync i false)
  | shardEnds {i} (selecting : (s.shards i).pc = .select)
    (closed : (s.shards i).stopChanClosed = true) :
      Step topic s (.shardStops i) (s.flushAsync i true)
  | countsWritten {i batch final} (here : (s.shards i).pc = .countWritten batch final) :
      Step topic s (.shardStep i)
        { s.setShard i { s.shards i with pc := .countPending batch final } with
          metrics.totalBatchesWritten := s.metrics.totalBatchesWritten + 1 }
  | countsPending {i batch final} (here : (s.shards i).pc = .countPending batch final) :
      Step topic s (.shardStep i)
        { s.setShard i { s.shards i with pc := .spawn batch final } with
          metrics.pendingBatches := s.metrics.pendingBatches + 1 }
  | spawns {i batch final} (here : (s.shards i).pc = .spawn batch final) :
      Step topic s (.shardStep i)
        { s.setShard i { s.shards i with pc := .resume final } with flushers := s.flushers ++ [.storing batch] }
  | stores {k batch} (choice : StoreChoice ε) (found : s.flushers[k]? = some (.storing batch)) :
      Step topic s (.store k choice)
        { s.storeBatch batch choice with flushers := s.flushers.set k (.confirming batch choice.err) }
  | sendsOnClosed {k batch err} (found : s.flushers[k]? = some (.confirming batch err))
      (closed : s.confirmClosed = true) : Step topic s (.confirm k) { s with sentOnClosed := true }
  | confirms {k batch err} (found : s.flushers[k]? = some (.confirming batch err))
      (isOpen : s.confirmClosed = false) (room : s.confirmChan.length < confirmSize n) :
      Step topic s (.confirm k)
        { s with
          confirmChan := s.confirmChan ++ [⟨batch.id, batch.messages.length, err⟩]
          flushers := s.flushers.eraseIdx k }
  | takesConfirmation {conf rest} (here : s.confirmPc = .select)
      (queued : s.confirmChan = conf :: rest) :
      Step topic s .processStep { s with confirmChan := rest, confirmPc := .countResult conf }
  | confirmEnds {label} (here : s.confirmPc = .select)
      (ended : s.confirmClosed = true ∨ s.cancelled = true) :
        Step topic s label { s with confirmPc := .returned }
  | countsFailed {conf err} (here : s.confirmPc = .countResult conf)
      (failed : conf.err = some err) :
      Step topic s .processStep
        { s with confirmPc := .countDone, metrics.failedBatches := s.metrics.failedBatches + 1 }
  | countsConfirmed {conf} (here : s.confirmPc = .countResult conf) (stored : conf.err = none) :
      Step topic s .processStep
        { s with
          confirmPc := .countMessages conf.size
          metrics.totalBatchesConfirmed := s.metrics.totalBatchesConfirmed + 1 }
  | countsMessages {size} (here : s.confirmPc = .countMessages size) :
      Step topic s .processStep
        { s with confirmPc := .countDone, metrics.totalMessagesWritten := s.metrics.totalMessagesWritten + size }
  | countsDone (here : s.confirmPc = .countDone) :
      Step topic s .processStep
        { s with confirmPc := .select, metrics.pendingBatches := s.metrics.pendingBatches - 1 }
  | cancels : Step topic s .cancel { s with cancelled := true }
  | beginsStop (running : s.running = true) :
      Step topic s .stop { s with running := false, stopping := .closing 0 }
  | stoppedBefore (stopped : s.running = false) : Step topic s .stop s
  | closes {k} (phase : s.stopping = .closing k) (inside : k < n) :
      Step topic s .stopStep
        { s.setShard ⟨k, inside⟩ { s.shards ⟨k, inside⟩ with stopChanClosed := true } with
          stopping := .closing (k + 1) }
  | closedAll {k} (phase : s.stopping = .closing k) (outside : ¬ k < n) :
      Step topic s .stopStep { s with stopping := .closeConfirm }
  | closesConfirm (phase : s.stopping = .closeConfirm) :
      Step topic s .stopStep { s with confirmClosed := true, stopping := .waiting }
  | endsStop (phase : s.stopping = .waiting)
      (ended : (∀ i, (s.shards i).pc.isReturned = true) ∧ s.confirmPc.isReturned = true) :
      Step topic s .stopStep { s with stopping := .returned }

section

variable {topic : M → GoString} {s t : System n T ε M} {label : Label n T ε M}

-- The cases below are the branches of the functions; those that the last line closes are not enabled.

theorem System.step_of_advance (stepped : s.advance topic x (s.pc x) = some t) :
    Step topic s (.step x) t := by
  generalize here : s.pc x = pc at stepped
  revert stepped
  fun_cases System.advance topic s x pc with
  | case1 => simp
  | case2 call m running =>
    intro stepped
    obtain ⟨i, shard, rfl⟩ := Option.map_eq_some_iff.mp stepped
    exact .aims here running shard
  | case3 call m stopped =>
    rintro ⟨⟩
    exact .notRunning here (by simpa using stopped)
  | case4 call m i room =>
    rintro ⟨⟩
    exact .sends here room
  | case5 call m i full =>
    rintro ⟨⟩
    exact .findsFull here full
  | case6 call m =>
    rintro ⟨⟩
    exact .countsQueued here
  | case7 call m i =>
    rintro ⟨⟩
    exact .countsFull here
  | case8 call m i room =>
    rintro ⟨⟩
    exact .sendsLate here room
  | case9 => simp

theorem System.step_of_shardStep (stepped : s.shardStep i (s.shards i).pc = some t) :
    Step topic s (.shardStep i) t := by
  generalize here : (s.shards i).pc = pc at stepped
  revert stepped
  fun_cases System.shardStep s i pc with
  | case1 batch final =>
    rintro ⟨⟩
    exact .countsWritten here
  | case2 batch final =>
    rintro ⟨⟩
    exact .countsPending here
  | case3 batch final =>
    rintro ⟨⟩
    exact .spawns here
  | _ => simp

theorem System.step_of_processStep (stepped : s.processStep s.confirmPc = some t) :
    Step topic s .processStep t := by
  generalize here : s.confirmPc = pc at stepped
  revert stepped
  fun_cases System.processStep s pc with
  | case1 conf rest queued =>
    rintro ⟨⟩
    exact .takesConfirmation here queued
  | case2 _ closed =>
    rintro ⟨⟩
    exact .confirmEnds here (.inl closed)
  | case4 conf err failed =>
    rintro ⟨⟩
    exact .countsFailed here failed
  | case5 conf stored =>
    rintro ⟨⟩
    exact .countsConfirmed here stored
  | case6 size =>
    rintro ⟨⟩
    exact .countsMessages here
  | case7 =>
    rintro ⟨⟩
    exact .countsDone here
  | _ => simp

theorem System.step_of_stopStep (stepped : s.stopStep s.stopping = some t) :
    Step topic s .stopStep t := by
  generalize phase : s.stopping = call at stepped
  revert stepped
  fun_cases System.stopStep s call with
  | case1 k inside =>
    rintro ⟨⟩
    exact .closes phase inside
  | case2 k outside =>
    rintro ⟨⟩
    exact .closedAll phase outside
  | case3 =>
    rintro ⟨⟩
    exact .closesConfirm phase
  | case4 ended =>
    rintro ⟨⟩
    exact .endsStop phase ended
  | _ => simp

theorem System.step_of_act (stepped : s.act topic label = some t) : Step topic s label t := by
  revert stepped
  fun_cases System.act topic s label with
  | case1 x m here =>
    rintro ⟨⟩
    exact .begins m here
  | case3 x => exact System.step_of_advance
  | case4 i m rest queued selecting =>
    rintro ⟨⟩
    exact .receives selecting queued
  | case6 i selecting =>
    rintro ⟨⟩
    exact .ticks selecting
  | case8 i closed selecting =>
    rintro ⟨⟩
    exact .shardEnds selecting closed
  | case10 i => exact System.step_of_shardStep
  | case11 k choice batch found =>
    rintro ⟨⟩
    exact .stores choice found
  | case13 k batch err found closed =>
    rintro ⟨⟩
    exact .sendsOnClosed found closed
  | case14 k batch err found isOpen room =>
    rintro ⟨⟩
    exact .confirms found (by simpa using isOpen) room
  | case17 => exact System.step_of_processStep
  | case18 here cancelled =>
    rintro ⟨⟩
    exact .confirmEnds here (.inr cancelled)
  | case21 =>
    rintro ⟨⟩
    exact .cancels
  | case22 running =>
    rintro ⟨⟩
    exact .beginsStop running
  | case23 stopped =>
    rintro ⟨⟩
    exact .stoppedBefore (by simpa using stopped)
  | case24 => exact System.step_of_stopStep
  | _ => simp

theorem System.step_of_next (stepped : s.next topic label = some t) : Step topic s label t := by
  rw [System.next, Option.ite_none_left_eq_some] at stepped
  exact System.step_of_act stepped.2

end

end

end Portask.Processor.AsyncBatchWriter
