import Portask.Lib.Machine
import Portask.Processor.Storage

/-! # The batch writer

`BatchWriter` collects messages under a mutex and stores them in batches: when the buffer
has reached the batch size, when the timer fires, and once more at the end of `Stop`.
Whoever holds the mutex runs alone, so a critical section is one step. `Write` does not ask
whether the writer is running, and a flush that fails leaves the buffer as it was.
-/

namespace Portask.Processor

open Lib

/-- Durations are in milliseconds. -/
structure BatchWriterConfig where
  flushInterval : Int
  batchSize : Int
  maxRetries : Int
  deriving DecidableEq

def defaultBatchWriterConfig : BatchWriterConfig := ⟨10, 1000, 3⟩

structure BatchWriter (M : Type) where
  config : BatchWriterConfig
  buffer : Buffer M
  messageCount : Nat
  batchCount : Nat
  running : Bool

/-- The error that `flushLocked` returns around the last error of the storage. -/
structure BatchWriteFailed (ε : Type) where
  maxRetries : Int
  err : ε
  deriving DecidableEq

def BatchWriteFailed.message {ε : Type} (render : ε → String) (e : BatchWriteFailed ε) : String :=
  "batch write failed after " ++ toString e.maxRetries ++ " retries: " ++ render e.err

/-- `none` where `make` or `NewTicker` panics. -/
def newBatchWriter {M : Type} (config : Option BatchWriterConfig) : Option (BatchWriter M) :=
  let config := config.getD defaultBatchWriterConfig
  if config.batchSize < 0 ∨ config.flushInterval ≤ 0 then none
  else some ⟨config, .make config.batchSize.toNat, 0, 0, false⟩

namespace BatchWriter

variable {σ ο ε M : Type}

/-- The writer and the storage after a call, and the error it returns. -/
structure Result (σ ε M : Type) where
  writer : BatchWriter M
  store : σ
  err : Option (BatchWriteFailed ε)

section

variable (bw : BatchWriter M)

def flushLocked (backend : StorageBackend σ ο ε M) (choices : Nat → ο) (store : σ) :
    Result σ ε M :=
  match backend.flush bw.config.maxRetries bw.buffer choices store with
  | .empty => ⟨bw, store, none⟩
  | .failed store err => ⟨bw, store, some ⟨bw.config.maxRetries, err⟩⟩
  | .stored store =>
    ⟨{ bw with batchCount := bw.batchCount + 1, buffer := bw.buffer.clear }, store, none⟩

/-- The first lines of `Write`. -/
def append (m : M) : BatchWriter M :=
  { bw with buffer := bw.buffer.append m, messageCount := bw.messageCount + 1 }

variable (backend : StorageBackend σ ο ε M)

def write (m : M) (choices : Nat → ο) (store : σ) :
    Result σ ε M :=
  if bw.config.batchSize ≤ (bw.append m).buffer.len then
    (bw.append m).flushLocked backend choices store
  else ⟨bw.append m, store, none⟩

/-- The timer case of `flushLoop`, which drops the error. -/
def onTimer (choices : Nat → ο) (store : σ) :
    Result σ ε M :=
  if 0 < bw.buffer.len then bw.flushLocked backend choices store else ⟨bw, store, none⟩

end

/-- Where the call of `Stop` is that found the writer running. -/
inductive StopCall (ε : Type) where
  | pending
  | signalled
  | closed
  | waited
  | returned (err : Option (BatchWriteFailed ε))
  deriving DecidableEq

def StopCall.stopChClosed {ε : Type} : StopCall ε → Bool
  | .pending | .signalled => false
  | .closed | .waited | .returned _ => true

/-- `looping` holds until `flushLoop` returns. `writes` is not part of the program: it has
    the messages of all calls of `Write`, in lock order, with what each call returned. -/
structure System (σ ε M : Type) where
  writer : BatchWriter M
  store : σ
  looping : Bool
  cancelled : Bool
  stopping : StopCall ε
  writes : List (M × Option (BatchWriteFailed ε))

inductive Label (ο M : Type) where
  | write (m : M) (choices : Nat → ο)
  | timer (choices : Nat → ο)
  | loopReturns
  | cancel
  /-- The steps of `Stop`: the running flag, `close(stopCh)`, `wg.Wait()`, the final flush. -/
  | stop
  | closeStopCh
  | wait
  | finalFlush (choices : Nat → ο)

def Label.isWrite : Label ο M → Bool
  | .write .. => true
  | _ => false

/-- A writer on which `Start` has been called. -/
def started (bw : BatchWriter M) (store : σ) : System σ ε M :=
  ⟨{ bw with running := true }, store, true, false, .pending, []⟩

/-- Other calls of `Stop` find the writer stopped, return and change nothing. -/
def System.next (backend : StorageBackend σ ο ε M) (s : System σ ε M) : Label ο M →
    Option (System σ ε M)
  | .write m choices =>
    let r := s.writer.write backend m choices s.store
    some { s with writer := r.writer, store := r.store, writes := s.writes ++ [(m, r.err)] }
  | .timer choices =>
    let r := s.writer.onTimer backend choices s.store
    if s.looping then some { s with writer := r.writer, store := r.store } else none
  | .loopReturns =>
    if s.looping ∧ (s.cancelled ∨ s.stopping.stopChClosed) then
      some { s with looping := false }
    else none
  | .cancel => some { s with cancelled := true }
  | .stop =>
    if s.writer.running then
      some { s with writer := { s.writer with running := false }, stopping := .signalled }
    else some s
  | .closeStopCh =>
    match s.stopping with
    | .signalled => some { s with stopping := .closed }
    | _ => none
  | .wait =>
    match s.stopping with
    | .closed => if s.looping then none else some { s with stopping := .waited }
    | _ => none
  | .finalFlush choices =>
    match s.stopping with
    | .waited =>
      let r := s.writer.flushLocked backend choices s.store
      some { s with writer := r.writer, store := r.store, stopping := .returned r.err }
    | _ => none

def machine (backend : StorageBackend σ ο ε M) : Machine (System σ ε M) (Label ο M) :=
  ⟨System.next backend⟩

/-- The batch that a step would hand to the storage, with the choices for its attempts. -/
def System.flushes (s : System σ ε M) : Label ο M → Option ((Nat → ο) × List M)
  | .write m choices =>
    if s.writer.config.batchSize ≤ (s.writer.append m).buffer.len then
      some (choices, s.writer.buffer.contents ++ [m])
    else none
  | .timer choices | .finalFlush choices => some (choices, s.writer.buffer.contents)
  | _ => none

/-- The error that the step returns from `Write`. -/
def System.writeError (backend : StorageBackend σ ο ε M) (s : System σ ε M) :
    Label ο M → Option (BatchWriteFailed ε)
  | .write m choices => (s.writer.write backend m choices s.store).err
  | _ => none

/-- What it takes to keep `Kept writes buffer store` along every run: `Pre` is what is left
    of it between the append of `Write` and the flush, and `Fine` is what is known of the
    choice for an attempt to store a batch. -/
structure Upkeep (backend : StorageBackend σ ο ε M) (batchSize : Int) (Fine : ο → List M → Prop)
    (Pre Kept : List M → List M → σ → Prop) : Prop where
  pre : ∀ {writes buffer store}, Kept writes buffer store → Pre writes buffer store
  append : ∀ {writes buffer store} m, Kept writes buffer store →
    Pre (writes ++ [m]) (buffer ++ [m]) store
  short : ∀ {writes buffer store}, Pre writes buffer store → (buffer.length : Int) < batchSize →
    Kept writes buffer store
  takes : ∀ writes {buffer choice}, buffer ≠ [] → Fine choice buffer →
    backend.Takes (Pre writes buffer) (Kept writes buffer) (Kept writes []) choice buffer

section

variable {backend : StorageBackend σ ο ε M} {config : BatchWriterConfig} {Fine : ο → List M → Prop}
  {Pre Kept : List M → List M → σ → Prop}

theorem Upkeep.flushLocked (upkeep : Upkeep backend config.batchSize Fine Pre Kept)
    {bw : BatchWriter M} (configured : bw.config = config) (retries : 0 ≤ config.maxRetries)
    (fine : ∀ i : Nat, (i : Int) ≤ config.maxRetries → Fine (choices i) bw.buffer.contents)
    (pre : Pre writes bw.buffer.contents store)
    (resting : bw.buffer.contents = [] → Kept writes [] store) :
    Kept writes (bw.flushLocked backend choices store).writer.buffer.contents
        (bw.flushLocked backend choices store).store ∧
      (bw.flushLocked backend choices store).writer.config = config := by
  subst configured
  have flushed := StorageBackend.Takes.flush retries
    (fun filled i within => upkeep.takes writes filled (fine i within)) pre
  rw [BatchWriter.flushLocked]
  cases outcome : backend.flush bw.config.maxRetries bw.buffer choices store with
  | empty =>
    rw [outcome, Flush.Ends] at flushed
    have kept := resting flushed
    rw [← flushed] at kept
    exact ⟨kept, rfl⟩
  | failed store' err =>
    rw [outcome, Flush.Ends] at flushed
    exact ⟨flushed, rfl⟩
  | stored store' =>
    rw [outcome, Flush.Ends] at flushed
    exact ⟨by simpa using flushed, rfl⟩

theorem Upkeep.write (upkeep : Upkeep backend config.batchSize Fine Pre Kept) {bw : BatchWriter M}
    (configured : bw.config = config) (retries : 0 ≤ config.maxRetries)
    (fine : config.batchSize ≤ (bw.append m).buffer.len →
      ∀ i : Nat, (i : Int) ≤ config.maxRetries → Fine (choices i) (bw.buffer.contents ++ [m]))
    (kept : Kept writes bw.buffer.contents store) :
    Kept (writes ++ [m]) (bw.write backend m choices store).writer.buffer.contents
        (bw.write backend m choices store).store ∧
      (bw.write backend m choices store).writer.config = config := by
  have appended : (bw.append m).buffer.contents = bw.buffer.contents ++ [m] :=
    Buffer.contents_append _ m
  have pre : Pre (writes ++ [m]) (bw.append m).buffer.contents store := by
    rw [appended]
    exact upkeep.append m kept
  rw [BatchWriter.write, configured]
  by_cases full : config.batchSize ≤ (bw.append m).buffer.len
  · rw [if_pos full]
    refine upkeep.flushLocked (by exact configured) retries
      (by rw [appended]; exact fine full) pre ?_
    intro empty
    simp [appended] at empty
  · rw [if_neg full]
    refine ⟨upkeep.short pre ?_, configured⟩
    rw [Buffer.length_contents]
    exact Int.not_le.mp full

/-- A step that touches neither the buffer nor the storage. -/
def System.Quiet (s t : System σ ε M) : Prop :=
  t.writer.buffer = s.writer.buffer ∧ t.writer.config = s.writer.config ∧ t.store = s.store ∧
    t.writes = s.writes

variable {s t : System σ ε M} {label : Label ο M}

/-- What a step can do to the buffer, the storage and the writes. -/
theorem System.next_cases (stepped : s.next backend label = some t) :
    (∃ m choices, label = .write m choices ∧
      t.writer = (s.writer.write backend m choices s.store).writer ∧
      t.store = (s.writer.write backend m choices s.store).store ∧
      t.writes = s.writes ++ [(m, (s.writer.write backend m choices s.store).err)]) ∨
    (∃ choices, s.flushes label = some (choices, s.writer.buffer.contents) ∧
      t.writer = (s.writer.flushLocked backend choices s.store).writer ∧
      t.store = (s.writer.flushLocked backend choices s.store).store ∧ t.writes = s.writes) ∨
    s.Quiet t := by
  revert stepped
  fun_cases System.next backend s label with
  | case1 m choices =>
    rintro ⟨⟩
    exact .inl ⟨m, choices, rfl, rfl, rfl, rfl⟩
  | case2 choices r =>
    rintro ⟨⟩
    by_cases filled : 0 < s.writer.buffer.len
    · exact .inr (.inl ⟨choices, rfl, by simp [r, onTimer, filled], by simp [r, onTimer, filled], rfl⟩)
    · exact .inr (.inr ⟨by simp [r, onTimer, filled], by simp [r, onTimer, filled], by simp [r, onTimer, filled], rfl⟩)
  | case14 choices =>
    rintro ⟨⟩
    exact .inr (.inl ⟨choices, rfl, rfl, rfl, rfl⟩)
  | case4 | case6 | case7 | case8 | case9 | case12 =>
    -- the loop returns, or the context or `Stop` goes on
    rintro ⟨⟩
    exact .inr (.inr ⟨rfl, rfl, rfl, rfl⟩)
  | _ => simp

theorem Upkeep.next (upkeep : Upkeep backend config.batchSize Fine Pre Kept)
    (retries : 0 ≤ config.maxRetries) (configured : s.writer.config = config)
    (fine : ∀ choices batch, s.flushes label = some (choices, batch) →
      ∀ i : Nat, (i : Int) ≤ config.maxRetries → Fine (choices i) batch)
    (kept : Kept (s.writes.map Prod.fst) s.writer.buffer.contents s.store)
    (stepped : s.next backend label = some t) :
    Kept (t.writes.map Prod.fst) t.writer.buffer.contents t.store ∧ t.writer.config = config := by
  obtain ⟨m, choices, rfl, writer, store, writes⟩ | ⟨choices, flushes, writer, store, writes⟩ |
    ⟨buffer, same, store, writes⟩ := System.next_cases stepped
  · have full_fine (full : config.batchSize ≤ (s.writer.append m).buffer.len) :=
      fine choices (s.writer.buffer.contents ++ [m]) (by simp [System.flushes, configured, full])
    rw [writer, store, writes, List.map_append]
    exact upkeep.write configured retries full_fine kept
  · rw [writer, store, writes]
    exact upkeep.flushLocked configured retries (fine choices _ flushes) (upkeep.pre kept)
      (fun empty => empty ▸ kept)
  · rw [buffer, store, writes, same]
    exact ⟨kept, configured⟩

theorem flushLocked_of_neg (bw : BatchWriter M) (unused : bw.config.maxRetries < 0)
    (choices : Nat → ο) (store : σ) :
    (bw.flushLocked backend choices store).store = store ∧
      (bw.flushLocked backend choices store).writer.config = bw.config := by
  rw [BatchWriter.flushLocked, StorageBackend.flush_of_neg unused]
  by_cases empty : bw.buffer.len = 0 <;> simp [empty]

theorem flushLocked_err (bw : BatchWriter M) (stored :
      (backend.storeWithRetries bw.config.maxRetries bw.buffer.contents choices store).2 = none) :
    (bw.flushLocked backend choices store).err = none := by
  rw [BatchWriter.flushLocked, StorageBackend.flush]
  by_cases empty : bw.buffer.len = 0
  · rw [if_pos empty]
  · rw [if_neg empty]
    cases called :
      backend.storeWithRetries bw.config.maxRetries bw.buffer.contents choices store with
    | mk store' err =>
      rw [called] at stored
      cases stored
      rfl

theorem System.next_of_neg (unused : s.writer.config.maxRetries < 0)
    (stepped : s.next backend label = some t) :
    t.store = s.store ∧ t.writer.config = s.writer.config := by
  obtain ⟨m, choices, rfl, writer, store, -⟩ | ⟨choices, -, writer, store, -⟩ | ⟨-,
      same, store, -⟩ :=
    System.next_cases stepped
  · rw [writer, store, BatchWriter.write]
    by_cases full : s.writer.config.batchSize ≤ (s.writer.append m).buffer.len
    · rw [if_pos full]
      exact flushLocked_of_neg (s.writer.append m) unused choices s.store
    · rw [if_neg full]
      exact ⟨rfl, rfl⟩
  · rw [writer, store]
    exact flushLocked_of_neg s.writer unused choices s.store
  · exact ⟨store, same⟩

end

theorem newBatchWriter_some {config} {bw : BatchWriter M}
    (created : newBatchWriter (some config) = some bw) :
    bw = ⟨config, .make config.batchSize.toNat, 0, 0, false⟩ := by
  simp only [newBatchWriter, Option.getD_some, Option.ite_none_left_eq_some,
    Option.some.injEq] at created
  exact created.2.symm

/-- Nothing is lost, duplicated or reordered, no batch is empty, and the buffer stays short
    as long as the storage has not failed. -/
structure Conserved (s : System (Recorder ε M) ε M) : Prop where
  inOrder : s.store.stored.flatten ++ s.writer.buffer.contents = s.writes.map Prod.fst
  nonempty : [] ∉ s.store.stored
  short : s.store.failures = [] →
    (s.writer.buffer.contents.length : Int) < s.writer.config.batchSize

def Ordered (writes buffer : List M) (r : Recorder ε M) : Prop :=
  r.stored.flatten ++ buffer = writes ∧ [] ∉ r.stored

def Kept (batchSize : Int) (writes buffer : List M) (r : Recorder ε M) : Prop :=
  Ordered writes buffer r ∧ (r.failures = [] → (buffer.length : Int) < batchSize)

theorem recording_upkeep (size : 1 ≤ batchSize) :
    Upkeep (recording : StorageBackend (Recorder ε M) _ _ _) batchSize (fun _ _ => True) Ordered
    (Kept batchSize) where
  pre kept := kept.1
  append m kept := ⟨by rw [← List.append_assoc, kept.1.1], kept.1.2⟩
  short ordered below := ⟨ordered, fun _ => below⟩
  takes writes buffer choice filled _ := by
    have before (r : Recorder ε M) (either : Ordered writes buffer r ∨
      Kept batchSize writes buffer r) :
        Ordered writes buffer r := either.elim id And.left
    refine recording_takes (fun r either => ⟨⟨?_, ?_⟩, fun _ => ?_⟩) (fun r err either =>
      ⟨?_, fun none => ?_⟩)
    · simpa using (before r either).1
    · simpa [filled.symm] using (before r either).2
    · simpa using Int.lt_iff_add_one_le.mpr size
    · exact before r either
    · simp at none

theorem batchWriter_conserves {config : BatchWriterConfig} (size : 1 ≤ config.batchSize)
    (retries : 0 ≤ config.maxRetries) {bw : BatchWriter M}
    (created : newBatchWriter (some config) = some bw)
    {labels : List (Label (Option ε) M)} {s : System (Recorder ε M) ε M}
    (ran : (machine recording).run (started bw {}) labels = some s) : Conserved s := by
  obtain rfl := newBatchWriter_some created
  have kept := (machine recording).run_invariant
    (P := fun s : System (Recorder ε M) ε M =>
      Kept config.batchSize (s.writes.map Prod.fst) s.writer.buffer.contents s.store ∧
        s.writer.config = config)
    (fun s label t before stepped =>
      (recording_upkeep size).next retries before.2 (fun _ _ _ _ _ => trivial) before.1 stepped)
    ⟨⟨⟨rfl, List.not_mem_nil⟩, fun _ => by simpa [started] using Int.lt_iff_add_one_le.mpr size⟩,
      rfl⟩ ran
  obtain ⟨⟨⟨inOrder, nonempty⟩, short⟩, configured⟩ := kept
  exact ⟨inOrder, nonempty, by rw [configured]; exact short⟩

def pairs : BatchWriter Nat := ⟨⟨10, 2, 1⟩, .make 2, 0, 0, false⟩

/-- The first batch is refused twice and stored by the timer, the last one by `Stop`. -/
def refusedRun : List (Label (Option Nat) Nat) :=
  [.write 4 (fun _ => none), .write 5 (fun _ => some 0),
    .timer (fun i => if i = 0 then some 1 else none),
    .write 6 (fun _ => none), .stop, .closeStopCh, .loopReturns, .wait, .finalFlush (fun _ => none)]

theorem batchWriter_conserves_refused :
    ∃ s : System (Recorder Nat Nat) Nat Nat,
      (machine recording).run (started pairs {}) refusedRun = some s ∧
        s.store.stored = [[4, 5], [6]] ∧ Conserved s := by
  have created : newBatchWriter (some ⟨10, 2, 1⟩) = some pairs := rfl
  refine exists_of_view (·.store.stored) [[4, 5], [6]] (by decide +kernel) fun s ran stored => ?_
  exact ⟨stored, batchWriter_conserves (by decide) (by decide) created ran⟩

end BatchWriter

end Portask.Processor
