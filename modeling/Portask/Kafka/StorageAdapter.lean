import Portask.Processor.BatchWriter
import Portask.Types.Message

/-! # Batches on top of a message store

`KafkaStorageAdapter.StoreBatch` produces the messages of a batch one by one and returns at
the first error. The messages before it stay in the store, and the batch writer above does
not know of them: it stores the whole batch again, or keeps it for the next flush after
`Write` has already returned the error.
-/

namespace Portask.Kafka

open Lib Portask.Types Processor Processor.BatchWriter

/-- The arguments of `MessageStore.ProduceMessage`. -/
structure Produce where
  topic : GoString
  partition : Int32
  key : GoString
  value : Bytes
  deriving DecidableEq

/-- A call gives the offset of the message or an error; the choice is what the outside
    decides about it. -/
structure MessageStore (σ κ ε : Type) where
  produceMessage : σ → κ → Produce → σ × Except ε Int

/-- The error of `StoreBatch`. -/
structure StoreFailed (ε : Type) where
  id : GoString
  err : ε

/-- What the adapter asks the store to produce for a message. -/
def produceOf (msg : PortaskMessage) : Produce := ⟨msg.topic, msg.partition, msg.key, msg.payload⟩

section

variable {σ κ ε : Type}

/-- The loop of `StoreBatch`; the choice number `i` is for the message number `i`. -/
def MessageStore.produceAll (storage : MessageStore σ κ ε) (choice : Nat → κ) :
    Nat → List PortaskMessage → σ → σ × Option (StoreFailed ε)
  | _, [], store => (store, none)
  | i, msg :: rest, store =>
    match storage.produceMessage store (choice i) (produceOf msg) with
    | (store, .ok _) => produceAll storage choice (i + 1) rest store
    | (store, .error err) => (store, some ⟨msg.id, err⟩)

def kafkaStorageAdapter (storage : MessageStore σ κ ε) :
    StorageBackend σ (Nat → κ) (StoreFailed ε) PortaskMessage where
  storeBatch store choice batch := storage.produceAll choice 0 batch store

end

/-- A store that records what is produced and fails when it is told to. -/
def flakyStore : MessageStore (List Produce) Bool Unit where
  produceMessage produced succeeds call :=
    if succeeds then (produced ++ [call], .ok produced.length) else (produced, .error ())

@[simp] theorem flakyStore_produce (produced : List Produce) (call : Produce) :
    flakyStore.produceMessage produced true call = (produced ++ [call], .ok produced.length) := rfl

@[simp] theorem flakyStore_refuse (produced : List Produce) (call : Produce) :
    flakyStore.produceMessage produced false call = (produced, .error ()) := rfl

/-- The attempt fails before its first message is produced, or does not fail. -/
def Whole (choice : Nat → Bool) (batch : List PortaskMessage) : Prop :=
  choice 0 = false ∨ ∀ j < batch.length, choice j = true

instance (choice : Nat → Bool) (batch : List PortaskMessage) : Decidable (Whole choice batch) :=
  inferInstanceAs (Decidable (_ ∨ _))

variable {batch : List PortaskMessage} {produced : List Produce} {choice : Nat → Bool}

theorem produceAll_succeeds (succeeds : ∀ j < batch.length, choice (i + j) = true) :
    flakyStore.produceAll choice i batch produced = (produced ++ batch.map produceOf, none) := by
  induction batch generalizing i produced with
  | nil => simp [MessageStore.produceAll]
  | cons msg rest ih =>
    have first : choice i = true := succeeds 0 (Nat.succ_pos _)
    have later (j : Nat) (below : j < rest.length) : choice (i + 1 + j) = true := by
      rw [Nat.add_assoc, Nat.add_comm 1 j]
      exact succeeds (j + 1) (Nat.succ_lt_succ below)
    simp [MessageStore.produceAll, first, ih later]

theorem produceAll_fails (filled : batch ≠ []) (fails : choice 0 = false) :
    ∃ err, flakyStore.produceAll choice 0 batch produced = (produced, some err) := by
  cases batch with
  | nil => exact absurd rfl filled
  | cons msg rest => exact ⟨⟨msg.id, ()⟩, by simp [MessageStore.produceAll, fails]⟩

/-- The produced messages followed by the buffer are the writes. -/
def InOrder (writes buffer : List PortaskMessage) (produced : List Produce) : Prop :=
  produced ++ buffer.map produceOf = writes.map produceOf

theorem flaky_upkeep (batchSize : Int) :
    Upkeep (kafkaStorageAdapter flakyStore) batchSize Whole InOrder InOrder where
  pre inOrder := inOrder
  append m inOrder := by
    simp only [InOrder, List.map_append, ← List.append_assoc] at inOrder ⊢
    rw [inOrder]
  short inOrder _ := inOrder
  takes writes buffer choice filled whole := by
    intro produced before
    have inOrder : InOrder writes buffer produced := before.elim id id
    simp only [kafkaStorageAdapter]
    cases whole with
    | inl fails =>
      obtain ⟨err, failed⟩ : ∃ err, flakyStore.produceAll choice 0 buffer produced = (produced, some err) :=
        produceAll_fails filled fails
      rw [failed]
      exact inOrder
    | inr succeeds =>
      rw [produceAll_succeeds (by simpa using succeeds)]
      simpa [InOrder] using inOrder

/-- The batch writer over the adapter. An attempt of a flush has a choice for each of its
    messages. -/
abbrev AdapterSystem := System (List Produce) (StoreFailed Unit) PortaskMessage

abbrev AdapterLabel := Label (Nat → Bool) PortaskMessage

def adapterMachine : Machine AdapterSystem AdapterLabel := machine (kafkaStorageAdapter flakyStore)

def written (s : AdapterSystem) : List Produce := s.writes.map (fun w => produceOf w.1)

def accepted (s : AdapterSystem) : List Produce :=
  (s.writes.filter (fun w => w.2.isNone)).map (fun w => produceOf w.1)

def onPartition (topic : GoString) (partition : Int32) (calls : List Produce) : List Produce :=
  calls.filter (fun c => c.topic = topic ∧ c.partition = partition)

structure OncePerWrite (s : AdapterSystem) : Prop where
  atMostOnce : ∀ call, s.store.count call ≤ (written s).count call
  inOrder : ∀ topic partition,
    (onPartition topic partition s.store).Sublist (onPartition topic partition (written s))
  notRefused : ∀ call, s.store.count call ≤ (accepted s).count call

/-- The store takes the first message of the batch in one of the attempts. -/
def Accepts (s : AdapterSystem) (flush : (Nat → Nat → Bool) × List PortaskMessage) : Prop :=
  ∃ i < (s.writer.config.maxRetries + 1).toNat, flush.1 i 0 = true

instance (s : AdapterSystem) : DecidablePred (Accepts s) :=
  fun _ => inferInstanceAs (Decidable (∃ i < _, _))

/-- No attempt of the step fails with a part of its batch produced, and if the step is a `Write`
    that stores a batch, then it makes no attempt at all or the store accepts one. -/
structure Uneventful (s : AdapterSystem) (label : AdapterLabel) : Prop where
  whole : ∀ flush ∈ s.flushes label,
    ∀ i < (s.writer.config.maxRetries + 1).toNat, Whole (flush.1 i) flush.2
  returns : label.isWrite = true → s.writer.config.maxRetries < 0 ∨
    ∀ flush ∈ s.flushes label, Accepts s flush

instance (s : AdapterSystem) (label : AdapterLabel) : Decidable (Uneventful s label) :=
  decidable_of_iff (_ ∧ _) ⟨fun ⟨whole, returns⟩ => ⟨whole, returns⟩, fun ⟨whole, returns⟩ =>
    ⟨whole, returns⟩⟩

theorem Uneventful.writeError {s : AdapterSystem} {label : AdapterLabel}
    (uneventful : Uneventful s label) :
    s.writeError (kafkaStorageAdapter flakyStore) label = none := by
  cases label with
  | write m choices =>
    rw [System.writeError, BatchWriter.write]
    split
    · next full =>
        have flushes : s.flushes (.write m choices) = some (choices, s.writer.buffer.contents ++ [m]) := if_pos full
        refine flushLocked_err _ ?_
        obtain unused | accepts := uneventful.returns rfl
        · have never : (s.writer.config.maxRetries + 1).toNat = 0 := by omega
          rw [StorageBackend.storeWithRetries, append, never, StorageBackend.attempts]
        · obtain ⟨i, below, first⟩ := accepts _ flushes
          refine StorageBackend.attempts_succeed _ 0 none ⟨i, below, fun produced => ?_⟩
          have all : ∀ j < (s.writer.append m).buffer.contents.length, choices i (0 + j) = true := by
            simp only [append, Buffer.contents_append, Nat.zero_add]
            exact (uneventful.whole _ flushes i below).resolve_left fun fails => by cases first.symm.trans fails
          rw [Nat.zero_add]
          exact congrArg Prod.snd (produceAll_succeeds all)
    · rfl
  | _ => rfl

/-- In a run of such steps every write is accepted, and the store has them in order. -/
structure Orderly (config : BatchWriterConfig) (s : AdapterSystem) : Prop where
  configured : s.writer.config = config
  inOrder : 0 ≤ config.maxRetries → InOrder (s.writes.map Prod.fst) s.writer.buffer.contents s.store
  unused : config.maxRetries < 0 → s.store = []
  returned : ∀ w ∈ s.writes, w.2.isNone = true

theorem returned_next {s t : AdapterSystem} {label : AdapterLabel}
    (returns : s.writeError (kafkaStorageAdapter flakyStore) label = none)
    (returned : ∀ w ∈ s.writes, w.2.isNone = true)
    (stepped : s.next (kafkaStorageAdapter flakyStore) label = some t) :
    ∀ w ∈ t.writes, w.2.isNone = true := by
  obtain ⟨m, choices, rfl, -, -, writes⟩ | ⟨choices, -, -, -, writes⟩ | ⟨-, -, -, writes⟩ :=
    System.next_cases stepped
  · rw [writes]
    exact forall_mem_concat returned (Option.isNone_iff_eq_none.mpr returns)
  · rw [writes]
    exact returned
  · rw [writes]
    exact returned

variable {config : BatchWriterConfig}

theorem Orderly.next {s t : AdapterSystem} {label : AdapterLabel} (orderly : Orderly config s)
    (uneventful : Uneventful s label)
    (stepped : s.next (kafkaStorageAdapter flakyStore) label = some t) : Orderly config t := by
  have returned := returned_next uneventful.writeError orderly.returned stepped
  by_cases retries : 0 ≤ config.maxRetries
  · have whole (choices : Nat → Nat → Bool) (batch : List PortaskMessage)
        (flushes : s.flushes label = some (choices, batch)) (i : Nat) (within : (i : Int) ≤ config.maxRetries) :
        Whole (choices i) batch :=
      uneventful.whole (choices, batch) flushes i (by rw [orderly.configured]; omega)
    obtain ⟨inOrder, configured⟩ :=
      (flaky_upkeep config.batchSize).next retries orderly.configured whole
      (orderly.inOrder retries) stepped
    exact ⟨configured, fun _ => inOrder, fun unused => absurd retries (by omega), returned⟩
  · have unused : config.maxRetries < 0 := by omega
    obtain ⟨store, configured⟩ :=
      System.next_of_neg (by rw [orderly.configured]; exact unused) stepped
    exact ⟨configured.trans orderly.configured, fun used => absurd used retries,
      fun _ => store.trans (orderly.unused unused), returned⟩

/-- The store holds a first part of what was written. -/
theorem Orderly.sublist (orderly : Orderly config s) : s.store.Sublist (written s) := by
  by_cases retries : 0 ≤ config.maxRetries
  · have inOrder := orderly.inOrder retries
    rw [InOrder, List.map_map] at inOrder
    have whole : s.store ++ s.writer.buffer.contents.map produceOf = written s := inOrder
    rw [← whole]
    exact List.sublist_append_left _ _
  · rw [orderly.unused (by omega)]
    exact List.nil_sublist _

theorem Orderly.once (orderly : Orderly config s) : OncePerWrite s := by
  have all : accepted s = written s := by
    rw [accepted, List.filter_eq_self.mpr orderly.returned]
    rfl
  exact
    { atMostOnce := fun call => orderly.sublist.count_le call
      inOrder := fun _ _ => orderly.sublist.filter _
      notRefused := fun call => all ▸ orderly.sublist.count_le call }

theorem orderly_started (config : BatchWriterConfig) :
    Orderly config (started ⟨config, .make config.batchSize.toNat, 0, 0, false⟩ []) where
  configured := rfl
  inOrder _ := rfl
  unused _ := rfl
  returned _ inside := absurd inside List.not_mem_nil

theorem adapter_once_of_uneventful {config : BatchWriterConfig} {bw : BatchWriter PortaskMessage}
    (created : newBatchWriter (some config) = some bw) {labels : List AdapterLabel}
    {s : AdapterSystem}
    (ran : (adapterMachine.restrict Uneventful).run (started bw []) labels = some s) :
    OncePerWrite s := by
  obtain rfl := newBatchWriter_some created
  have orderly := (adapterMachine.restrict Uneventful).run_invariant (P := Orderly config)
    (fun s label t orderly stepped =>
      have ⟨uneventful, step⟩ := (Machine.restrict_next _).mp stepped
      orderly.next uneventful step)
    (orderly_started config) ran
  exact orderly.once

def first : PortaskMessage := { id := [97], topic := [116], payload := some [1] }

def second : PortaskMessage := { id := [98], topic := [116], payload := some [2] }

def writerOf (batchSize maxRetries : Int) : BatchWriter PortaskMessage :=
  ⟨⟨10, batchSize, maxRetries⟩, .make batchSize.toNat, 0, 0, false⟩

/-- The first attempt fails as a whole, the second one succeeds. -/
def wholeRun : List AdapterLabel :=
  [.write first (fun _ _ => true), .write second (fun attempt _ => attempt ≠ 0)]

theorem adapter_once_of_uneventful_retried :
    ∃ s : AdapterSystem, (adapterMachine.restrict Uneventful).run
    (started (writerOf 2 1) []) wholeRun = some s ∧
      s.store = [produceOf first, produceOf second] ∧ OncePerWrite s := by
  have created : newBatchWriter (some ⟨10, 2, 1⟩) = some (writerOf 2 1) := rfl
  refine exists_of_view (·.store) [produceOf first, produceOf second]
    (by decide +kernel) fun s ran produced => ?_
  exact ⟨produced, adapter_once_of_uneventful created ran⟩

/-- The first attempt fails after it has produced the first message. -/
def partialRun : List AdapterLabel :=
  [.write first (fun _ _ => true), .write second (fun attempt i => attempt ≠ 0 ∨ i = 0)]

/-- `Write` gives up, and the timer produces the message all the same. -/
def refusedLater : List AdapterLabel :=
  [.write first (fun _ _ => false), .timer (fun _ _ => true)]

theorem not_once_partial :
    (∃ s : AdapterSystem, adapterMachine.run (started (writerOf 2 1) []) partialRun = some s ∧
      s.store = [produceOf first, produceOf first, produceOf second] ∧ ¬ OncePerWrite s) ∧
    (∃ s : AdapterSystem, adapterMachine.run (started (writerOf 1 0) []) refusedLater = some s ∧
      s.store = [produceOf first] ∧ accepted s = [] ∧ ¬ OncePerWrite s) := by
  constructor
  · refine exists_of_view (fun s => (s.store, written s))
      ([produceOf first, produceOf first, produceOf second], [produceOf first, produceOf second])
        (by decide +kernel)
      fun s ran found => ?_
    obtain ⟨produced, wrote⟩ := Prod.mk.inj found
    refine ⟨produced, fun once => ?_⟩
    have twice := once.atMostOnce (produceOf first)
    rw [produced, wrote] at twice
    exact absurd twice (by decide)
  · refine exists_of_view (fun s => (s.store, accepted s)) ([produceOf first], [])
      (by decide +kernel)
      fun s ran found => ?_
    obtain ⟨produced, none_accepted⟩ := Prod.mk.inj found
    refine ⟨produced, none_accepted, fun once => ?_⟩
    have later := once.notRefused (produceOf first)
    rw [produced, none_accepted] at later
    exact absurd later (by decide)

end Portask.Kafka
