import Portask.Kafka.StorageAdapter
import Portask.Processor.Process
import Mathlib.Logic.Function.Basic

/-! # Kafka produces through the processor

A produce request becomes a message, goes through the processor, and what comes out is
written to the batch writer, which hands it to the message store. The bridge's caller is
told the timestamp of the processed message. Several callers may be under way; each of
them first waits for the processor and then calls `Write`.
-/

namespace Portask.Kafka

open Function Lib Portask.Types Processor Processor.BatchWriter

def ascii (s : String) : GoString := s.toList.map (fun c => UInt8.ofNat c.toNat)

/-- `pooled` is the message that `GetMessage` gives, `id` the number that `NextKafkaID` gives
    and `now` the time. A payload without capacity stays nil for an empty value. -/
def translateProduce (pooled : PortaskMessage) (id : UInt64) (now : Int) (topic : GoString)
    (partition : Int32) (key value : List UInt8) : Except String PortaskMessage :=
  if topic = [] then .error "topic cannot be empty"
  else
    let metadata := pooled.metadata.getD (fun _ => none)
    .ok { pooled with
      id := GoString.decimal id.toNat
      topic := topic
      partition := partition
      key := key
      payload := if value = [] then pooled.payload.map (fun _ => []) else some value
      timestamp := now
      ttl := 0
      headers := some (pooled.headers.getD (fun _ => none))
      metadata := some (fun k =>
        if k = ascii "source" then some (ascii "kafka")
        else if k = ascii "protocol" then some (ascii "kafka-wire")
        else if k = ascii "version" then some (ascii "2.0")
        else metadata k) }

inductive BridgeError (χ ε : Type) where
  | processor (err : ProcessError χ)
  | batchWrite (err : BatchWriteFailed (StoreFailed ε))

def BridgeError.message {χ ε : Type} (compression : χ → String) (storage : StoreFailed ε → String) :
    BridgeError χ ε → String
  | .processor err => "processor failed: " ++ err.message compression
  | .batchWrite err => "batch write failed: " ++ err.message storage

/-- A call of `ProduceMessage` that has returned from `Write`. -/
structure Produced (χ ε : Type) where
  message : PortaskMessage
  processed : PortaskMessage
  result : Except (BridgeError χ ε) Int

/-- `working` has the callers between the processor and `Write`, each with the message it was
    called with and the processed one. `calls` and `refused` are not part of the program:
    they record the calls that have returned, the former in the order of their writes. -/
structure Bridge (T σ χ ε : Type) where
  pool : MessagePool
  working : T → Option (PortaskMessage × PortaskMessage)
  writer : System σ (StoreFailed ε) PortaskMessage
  calls : List (Produced χ ε)
  refused : List (PortaskMessage × BridgeError χ ε)

/-- The last kind is for the steps of the batch writer other than `Write`. -/
inductive BridgeLabel (T κ : Type) where
  | process (t : T) (msg : PortaskMessage) (c : Circumstances)
  | write (t : T) (choices : Nat → Nat → κ)
  | writer (label : Label (Nat → κ) PortaskMessage)

namespace Bridge

variable {T σ κ χ ε : Type} [DecidableEq T]

/-- The writer that `newBatchWriter` makes of the default configuration. -/
def defaultBatchWriter : BatchWriter PortaskMessage :=
  ⟨defaultBatchWriterConfig, .make defaultBatchWriterConfig.batchSize.toNat, 0, 0, false⟩

def newProcessorBridge (store : σ) : Bridge T σ χ ε :=
  ⟨[], fun _ => none, started defaultBatchWriter store, [], []⟩

/-- What `ProduceMessage` returns after `Write`. -/
def resultOf (processed : PortaskMessage) : Option (BatchWriteFailed (StoreFailed ε)) →
    Except (BridgeError χ ε) Int
  | none => .ok processed.timestamp
  | some err => .error (.batchWrite err)

def next (config : ProcessorConfig) (compress : List UInt8 → Except χ Bytes)
    (storage : MessageStore σ κ ε) (s : Bridge T σ χ ε) : BridgeLabel T κ → Option (Bridge T σ χ ε)
  | .process t msg c =>
    match s.working t with
    | some _ => none
    | none =>
      match processMessage config compress c s.pool (some msg) with
      | (pool, .ok processed) =>
        some { s with pool := pool, working := update s.working t (some (msg, processed)) }
      | (pool, .error err) => some { s with pool := pool, refused := s.refused ++ [(msg, .processor err)] }
  | .write t choices =>
    match s.working t with
    | none => none
    | some (msg, processed) =>
      let err := s.writer.writeError (kafkaStorageAdapter storage) (.write processed choices)
      (s.writer.next (kafkaStorageAdapter storage) (.write processed choices)).map (fun writer =>
        { s with
          writer := writer
          working := update s.working t none
          calls := s.calls ++ [⟨msg, processed, resultOf processed err⟩] })
  | .writer label =>
    if label.isWrite then none
    else (s.writer.next (kafkaStorageAdapter storage) label).map
      (fun writer => { s with writer := writer })

def machine (config : ProcessorConfig) (compress : List UInt8 → Except χ Bytes)
    (storage : MessageStore σ κ ε) :
    Machine (Bridge T σ χ ε) (BridgeLabel T κ) := ⟨next config compress storage⟩

section

variable {config : ProcessorConfig} {compress : List UInt8 → Except χ Bytes}
  {storage : MessageStore σ κ ε}
  {s s' : Bridge T σ χ ε} {label : BridgeLabel T κ}
  {backend : StorageBackend σ (Nat → κ) (StoreFailed ε) PortaskMessage}
  {w w' : System σ (StoreFailed ε) PortaskMessage}

theorem next_cases (stepped : s.next config compress storage label = some s') :
    (∃ t msg c pool processed, label = .process t msg c ∧
      processMessage config compress c s.pool (some msg) = (pool, .ok processed) ∧
      s' = { s with pool := pool, working := update s.working t (some (msg, processed)) }) ∨
    (∃ t msg c pool err, label = .process t msg c ∧
      processMessage config compress c s.pool (some msg) = (pool, .error err) ∧
      s' = { s with pool := pool, refused := s.refused ++ [(msg, .processor err)] }) ∨
    (∃ t choices msg processed writer result, label = .write t choices ∧
      s.working t = some (msg, processed) ∧
      s.writer.next (kafkaStorageAdapter storage) (.write processed choices) = some writer ∧
      result = resultOf processed
        (s.writer.writeError (kafkaStorageAdapter storage) (.write processed choices)) ∧
      s' = { s with
        writer := writer
        working := update s.working t none
        calls := s.calls ++ [⟨msg, processed, result⟩] }) ∨
    (∃ inner writer, label = .writer inner ∧ inner.isWrite = false ∧
      s.writer.next (kafkaStorageAdapter storage) inner = some writer ∧
        s' = { s with writer := writer }) := by
  revert stepped
  fun_cases next config compress storage s label with
  | case2 t msg c _ pool processed answer =>
    rintro ⟨⟩
    exact .inl ⟨t, msg, c, pool, processed, rfl, answer, rfl⟩
  | case3 t msg c _ pool err answer =>
    rintro ⟨⟩
    exact .inr (.inl ⟨t, msg, c, pool, err, rfl, answer, rfl⟩)
  | case5 t choices msg processed busy =>
    intro stepped
    obtain ⟨writer, wrote, rfl⟩ := Option.map_eq_some_iff.mp stepped
    exact .inr (.inr (.inl ⟨t, choices, msg, processed, writer, _, rfl, busy, wrote, rfl, rfl⟩))
  | case7 inner other =>
    intro stepped
    obtain ⟨writer, moved, rfl⟩ := Option.map_eq_some_iff.mp stepped
    exact .inr (.inr (.inr ⟨inner, writer, rfl, by simpa using other, moved, rfl⟩))
  | _ => simp

omit [DecidableEq T] in
theorem writes_of_other {inner} (other : inner.isWrite = false)
    (stepped : w.next backend inner = some w') : w'.writes = w.writes := by
  obtain ⟨m, choices, rfl, -⟩ | ⟨-, -, -, -, writes⟩ | ⟨-, -, -, writes⟩ :=
    System.next_cases stepped
  · cases other
  · exact writes
  · exact writes

omit [DecidableEq T] in
theorem writes_of_write (stepped : w.next backend (.write m choices) = some w') :
    w'.writes.map Prod.fst = w.writes.map Prod.fst ++ [m] := by
  obtain rfl := Option.some.inj stepped
  simp

/-- With compression off, every message under way or written is what the processor makes of
    a valid one. -/
structure Carries (config : ProcessorConfig) (s : Bridge T σ χ ε) : Prop where
  clean : s.pool.Clean
  working : ∀ t under, s.working t = some under → Valid under.1 ∧ under.2 = carried config under.1
  calls : ∀ c ∈ s.calls, Valid c.message ∧ c.processed = carried config c.message
  aligned : s.writer.writes.map Prod.fst = s.calls.map Produced.processed

theorem Carries.next (off : config.enableCompression = false) (carries : Carries config s)
    (stepped : s.next config compress storage label = some s') : Carries config s' := by
  obtain ⟨t, msg, c, pool, processed, rfl, answer, rfl⟩ | ⟨t, msg, c, pool, err, rfl, answer, rfl⟩ |
    ⟨t, choices, msg, processed, writer, result, rfl, busy, wrote, -, rfl⟩ |
    ⟨inner, writer, rfl, other, moved, rfl⟩ := next_cases stepped
  · obtain ⟨-, given, same, valid, out⟩ :=
      (processMessage_ok off carries.clean).mp (congrArg Prod.snd answer)
    refine ⟨processMessage_clean carries.clean answer, fun t' under held => ?_, carries.calls,
      carries.aligned⟩
    obtain ⟨-, ⟨⟩⟩ | ⟨-, held⟩ := of_update held
    · obtain rfl : msg = given := Option.some.inj same
      exact ⟨valid, out⟩
    · exact carries.working t' under held
  · exact ⟨processMessage_clean carries.clean answer, carries.working, carries.calls,
      carries.aligned⟩
  · have here := carries.working t (msg, processed) busy
    refine ⟨carries.clean, fun t' under held => ?_, forall_mem_concat carries.calls here, ?_⟩
    · obtain ⟨-, ⟨⟩⟩ | ⟨-, held⟩ := of_update held
      exact carries.working t' under held
    · rw [writes_of_write wrote, List.map_append, carries.aligned]
      rfl
  · exact ⟨carries.clean, carries.working,
      carries.calls, by rw [writes_of_other other moved]; exact carries.aligned⟩

omit [DecidableEq T] in
theorem carries_new (config : ProcessorConfig) (store : σ) :
    Carries config (newProcessorBridge store : Bridge T σ χ ε) where
  clean _ inside := absurd inside List.not_mem_nil
  working _ _ held := absurd held (by simp [newProcessorBridge])
  calls _ inside := absurd inside List.not_mem_nil
  aligned := rfl

/-- The batch writer of a bridge has the default configuration, so what an upkeep keeps is kept
    along every run of the bridge. -/
theorem upkeep_next {Pre Kept}
    (upkeep : Upkeep (kafkaStorageAdapter storage) defaultBatchWriterConfig.batchSize
      (fun _ _ => True) Pre Kept) (configured : s.writer.writer.config = defaultBatchWriterConfig)
    (kept : Kept (s.writer.writes.map Prod.fst) s.writer.writer.buffer.contents s.writer.store)
    (stepped : s.next config compress storage label = some s') :
    Kept (s'.writer.writes.map Prod.fst) s'.writer.writer.buffer.contents s'.writer.store ∧
      s'.writer.writer.config = defaultBatchWriterConfig := by
  have retries : 0 ≤ defaultBatchWriterConfig.maxRetries := by decide
  obtain ⟨_, _, _, _, _, -, -, rfl⟩ | ⟨_, _, _, _, _, -, -, rfl⟩ | ⟨_, _, _, _, _, _, -, -,
    wrote, -, rfl⟩ |
    ⟨_, _, -, -, moved, rfl⟩ := next_cases stepped
  · exact ⟨kept, configured⟩
  · exact ⟨kept, configured⟩
  · exact upkeep.next retries configured (fun _ _ _ _ _ => trivial) kept wrote
  · exact upkeep.next retries configured (fun _ _ _ _ _ => trivial) kept moved

theorem calls_next (stepped : s.next config compress storage label = some s') :
    s'.calls = s.calls ∨
      ∃ t choices msg processed err, label = .write t choices ∧ s.working t = some (msg, processed) ∧
        s'.calls = s.calls ++ [⟨msg, processed, resultOf processed err⟩] := by
  obtain ⟨_, _, _, _, _, -, -, rfl⟩ | ⟨_, _, _, _, _, -, -, rfl⟩ |
    ⟨t, choices, msg, processed, _, _, same, busy, -, rfl, rfl⟩ | ⟨_, _, -, -, -, rfl⟩ :=
      next_cases stepped
  · exact .inl rfl
  · exact .inl rfl
  · exact .inr ⟨t, choices, msg, processed, _, same, busy, rfl⟩
  · exact .inl rfl

/-- A valid message whose caller waits for the answer is always processed. -/
theorem process_valid (off : config.enableCompression = false) (carries : Carries config s)
    (idle : s.working t = none) (valid : Valid msg) (answered : c.Answered config) :
    ∃ s', s.next config compress storage (.process t msg c) = some s' ∧
      s'.working t = some (msg, carried config msg) := by
  have ok : (processMessage config compress c s.pool (some msg)).2 = .ok (carried config msg) :=
    (processMessage_ok off carries.clean).mpr ⟨answered, msg, rfl, valid, rfl⟩
  cases answer : processMessage config compress c s.pool (some msg) with
  | mk pool result =>
    obtain rfl : result = .ok (carried config msg) := by rwa [answer] at ok
    exact ⟨_, by simp [next, idle, answer]; rfl, by simp⟩

end

end Bridge

end Portask.Kafka
