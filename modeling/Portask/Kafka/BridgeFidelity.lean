import Portask.Kafka.ProcessorBridge

/-! # What of a message reaches the store

The processor carries the topic, the timestamp and the string headers of a message. The ID
is replaced by the decimal numeral of a hash, and everything else is replaced by its zero
value: the store is always asked for partition 0 and an empty key.
-/

namespace Portask.Kafka

open Lib Portask.Types Processor Processor.BatchWriter

/-- A store that notes each call and whether it succeeded. -/
def tracingStore : MessageStore (List (Produce × Bool)) Bool Unit where
  produceMessage trace succeeds call :=
    (trace ++ [(call, succeeds)], if succeeds then .ok trace.length else .error ())

/-- The calls that `StoreBatch` makes: all of the batch if it returns nil, and otherwise the
    last of them has failed. -/
theorem produceAll_tracing (choice : Nat → Bool) (i : Nat) (batch : List PortaskMessage)
    (trace : List (Produce × Bool)) :
    ∃ made err, tracingStore.produceAll choice i batch trace = (trace ++ made, err) ∧
      made.map Prod.fst ⊆ batch.map produceOf ∧
      (err = none → made = batch.map (fun m => (produceOf m, true))) ∧
      (err ≠ none → ∃ entry ∈ made, entry.2 = false) := by
  induction batch generalizing i trace with
  | nil =>
    exact ⟨[], none, by simp [MessageStore.produceAll], List.nil_subset _, fun _ => rfl,
      fun err => absurd rfl err⟩
  | cons m rest ih =>
    cases succeeds : choice i with
    | true =>
      obtain ⟨made, err, called, inside, whole, failed⟩ := ih (i + 1) (trace ++ [(produceOf m, true)])
      refine ⟨(produceOf m, true) :: made, err, ?_, ?_, fun none => by
        rw [whole none]; rfl, fun some => ?_⟩
      · simp [MessageStore.produceAll, tracingStore, succeeds] at called ⊢
        exact called
      · simpa using List.cons_subset_cons (produceOf m) inside
      · obtain ⟨entry, later, failure⟩ := failed some
        exact ⟨entry, List.mem_cons_of_mem _ later, failure⟩
    | false =>
      refine ⟨[(produceOf m, false)], some ⟨m.id, ()⟩, ?_, by simp, by simp,
        fun _ => ⟨_, List.mem_singleton_self _, rfl⟩⟩
      simp [MessageStore.produceAll, tracingStore, succeeds]

/-- The store is asked for nothing but the writes, and for each of them in turn as long as
    it does not fail. -/
structure Traced (writes buffer : List PortaskMessage) (trace : List (Produce × Bool)) : Prop where
  buffered : buffer ⊆ writes
  asked : trace.map Prod.fst ⊆ writes.map produceOf
  inTurn : (∀ entry ∈ trace, entry.2 = true) →
    trace.map Prod.fst ++ buffer.map produceOf = writes.map produceOf

theorem tracing_upkeep (batchSize : Int) :
    Upkeep (kafkaStorageAdapter tracingStore) batchSize (fun _ _ => True) Traced Traced where
  pre traced := traced
  append m traced :=
    { buffered := List.append_subset.mpr
        ⟨fun _ inside => List.mem_append_left _ (traced.buffered inside), List.subset_append_right _ _⟩
      asked := fun c inside => by
        rw [List.map_append]
        exact List.mem_append_left _ (traced.asked inside)
      inTurn := fun succeeded => by
        rw [List.map_append, List.map_append, ← List.append_assoc, traced.inTurn succeeded] }
  short traced _ := traced
  takes writes buffer choice _ _ := by
    intro trace before
    have traced : Traced writes buffer trace := before.elim id id
    obtain ⟨made, err, called, inside, whole, failed⟩ := produceAll_tracing choice 0 buffer trace
    have asked : (trace ++ made).map Prod.fst ⊆ writes.map produceOf := by
      rw [List.map_append]
      exact List.append_subset.mpr ⟨traced.asked, fun c here =>
        List.map_subset produceOf traced.buffered (inside here)⟩
    simp only [kafkaStorageAdapter, called]
    cases err with
    | none =>
      refine ⟨List.nil_subset _, asked, fun succeeded => ?_⟩
      have earlier := traced.inTurn (fun entry here => succeeded entry (List.mem_append_left _ here))
      simpa [whole rfl, Function.comp_def] using earlier
    | some err =>
      refine ⟨traced.buffered, asked, fun succeeded => ?_⟩
      obtain ⟨entry, here, failure⟩ := failed (Option.some_ne_none err)
      rw [succeeded entry (List.mem_append_right _ here)] at failure
      cases failure

/-- When the store is asked for what the caller gave. -/
structure Plain (config : ProcessorConfig) (msg : PortaskMessage) : Prop where
  partition : msg.partition = 0
  key : msg.key = []
  payload : config.enableZeroCopy = true ∨ msg.payload = some []

instance (config : ProcessorConfig) (msg : PortaskMessage) : Decidable (Plain config msg) :=
  decidable_of_iff (msg.partition = 0 ∧ msg.key = [] ∧
    (config.enableZeroCopy = true ∨ msg.payload = some []))
    ⟨fun ⟨partition, key, payload⟩ => ⟨partition, key, payload⟩,
      fun ⟨partition, key, payload⟩ => ⟨partition, key, payload⟩⟩

theorem produceOf_carried (config : ProcessorConfig) (msg : PortaskMessage) :
    produceOf (carried config msg) = produceOf msg ↔ Plain config msg := by
  have fields : produceOf (carried config msg) = produceOf msg ↔
      0 = msg.partition ∧ [] = msg.key ∧
        (if config.enableZeroCopy then msg.payload else some []) = msg.payload := by
    simp [produceOf, carried]
  rw [fields]
  constructor
  · rintro ⟨partition, key, payload⟩
    refine ⟨partition.symm, key.symm, ?_⟩
    cases copies : config.enableZeroCopy with
    | true => exact .inl rfl
    | false => exact .inr (by simpa [copies] using payload.symm)
  · intro plain
    refine ⟨plain.partition.symm, plain.key.symm, ?_⟩
    obtain zeroCopy | empty := plain.payload
    · rw [zeroCopy, if_pos rfl]
    · rw [empty, ite_self]

/-- The fields that neither the pooled message nor the store has a place for. -/
def unplaced (msg : PortaskMessage) :=
  (msg.metadata, msg.status, msg.partitionKey, msg.replyTo, msg.expiresAt, msg.ttl,
    msg.offset, msg.attempts, msg.maxRetry, msg.correlationID, msg.traceID)

/-- What processing does to a message, field by field. -/
structure Fate (config : ProcessorConfig) (msg processed : PortaskMessage) : Prop where
  handed : produceOf processed = produceOf msg ↔ Plain config msg
  timestamp : processed.timestamp = msg.timestamp
  id : processed.id = msg.id ↔ GoString.decimal (Processor.hash msg.id).toNat = msg.id
  shortId : msg.id.length ≤ 12 → processed.id ≠ msg.id
  priority : processed.priority = msg.priority ↔ msg.priority = 0
  headers : (∀ k v, msg.headers.bind (· k) = some v → processed.headers.bind (· k) = some v) ↔
    ∀ k v, msg.headers.bind (· k) = some v → ∃ s, v = .string s
  unplaced : unplaced processed = unplaced msg ↔ unplaced msg = unplaced {}

theorem fate_carried (config : ProcessorConfig) (msg : PortaskMessage) :
    Fate config msg (carried config msg) where
  handed := produceOf_carried config msg
  timestamp := rfl
  id := Iff.rfl
  shortId := carried_id_ne config
  priority := eq_comm
  headers := carried_headers config msg
  unplaced := eq_comm

namespace Bridge

variable {T χ : Type} [DecidableEq T]

theorem traced_run {config} (off : config.enableCompression = false) {compress labels}
    {s : Bridge T (List (Produce × Bool)) χ Unit}
    (ran : (machine config compress tracingStore).run (newProcessorBridge []) labels = some s) :
    Carries config s ∧
      Traced (s.writer.writes.map Prod.fst) s.writer.writer.buffer.contents s.writer.store := by
  have kept := (machine config compress tracingStore).run_invariant
    (P := fun s : Bridge T (List (Produce × Bool)) χ Unit => Carries config s ∧
      Traced (s.writer.writes.map Prod.fst) s.writer.writer.buffer.contents s.writer.store ∧
        s.writer.writer.config = defaultBatchWriterConfig)
    (fun s label s' ⟨carries, traced, configured⟩ stepped =>
      ⟨carries.next off stepped, upkeep_next (tracing_upkeep _) configured traced stepped⟩)
    ⟨carries_new config [], ⟨List.nil_subset _, List.nil_subset _, fun _ => rfl⟩, rfl⟩ ran
  exact ⟨kept.1, kept.2.1⟩

theorem bridge_hands_on_iff {config : ProcessorConfig} (off : config.enableCompression = false)
    {compress : List UInt8 → Except χ Bytes} {labels : List (BridgeLabel T Bool)}
    {s : Bridge T (List (Produce × Bool)) χ Unit}
    (ran : (machine config compress tracingStore).run (newProcessorBridge []) labels = some s) :
    (∀ entry ∈ s.writer.store, ∃ c ∈ s.calls, entry.1 = produceOf c.processed) ∧
      ((∀ entry ∈ s.writer.store, entry.2 = true) →
        s.writer.store.map Prod.fst ++ s.writer.writer.buffer.contents.map produceOf =
          s.calls.map (fun c => produceOf c.processed)) ∧
      (∀ c ∈ s.calls, Fate config c.message c.processed) ∧
      (∀ a ∈ s.calls, ∀ b ∈ s.calls,
        a.processed.id = b.processed.id ↔ Processor.hash a.message.id = Processor.hash b.message.id) ∧
      (∀ t msg c, s.working t = none → Valid msg → c.Answered config →
        ∃ s', s.next config compress tracingStore (.process t msg c) = some s' ∧
          s'.working t = some (msg, carried config msg)) := by
  obtain ⟨carries, traced⟩ := traced_run off ran
  have written : (s.writer.writes.map Prod.fst).map produceOf =
      s.calls.map (fun c => produceOf c.processed) := by
    rw [carries.aligned, List.map_map]
    rfl
  refine ⟨fun entry inside => ?_, fun succeeded => (traced.inTurn succeeded).trans written,
    fun c inside => ?_,
    fun a first b second => ?_, fun t msg c idle valid answered =>
      process_valid off carries idle valid answered⟩
  · have asked := traced.asked (List.mem_map_of_mem inside)
    rw [written] at asked
    obtain ⟨c, called, same⟩ := List.mem_map.mp asked
    exact ⟨c, called, same.symm⟩
  · rw [(carries.calls c inside).2]
    exact fate_carried config c.message
  · rw [(carries.calls a first).2, (carries.calls b second).2]
    exact carried_id_eq config a.message b.message

def uncompressed : ProcessorConfig := { defaultProcessorConfig with enableCompression := false }

def noCompressor : List UInt8 → Except Unit Bytes := fun _ => .error ()

/-- Each message is processed and written, and in the end the timer fires. -/
def sendAll (msgs : List PortaskMessage) : List (BridgeLabel Unit Bool) :=
  msgs.flatMap (fun msg => [.process () msg ⟨false, .answered 0⟩, .write () (fun _ _ => true)]) ++
    [.writer (.timer (fun _ _ => true))]

def withHeader : PortaskMessage where
  id := ascii "Aa"
  topic := ascii "t"
  payload := some [1, 2]
  timestamp := 7
  headers := some (fun k => if k = ascii "h" then some (.string (ascii "v")) else none)

theorem bridge_hands_on_iff_plain :
    ∃ s : Bridge Unit (List (Produce × Bool)) Unit Unit,
      (machine uncompressed noCompressor tracingStore).run (newProcessorBridge [])
      (sendAll [withHeader]) = some s ∧
        s.writer.store = [(produceOf withHeader, true)] ∧ ∀ c ∈ s.calls, Fate uncompressed c.message c.processed := by
  refine exists_of_view (·.writer.store) [(produceOf withHeader, true)]
    (by decide +kernel) fun s ran handed => ?_
  exact ⟨handed, (bridge_hands_on_iff rfl ran).2.2.1⟩

/-- What `GetMessage` makes when its pool is empty. -/
def freshMessage : PortaskMessage := { metadata := emptyMap, headers := emptyMap }

def collidingAa : PortaskMessage := { id := ascii "Aa", topic := ascii "t", payload := some [1] }

def collidingBB : PortaskMessage := { id := ascii "BB", topic := ascii "t", payload := some [2] }

/-- The partition and the key are dropped, two IDs become one, and without zero-copy the
    payload is emptied. -/
theorem not_hands_on :
    (∃ msg, translateProduce freshMessage 5 7 (ascii "t") 3 (ascii "k") [1, 2] = .ok msg ∧
      produceOf msg = ⟨ascii "t", 3, ascii "k", some [1, 2]⟩ ∧
      ∃ s : Bridge Unit (List (Produce × Bool)) Unit Unit,
        (machine uncompressed noCompressor tracingStore).run (newProcessorBridge [])
        (sendAll [msg]) = some s ∧ s.writer.store = [(⟨ascii "t", 0, [], some [1, 2]⟩, true)]) ∧
    (∃ s : Bridge Unit (List (Produce × Bool)) Unit Unit,
      (machine uncompressed noCompressor tracingStore).run (newProcessorBridge [])
          (sendAll [collidingAa, collidingBB]) = some s ∧
        s.calls.map (fun c => (c.message.id, c.processed.id)) =
          [(ascii "Aa", ascii "2112"), (ascii "BB", ascii "2112")]) ∧
    (∃ s : Bridge Unit (List (Produce × Bool)) Unit Unit,
      (machine { uncompressed with enableZeroCopy := false } noCompressor tracingStore).run
      (newProcessorBridge []) (sendAll [collidingAa]) = some s ∧
        s.writer.store = [(⟨ascii "t", 0, [], some []⟩, true)]) := by
  refine ⟨⟨_, rfl, rfl, ?_⟩, ?_, ?_⟩
  · exact Option.map_eq_some_iff.mp (by decide +kernel)
  · exact Option.map_eq_some_iff.mp (by decide +kernel)
  · exact Option.map_eq_some_iff.mp (by decide +kernel)

end Bridge

end Portask.Kafka
