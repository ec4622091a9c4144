import Portask.Kafka.BridgeFidelity
import Portask.Kafka.MemoryStore

/-! # Offsets through the bridge

`ProduceMessage` of the bridge returns the timestamp of the processed message as the offset.
The offset under which the message can be fetched is given to it by the store, when the
batch is flushed. The two agree where every caller happens to use the right timestamp.
-/

namespace Portask.Kafka

open Lib Portask.Types Processor Processor.BatchWriter InMemoryMessageStore

/-- The error of `FetchMessages`. -/
structure FetchFailed where
  err : TopicNotFound
  deriving DecidableEq

def FetchFailed.message (render : GoString → String) (e : FetchFailed) : String :=
  "storage fetch failed: " ++ e.err.message render

def fetchMessages (store : InMemoryMessageStore) (req : FetchRequest) :
    Option (Except FetchFailed (List PortaskMessage)) :=
  (store.consumeMessages req.topic req.partition req.offset (Int32.ofInt (req.limit * 1024))).map (fun
    | .error err => .error ⟨err⟩
    | .ok kafkaMessages => .ok (kafkaMessages.map (fun kmsg =>
      { id := GoString.decimal kmsg.offset
        topic := req.topic
        partition := req.partition
        key := kmsg.key
        payload := kmsg.value
        timestamp := kmsg.offset })))

/-- What a fetch is to return for a message that has been produced at an offset. -/
def fetched (msg : PortaskMessage) (offset : Int) : PortaskMessage where
  id := GoString.decimal offset.toNat
  topic := msg.topic
  partition := msg.partition
  key := msg.key
  payload := msg.payload
  timestamp := offset

abbrev OffsetSystem (T χ : Type) := Bridge T InMemoryMessageStore χ TopicNotFound

inductive OffsetLabel (T : Type) where
  | bridge (label : BridgeLabel T Unit)
  | createTopic (topic : GoString) (partitions : Int32)

namespace OffsetSystem

variable {T χ : Type} [DecidableEq T] {calls : List (Produced χ TopicNotFound)}
  {config : ProcessorConfig}

def next (config : ProcessorConfig) (compress : List UInt8 → Except χ Bytes)
    (s : OffsetSystem T χ) : OffsetLabel T → Option (OffsetSystem T χ)
  | .bridge label => Bridge.next config compress inMemory s label
  | .createTopic topic partitions =>
    some { s with writer := { s.writer with store := s.writer.store.createTopic topic partitions } }

def machine (config : ProcessorConfig) (compress : List UInt8 → Except χ Bytes) :
    Machine (OffsetSystem T χ) (OffsetLabel T) := ⟨next config compress⟩

/-- A call is flushed when its message has left the buffer of the batch writer. -/
def Flushed (s : OffsetSystem T χ) (k : Nat) : Prop :=
  k + s.writer.writer.buffer.contents.length < s.calls.length

structure OffsetsAgree (s : OffsetSystem T χ) : Prop where
  first : ∀ (k : Nat) (c : Produced χ TopicNotFound) (offset : Int), s.calls[k]? = some c →
    c.result = .ok offset → s.Flushed k →
    ∀ limit,
      ∃ rest, fetchMessages s.writer.store ⟨c.message.topic, c.message.partition, offset, limit⟩ =
      some (.ok (fetched c.message offset :: rest))
  increasing : ∀ (j k : Nat) (a b : Produced χ TopicNotFound) (p q : Int), j < k →
    s.calls[j]? = some a → s.calls[k]? = some b →
    a.message.topic = b.message.topic → a.message.partition = b.message.partition →
    a.result = .ok p → b.result = .ok q → p < q

/-- How many messages of the topic are among the calls. -/
def sentTo (topic : GoString) (calls : List (Produced χ TopicNotFound)) : Nat :=
  calls.countP (fun c => c.message.topic = topic)

/-- The message goes to an existing topic, none of it is dropped by the processor, and its
    timestamp is the number of messages written to that topic before it. -/
structure Fitting (config : ProcessorConfig) (s : OffsetSystem T χ) (msg : PortaskMessage) :
    Prop where
  plain : Plain config msg
  has : s.writer.store.Has msg.topic
  timestamp : msg.timestamp = sentTo msg.topic s.calls

instance (config : ProcessorConfig) (s : OffsetSystem T χ) (msg : PortaskMessage) :
    Decidable (Fitting config s msg) :=
  decidable_of_iff
    (Plain config msg ∧ s.writer.store.Has msg.topic ∧ msg.timestamp = sentTo msg.topic s.calls)
    ⟨fun ⟨plain, has, timestamp⟩ => ⟨plain, has, timestamp⟩, fun ⟨plain, has, timestamp⟩ =>
      ⟨plain, has, timestamp⟩⟩

/-- The condition on a step: a message that is written is a fitting one. -/
def Timed (config : ProcessorConfig) (s : OffsetSystem T χ) : OffsetLabel T → Prop
  | .bridge (.write t _) => ∀ under ∈ s.working t, Fitting config s under.1
  | _ => True

instance (config : ProcessorConfig) (s : OffsetSystem T χ) :
    (label : OffsetLabel T) → Decidable (Timed config s label)
  | .bridge (.write t _) =>
    inferInstanceAs (Decidable (∀ under ∈ s.working t, Fitting config s under.1))
  | .bridge (.process ..) | .bridge (.writer ..) | .createTopic .. => .isTrue trivial

/-- Each call has been a fitting one when it was made. -/
structure InStep (config : ProcessorConfig) (store : InMemoryMessageStore)
    (calls : List (Produced χ TopicNotFound)) : Prop where
  plain : ∀ c ∈ calls, Plain config c.message
  has : ∀ c ∈ calls, store.Has c.message.topic
  timestamp : ∀ (k : Nat) (c : Produced χ TopicNotFound), calls[k]? = some c →
    c.message.timestamp = sentTo c.message.topic (calls.take k)
  result : ∀ c ∈ calls, ∀ offset, c.result = .ok offset → offset = c.message.timestamp

theorem InStep.mono (inStep : InStep config store calls)
    (kept : ∀ topic, store.Has topic → store'.Has topic) : InStep config store' calls :=
  ⟨inStep.plain, fun c inside => kept _ (inStep.has c inside), inStep.timestamp, inStep.result⟩

theorem InStep.snoc (inStep : InStep config store calls) {c : Produced χ TopicNotFound}
    (plain : Plain config c.message) (has : store.Has c.message.topic)
    (timestamp : c.message.timestamp = sentTo c.message.topic calls)
    (result : ∀ offset, c.result = .ok offset → offset = c.message.timestamp) :
    InStep config store (calls ++ [c]) where
  plain := forall_mem_concat inStep.plain plain
  has := forall_mem_concat inStep.has has
  timestamp k c' found := by
    obtain ⟨before, old⟩ | ⟨rfl, rfl⟩ := getElem?_concat_cases found
    · rw [List.take_append_of_le_length (Nat.le_of_lt before)]
      exact inStep.timestamp k c' old
    · rw [List.take_left]
      exact timestamp
  result := forall_mem_concat inStep.result result

structure Orderly (config : ProcessorConfig) (s : OffsetSystem T χ) : Prop where
  carries : Bridge.Carries config s
  inStep : InStep config s.writer.store s.calls
  logged : Logged (s.writer.writes.map Prod.fst) s.writer.writer.buffer.contents s.writer.store
  configured : s.writer.writer.config = defaultBatchWriterConfig

section

variable {config : ProcessorConfig} {compress : List UInt8 → Except χ Bytes}
  {s s' : OffsetSystem T χ}

theorem Orderly.bridge (off : config.enableCompression = false) (orderly : Orderly config s)
    {label : BridgeLabel T Unit} (timed : Timed config s (.bridge label))
    (stepped : Bridge.next config compress inMemory s label = some s') : Orderly config s' := by
  have carries := orderly.carries.next off stepped
  have kept {topic : GoString} (has : s.writer.store.Has topic) : s'.writer.store.Has topic :=
    (Bridge.upkeep_next (has_upkeep topic _) orderly.configured has stepped).1
  obtain ⟨logged, configured⟩ :=
    Bridge.upkeep_next (inMemory_upkeep _) orderly.configured orderly.logged stepped
  have inStep : InStep config s'.writer.store s.calls := orderly.inStep.mono (fun _ => kept)
  refine ⟨carries, ?_, logged, configured⟩
  obtain same | ⟨t, choices, msg, processed, err, rfl, busy, added⟩ := Bridge.calls_next stepped
  · rw [same]
    exact inStep
  · have fitting : Fitting config s msg := timed (msg, processed) busy
    have out : processed = carried config msg := (orderly.carries.working t (msg, processed) busy).2
    have same : processed.timestamp = msg.timestamp := by
      rw [out]
      rfl
    rw [added]
    refine inStep.snoc fitting.plain (kept fitting.has) fitting.timestamp
      (fun offset returned => ?_)
    cases err with
    | none => exact (Except.ok.inj returned).symm.trans same
    | some err => cases returned

omit [DecidableEq T] in
theorem Orderly.has_written (orderly : Orderly config s) :
    ∀ m ∈ s.writer.writes.map Prod.fst, s.writer.store.Has m.topic := by
  intro m inside
  rw [orderly.carries.aligned] at inside
  obtain ⟨c, called, rfl⟩ := List.mem_map.mp inside
  rw [(orderly.carries.calls c called).2]
  exact orderly.inStep.has c called

omit [DecidableEq T] in
theorem Orderly.createTopic (orderly : Orderly config s) (topic : GoString) (partitions : Int32) :
    Orderly config
      { s with writer := { s.writer with store := s.writer.store.createTopic topic partitions } } where
  carries :=
    ⟨orderly.carries.clean, orderly.carries.working, orderly.carries.calls, orderly.carries.aligned⟩
  inStep := orderly.inStep.mono (fun _ has => has.createTopic topic partitions)
  logged _ := by
    obtain ⟨stored, writes, same⟩ := orderly.logged orderly.has_written
    exact ⟨stored, writes, fun t p =>
      (partitionOf_createTopic _ topic partitions t p).trans (same t p)⟩
  configured := orderly.configured

omit [DecidableEq T] in
/-- A flushed message is in its partition at the offset that its timestamp says. -/
theorem Orderly.stored (orderly : Orderly config s) (called : s.calls[k]? = some c)
    (flushed : s.Flushed k) :
    (s.writer.store.partitionOf c.message.topic
        c.message.partition)[sentTo c.message.topic (s.calls.take k)]? =
      some ⟨sentTo c.message.topic (s.calls.take k), c.message.key, c.message.payload⟩ := by
  obtain ⟨stored, writes, same⟩ := orderly.logged orderly.has_written
  rw [orderly.carries.aligned] at writes
  have inside : c ∈ s.calls := List.mem_of_getElem? called
  have processed : c.processed = carried config c.message := (orderly.carries.calls c inside).2
  have kept : produceOf c.processed = produceOf c.message := by
    rw [processed]
    exact (produceOf_carried config c.message).mpr (orderly.inStep.plain c inside)
  have length : s.calls.length = stored.length + s.writer.writer.buffer.contents.length := by
    simpa using congrArg List.length writes
  have below : k < stored.length := by
    have : k + s.writer.writer.buffer.contents.length < s.calls.length := flushed
    omega
  have found : stored[k]? = some c.processed := by
    rw [← List.getElem?_append_left below, ← writes, List.getElem?_map, called]
    rfl
  have before : (stored.take k).countP (goesTo c.message.topic c.message.partition) =
      sentTo c.message.topic (s.calls.take k) := by
    rw [← List.take_append_of_le_length (Nat.le_of_lt below), ← writes, ← List.map_take,
      List.countP_map, sentTo]
    refine List.countP_congr (fun c' earlier => ?_)
    have out := (orderly.carries.calls c' (List.mem_of_mem_take earlier)).2
    simp [goesTo, out, carried, (orderly.inStep.plain c inside).partition]
  have here : goesTo c.message.topic c.message.partition c.processed = true := by
    simp [goesTo, processed, carried, (orderly.inStep.plain c inside).partition]
  have placed := log_getElem found here
  rw [before, ← same] at placed
  rw [placed]
  exact congrArg (fun p : Produce => some (⟨_, p.key, p.value⟩ : KafkaMessage)) kept

omit [DecidableEq T] in
theorem Orderly.agree (orderly : Orderly config s) : OffsetsAgree s where
  first k c offset called returned flushed limit := by
    have inside : c ∈ s.calls := List.mem_of_getElem? called
    have counted : offset = (sentTo c.message.topic (s.calls.take k) : Int) :=
      (orderly.inStep.result c inside offset returned).trans (orderly.inStep.timestamp k c called)
    obtain ⟨rest, consumed⟩ :=
      consumeMessages_at (orderly.stored called flushed) (Int32.ofInt (limit * 1024))
    subst counted
    simp only [fetchMessages, consumed, Option.map_some, List.map_cons]
    exact ⟨_, rfl⟩
  increasing j k a b p q before first second topic partition returned returned' := by
    have counted : p = (sentTo b.message.topic (s.calls.take j) : Int) := by
      rw [orderly.inStep.result a (List.mem_of_getElem? first) p returned,
        orderly.inStep.timestamp j a first, topic]
    have counted' : q = (sentTo b.message.topic (s.calls.take k) : Int) := by
      rw [orderly.inStep.result b (List.mem_of_getElem? second) q returned',
        orderly.inStep.timestamp k b second]
    have between : sentTo b.message.topic (s.calls.take (j + 1)) ≤
        sentTo b.message.topic (s.calls.take k) :=
      (List.take_prefix_take_left before).sublist.countP_le
    have one : sentTo b.message.topic (s.calls.take (j + 1)) =
        sentTo b.message.topic (s.calls.take j) + 1 := by
      rw [List.take_add_one, first]
      simp [sentTo, topic]
    omega

theorem Orderly.next (off : config.enableCompression = false) (orderly : Orderly config s)
    (timed : Timed config s label) (stepped : s.next config compress label = some s') :
    Orderly config s' := by
  cases label with
  | bridge label => exact orderly.bridge off timed stepped
  | createTopic topic partitions =>
    obtain rfl := Option.some.inj stepped
    exact orderly.createTopic topic partitions

end

omit [DecidableEq T] in
theorem orderly_new (config : ProcessorConfig) :
    Orderly config (Bridge.newProcessorBridge newInMemoryMessageStore : OffsetSystem T χ) where
  carries := Bridge.carries_new config newInMemoryMessageStore
  inStep :=
    { plain := fun _ inside => absurd inside List.not_mem_nil
      has := fun _ inside => absurd inside List.not_mem_nil
      timestamp := fun _ _ found => absurd found (by simp [Bridge.newProcessorBridge])
      result := fun _ inside => absurd inside List.not_mem_nil }
  logged _ := ⟨[], rfl, fun _ _ => rfl⟩
  configured := rfl

theorem offsets_agree_of_timed {config : ProcessorConfig} (off : config.enableCompression = false)
    {compress : List UInt8 → Except χ Bytes} {labels : List (OffsetLabel T)} {s : OffsetSystem T χ}
    (ran : ((machine config compress).restrict (Timed config)).run
      (Bridge.newProcessorBridge newInMemoryMessageStore) labels = some s) : OffsetsAgree s :=
  have orderly : Orderly config s :=
    ((machine config compress).restrict (Timed config)).run_invariant
    (fun _ _ _ orderly stepped =>
      have ⟨timed, step⟩ := (Machine.restrict_next _).mp stepped
      orderly.next off timed step)
    (orderly_new config) ran
  orderly.agree

def sendTimed (msgs : List PortaskMessage) : List (OffsetLabel Unit) :=
  .createTopic (ascii "t") 1 ::
    msgs.flatMap (fun msg =>
      [.bridge (.process () msg ⟨false, .answered 0⟩), .bridge (.write () (fun _ _ => ()))]) ++
    [.bridge (.writer (.timer (fun _ _ => ())))]

def stamped (partition : Int32) (timestamp : Int) (value : UInt8) : PortaskMessage where
  topic := ascii "t"
  partition := partition
  payload := some [value]
  timestamp := timestamp

/-- Where the calls sent their messages, and the offsets they returned. -/
def returns (s : OffsetSystem T χ) : List (GoString × Int32 × Option Int) :=
  s.calls.map (fun c => (c.message.topic, c.message.partition, c.result.toOption))

theorem offsets_agree_of_timed_two :
    ∃ s : OffsetSystem Unit Unit,
      ((machine Bridge.uncompressed Bridge.noCompressor).restrict (Timed Bridge.uncompressed)).run
          (Bridge.newProcessorBridge newInMemoryMessageStore) (sendTimed [stamped 0 0 5, stamped 0 1 6]) = some s ∧
        returns s = [(ascii "t", 0, some 0), (ascii "t", 0, some 1)] ∧
        s.writer.store.partitionOf (ascii "t") 0 = [⟨0, [], some [5]⟩, ⟨1, [], some [6]⟩] ∧ OffsetsAgree s := by
  refine exists_of_view (fun s => (returns s, s.writer.store.partitionOf (ascii "t") 0))
    ([(ascii "t", 0, some 0), (ascii "t", 0, some 1)], [⟨0, [], some [5]⟩, ⟨1, [], some [6]⟩])
      (by decide +kernel)
    fun s ran found => ?_
  obtain ⟨returned, stored⟩ := Prod.mk.inj found
  exact ⟨returned, stored, offsets_agree_of_timed rfl ran⟩

omit [DecidableEq T] in
theorem call_of_returns {s : OffsetSystem T χ} {k : Nat}
    (found : (returns s)[k]? = some (topic, partition, some offset)) :
    ∃ c, s.calls[k]? = some c ∧ c.message.topic = topic ∧ c.message.partition = partition ∧
      c.result = .ok offset := by
  rw [returns, List.getElem?_map] at found
  obtain ⟨c, called, same⟩ := Option.map_eq_some_iff.mp found
  simp only [Prod.mk.injEq] at same
  obtain ⟨rfl, rfl, returned⟩ := same
  refine ⟨c, called, rfl, rfl, ?_⟩
  cases result : c.result with
  | ok o => simpa [result, Except.toOption] using returned
  | error err => simp [result, Except.toOption] at returned

/-- A fetch at the offset that was returned finds nothing, neither for a timestamp that is not
    the next offset nor for a partition other than 0; and two calls return one offset. -/
theorem not_offsets_agree :
    (∃ s : OffsetSystem Unit Unit,
      (machine Bridge.uncompressed Bridge.noCompressor).run
      (Bridge.newProcessorBridge newInMemoryMessageStore)
          (sendTimed [stamped 0 7 5, stamped 0 7 6]) = some s ∧
        returns s = [(ascii "t", 0, some 7), (ascii "t", 0, some 7)] ∧
        (fetchMessages s.writer.store ⟨ascii "t", 0, 7, 10⟩).bind
        (fun r => r.toOption.map List.length) = some 0 ∧
        ¬ OffsetsAgree s) ∧
    (∃ s : OffsetSystem Unit Unit,
      (machine Bridge.uncompressed Bridge.noCompressor).run
      (Bridge.newProcessorBridge newInMemoryMessageStore) (sendTimed [stamped 3 0 5]) = some s ∧
        returns s = [(ascii "t", 3, some 0)] ∧
        (fetchMessages s.writer.store ⟨ascii "t", 3, 0, 10⟩).bind
        (fun r => r.toOption.map List.length) = some 0 ∧
        ¬ OffsetsAgree s) := by
  constructor
  · refine exists_of_view (fun s => (returns s,
        (fetchMessages s.writer.store ⟨ascii "t", 0, 7, 10⟩).bind fun r => r.toOption.map List.length))
      ([(ascii "t", 0, some 7), (ascii "t", 0, some 7)], some 0) (by decide +kernel) fun s ran found => ?_
    obtain ⟨returned, nothing⟩ := Prod.mk.inj found
    refine ⟨returned, nothing, fun agree => ?_⟩
    obtain ⟨a, first, topic, partition, result⟩ := call_of_returns (k := 0) (by rw [returned]; rfl)
    obtain ⟨b, second, topic', partition', result'⟩ :=
      call_of_returns (k := 1) (by rw [returned]; rfl)
    have increases :=
      agree.increasing 0 1 a b 7 7 (by decide) first second (topic.trans topic'.symm)
      (partition.trans partition'.symm) result result'
    exact absurd increases (by decide)
  · refine exists_of_view (fun s => (returns s, s.writer.writer.buffer.contents.length,
        (fetchMessages s.writer.store ⟨ascii "t", 3, 0, 10⟩).bind fun r => r.toOption.map List.length))
      ([(ascii "t", 3, some 0)], 0, some 0) (by decide +kernel) fun s ran found => ?_
    simp only [Prod.mk.injEq] at found
    obtain ⟨returned, buffered, nothing⟩ := found
    have calls : s.calls.length = 1 := by simpa [returns] using congrArg List.length returned
    refine ⟨returned, nothing, fun agree => ?_⟩
    obtain ⟨c, called, topic, partition, result⟩ := call_of_returns (k := 0) (by rw [returned]; rfl)
    obtain ⟨rest, found⟩ :=
      agree.first 0 c 0 called result (by rw [Flushed, buffered, calls]; decide) 10
    rw [topic, partition] at found
    rw [found] at nothing
    simp [Except.toOption] at nothing

end OffsetSystem

end Portask.Kafka
