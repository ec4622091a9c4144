import Portask.Kafka.TopicLayout

/-! # Fetch requests

The store may answer each partition of a fetch request with messages or with an error. The
response has the topics and partitions of the request, the messages of the store in order
where there are any, and an empty record set with an error code where the store failed. The
messages pass through the form that the bridge gives them, where a null key becomes empty.
-/

namespace Portask.Kafka.Protocol

open Lib Portask.Types Lib.Handler Codec

structure FetchEntry where
  partition : Int32
  fetchOffset : Int64
  maxBytes : Int32

structure FetchBody where
  replicaId : Int32
  maxWaitTime : Int32
  minBytes : Int32
  maxBytes : Int32
  topics : List (GoString × List FetchEntry)

structure FetchedPartition where
  partition : Int32
  errorCode : Int16
  highWatermark : Int64
  lastStableOffset : Int64
  logStartOffset : Int64
  abortedTransactions : Int32
  records : List Message

open FetchedPartition

structure FetchResponse where
  throttleTime : Int32
  topics : List (GoString × List FetchedPartition)

def fetchEntry : Codec FetchEntry :=
  (pair (.fixed int32) (.pair (.fixed int64) (.fixed int32))).iso
    (fun p => ⟨p.1, p.2.1, p.2.2⟩) (fun e => (e.partition, e.fetchOffset, e.maxBytes)) fun _ => rfl

theorem encode_fetchEntry (entry : FetchEntry) (rest : List UInt8) :
    fetchEntry.encode entry ++ rest = int32.encode entry.partition ++
      (int64.encode entry.fetchOffset ++ (int32.encode entry.maxBytes ++ rest)) := by
  simp [fetchEntry]

/-- The limit for the whole response is sent from version 3 on. -/
def FetchBody.encode (apiVersion : Int16) (body : FetchBody) : List UInt8 :=
  int32.encode body.replicaId ++ (int32.encode body.maxWaitTime ++ (int32.encode body.minBytes ++
    ((if apiVersion ≥ 3 then int32.encode body.maxBytes else []) ++
      (topicsOf fetchEntry).encode body.topics)))

def record : Codec Message :=
  (pair (.fixed int64) (.pair (.block length32) (.block length32))).iso
    (fun p => ⟨p.1, p.2.1, p.2.2⟩) (fun m => (m.offset, m.key, m.value)) fun _ => rfl

theorem fieldBytes_eq_encode (data : Bytes) : fieldBytes data = (block length32).encode data := by
  cases data with
  | none | some => rfl

theorem recordBytes_eq_encode (m : Message) : recordBytes m = record.encode m := by
  rw [record, encode_iso, encode_pair, encode_pair, encode_fixed, recordBytes,
    fieldBytes_eq_encode, fieldBytes_eq_encode, List.append_assoc]

/-- The bytes of a message that a client reads, where null is read as empty. -/
def Message.read (m : Message) : Int64 × List UInt8 × List UInt8 :=
  (m.offset, m.key.getD [], m.value.getD [])

theorem length_fieldBytes (data : Bytes) :
    (fieldBytes data).length = 4 + (data.getD []).length := by
  cases data with
  | none => rfl
  | some l => rw [fieldBytes, List.length_append, Fixed.length_encode]; rfl

theorem length_recordBytes (m : Message) :
    (recordBytes m).length = 16 + m.read.2.1.length + m.read.2.2.length := by
  have eight : int64.width = 8 := rfl
  rw [recordBytes, List.length_append, List.length_append, Fixed.length_encode, length_fieldBytes,
    length_fieldBytes, eight]
  dsimp only [Message.read]
  omega

theorem record_filled (m : Message) : record.encode m ≠ [] := by
  rw [← recordBytes_eq_encode, ← List.length_pos_iff, length_recordBytes]
  omega

def fetchedPartition : Codec FetchedPartition :=
  (pair (.fixed int32)
    (.pair (.fixed int16) (.pair (.fixed int64) (.pair (.fixed int64) (.pair (.fixed int64)
    (.pair (.fixed int32) (.packed length32 record record_filled))))))).iso
    (fun p => ⟨p.1, p.2.1, p.2.2.1, p.2.2.2.1, p.2.2.2.2.1, p.2.2.2.2.2.1, p.2.2.2.2.2.2⟩)
    (fun r => (r.partition, r.errorCode, r.highWatermark, r.lastStableOffset, r.logStartOffset,
      r.abortedTransactions, r.records)) fun _ => rfl

def fetchResponse : Codec FetchResponse :=
  (pair (.fixed int32) (topicsOf fetchedPartition)).iso
    (fun p => ⟨p.1, p.2⟩) (fun r => (r.throttleTime, r.topics)) fun _ => rfl

def FetchBody.partitions (body : FetchBody) : List (GoString × List Int32) :=
  body.topics.map fun topic => (topic.1, topic.2.map FetchEntry.partition)

/-- What the store is asked for, in the order of the request. -/
def FetchBody.entries (body : FetchBody) : List (GoString × FetchEntry) :=
  body.topics.flatMap fun topic => topic.2.map fun entry => (topic.1, entry)

def FetchResponse.partitions (response : FetchResponse) : List (GoString × List Int32) :=
  response.topics.map fun topic => (topic.1, topic.2.map partition)

def FetchedPartition.result (entry : FetchedPartition) :
    Int16 × List (Int64 × List UInt8 × List UInt8) :=
  (entry.errorCode, entry.records.map Message.read)

def FetchResponse.results (response : FetchResponse) :
    List (Int16 × List (Int64 × List UInt8 × List UInt8)) :=
  response.topics.flatMap fun topic => topic.2.map result

section

variable {σ ε β : Type}

/-- What a store returns for a topic, a partition, an offset and a limit of bytes. -/
abbrev Answering (σ ε : Type) := σ → GoString → Int32 → Int64 → Int32 → σ × Except ε (List Message)

/-- The limit that the store gets, which has gone through a number of messages. -/
def storeLimit (maxBytes : Int32) : Int32 :=
  Int32.ofInt ((if maxBytes.toInt.tdiv 1024 ≤ 0 then 100 else maxBytes.toInt.tdiv 1024) * 1024)

def asking (answer : Answering σ ε) :
    Object σ (GoString × FetchEntry) (Except ε (List Message)) where
  apply s ask := answer s ask.1 ask.2.partition ask.2.fetchOffset (storeLimit ask.2.maxBytes)

def told : Except ε (List Message) → Int16 × List (Int64 × List UInt8 × List UInt8)
  | .ok messages => (noError, messages.map Message.read)
  | .error _ => (unknownTopicOrPartition, [])

/-- A message after the bridge and back. -/
def bridged (m : Message) : Message := { m with key := some (m.key.getD []) }

theorem ofPortask_toPortask (req : Types.FetchRequest) (m : Message) :
    ofPortask (toPortask req m) = bridged m := by
  rw [ofPortask, toPortask, bridged, Int64.ofInt_toInt]

/-- An entry for a topic without a name is refused before the store is asked. -/
def fetched (answer : Answering σ ε) (topic : GoString) (entry : FetchEntry) (s : Broker σ β) :
    Broker σ β × Option (List Message) :=
  if topic = [] then (s, none)
  else
    let answered := (asking answer).apply s.store (topic, entry)
    ({ s with store := answered.1 }, answered.2.toOption.map fun messages => messages.map bridged)

def respondFetched (partition : Int32) : Option (List Message) → FetchedPartition
  | none => ⟨partition, unknownTopicOrPartition, -1, -1, -1, 0, []⟩
  | some messages => ⟨partition, noError, 1000, -1, 0, 0, messages⟩

def fetching (answer : Answering σ ε) (topic : GoString) :
    Object (Broker σ β) FetchEntry FetchedPartition where
  apply s entry := ((fetched answer topic entry s).1, respondFetched entry.partition (fetched answer topic entry s).2)

theorem fetchedBytes_eq_encode (partition : Int32) (messages : Option (List Message)) :
    fetchedBytes partition messages =
      fetchedPartition.encode (respondFetched partition messages) := by
  have records : recordBytes = record.encode := funext recordBytes_eq_encode
  rw [fetchedPartition, encode_iso]
  cases messages with
  | none =>
    simp only [fetchedBytes, respondFetched, encode_pair, encode_fixed, encode_packed,
      List.append_assoc, List.flatMap_nil, List.length_nil, List.append_nil]
    rfl
  | some messages =>
    simp only [fetchedBytes, respondFetched, encode_pair, encode_fixed, encode_packed,
      List.append_assoc, records]
    rfl

/-- The store of the surroundings gives the answers, and never panics. -/
def Answers (env : Surroundings σ ε β) (answer : Answering σ ε) : Prop :=
  ∀ s topic partition offset maxBytes, env.store.consumeMessages s topic partition offset maxBytes =
    ((answer s topic partition offset maxBytes).1,
      some (answer s topic partition offset maxBytes).2)

variable {env : Surroundings σ ε β} {answer : Answering σ ε}

theorem run_fetch (answers : Answers env answer) (topic : GoString) (entry : FetchEntry)
    (bs out : List UInt8)
    (s : Broker σ β) :
    fetch env topic entry.partition entry.fetchOffset entry.maxBytes ⟨bs, out, s⟩ =
      (some (fetched answer topic entry s).2, ⟨bs, out, (fetched answer topic entry s).1⟩) := by
  by_cases named : topic = []
  · rw [fetch, translateFetch, if_pos named, fetched, if_pos named]
    rfl
  · have asked :=
      answers s.store topic entry.partition entry.fetchOffset (storeLimit entry.maxBytes)
    rw [storeLimit] at asked
    rw [fetch, translateFetch, if_neg named, fetched, if_neg named]
    simp only [run_bind, run_act, Option.elim_some, fetchMessages, Int64.ofInt_toInt, asked,
      asking, storeLimit, Option.map_some]
    cases (answer s.store topic entry.partition entry.fetchOffset _).2 with
    | error err => rfl
    | ok messages =>
      simp only [Except.map, Except.toOption, Option.map_some, List.map_map, Function.comp_def,
        ofPortask_toPortask]
      rfl

theorem fetchPartition_serves (answers : Answers env answer) (topic : GoString) :
    Serves fetchEntry fetchedPartition (fetching answer topic) (fetchPartition env topic) := by
  intro entry _ rest out s
  rw [encode_fetchEntry, fetchPartition, bind_of_run (run_readInt32 ..),
    bind_of_run (run_readInt64 ..),
    bind_of_run (run_readInt32 ..), bind_of_run (run_fetch answers topic entry ..), run_write,
      fetchedBytes_eq_encode, fetching]

section

variable (answer : Answering σ ε)

theorem respondFetched_result {topic : GoString} (named : topic ≠ []) (entry : FetchEntry)
    (s : Broker σ β) :
    ((fetching answer topic).apply s entry).2.result =
      told ((asking answer).apply s.store (topic, entry)).2 := by
  simp only [fetching, fetched, if_neg named]
  cases ((asking answer).apply s.store (topic, entry)).2 with
  | error err => rfl
  | ok messages =>
    simp only [Except.toOption, Option.map_some, respondFetched, result, told, List.map_map,
      Function.comp_def]
    rfl

theorem fetching_asks {topic : GoString} (named : topic ≠ []) (entries : List FetchEntry)
    (s : Broker σ β) :
    ((fetching answer topic).run s entries).1.store =
        ((asking answer).run s.store (entries.map fun entry => (topic, entry))).1 ∧
      ((fetching answer topic).run s entries).2.map result =
        ((asking answer).run s.store (entries.map fun entry => (topic, entry))).2.map told := by
  induction entries generalizing s with
  | nil => exact ⟨rfl, rfl⟩
  | cons entry entries ih =>
    have store : ((fetching answer topic).apply s entry).1.store =
        ((asking answer).apply s.store (topic, entry)).1 := by simp only [fetching, fetched, if_neg named]
    obtain ⟨final, results⟩ := ih ((fetching answer topic).apply s entry).1
    rw [store] at final results
    simp only [List.map_cons, Object.run_cons]
    exact ⟨final, congrArg₂ List.cons (respondFetched_result answer named entry s) results⟩

theorem topics_asks {topics : List (GoString × List FetchEntry)}
    (named : ∀ topic ∈ topics, topic.1 ≠ []) (s : Broker σ β) :
    ((servingTopics (fetching answer)).run s topics).2.flatMap (fun topic => topic.2.map result) =
      ((asking answer).run s.store (topics.flatMap fun topic =>
        topic.2.map fun entry => (topic.1, entry))).2.map told := by
  induction topics generalizing s with
  | nil => rfl
  | cons topic topics ih =>
    obtain ⟨store, results⟩ := fetching_asks answer (named topic List.mem_cons_self) topic.2 s
    have later := ih (fun t inside => named t (List.mem_cons_of_mem _ inside)) ((fetching answer topic.1).run s topic.2).1
    rw [store] at later
    simp only [List.flatMap_cons, Object.run_cons, Object.answers_append, List.map_append]
    exact congrArg₂ _ results later

end

theorem respondFetched_partition (partition : Int32) (messages : Option (List Message)) :
    (respondFetched partition messages).partition = partition := by
  cases messages with
  | none | some => rfl

/-- The encoding of messages has a length that the client can tell from what it reads. -/
theorem length_records (messages : List Message) :
    (messages.flatMap recordBytes).length =
      ((messages.map Message.read).map fun m => 16 + m.2.1.length + m.2.2.length).sum := by
  rw [List.length_flatMap, List.map_map]
  exact congrArg List.sum (List.map_congr_left fun m _ => length_recordBytes m)

theorem record_valid {messages : List Message}
    (small : (messages.flatMap recordBytes).length < length32.limit)
    (inside : m ∈ messages) : record.Valid m := by
  have part : (recordBytes m).length ≤ (messages.flatMap recordBytes).length :=
    (List.sublist_flatten_of_mem (List.mem_map_of_mem inside)).length_le
  rw [length_recordBytes, Message.read] at part
  dsimp only at part
  refine ⟨trivial, fun l given => ?_, fun l given => ?_⟩
  · have key : m.key = some l := given
    rw [key, Option.getD_some] at part
    omega
  · have value : m.value = some l := given
    rw [value, Option.getD_some] at part
    omega

/-- The messages take less than 2 GiB on the wire. -/
def Sendable : Except ε (List Message) → Prop
  | .ok messages => (messages.flatMap recordBytes).length < 2 ^ 31
  | .error _ => True

theorem fetchedPartition_valid {answer : Except ε (List Message)} (sendable : Sendable answer)
    (result : told answer = r.result) : fetchedPartition.Valid r := by
  have small : (r.records.flatMap recordBytes).length < length32.limit := by
    rw [length_records, ← show (told answer).2 =
      r.records.map Message.read from congrArg Prod.snd result]
    cases answer with
    | error err => exact Nat.two_pow_pos 31
    | ok messages =>
      rw [told, ← length_records]
      exact sendable
  have records : recordBytes = record.encode := funext recordBytes_eq_encode
  exact ⟨trivial, trivial, trivial, trivial, trivial, trivial, records ▸ small, fun m inside =>
    record_valid small inside⟩

theorem run_readMaxBytes (apiVersion : Int16) (maxBytes : Int32) (rest out : List UInt8)
    (s : Broker σ β) :
    ∃ read, readMaxBytes apiVersion ⟨(if apiVersion ≥ 3 then int32.encode maxBytes else []) ++
      rest, out, s⟩ = (some read, ⟨rest, out, s⟩) := by
  by_cases sent : apiVersion ≥ 3
  · refine ⟨maxBytes, ?_⟩
    rw [readMaxBytes, if_pos sent, if_pos sent, run_reading, Fixed.read_encode]
  · refine ⟨1024 * 1024, ?_⟩
    rw [readMaxBytes, if_neg sent, if_neg sent, List.nil_append, run_pure]

theorem run_handleFetch (answers : Answers env answer) (apiVersion : Int16) {body : FetchBody}
    (valid : (topicsOf fetchEntry).Valid body.topics) (s : Broker σ β) :
    handleFetch env apiVersion ⟨body.encode apiVersion, [], s⟩ =
      (some (), ⟨[], fetchResponse.encode ⟨0, ((servingTopics (fetching answer)).run s body.topics).2⟩,
        ((servingTopics (fetching answer)).run s body.topics).1⟩) := by
  have served :=
    (Serves.forPartitions (fetchPartition_serves answers)).forTopics body.topics valid [] [] s
  rw [List.append_nil] at served
  obtain ⟨read, maxBytes⟩ :=
    run_readMaxBytes apiVersion body.maxBytes ((topicsOf fetchEntry).encode body.topics) [] s
  rw [FetchBody.encode, handleFetch, bind_of_run (run_readInt32 ..), bind_of_run (run_readInt32 ..),
    bind_of_run (run_readInt32 ..), bind_of_run maxBytes]
  exact served

theorem fetch_round_trip {env : Surroundings σ ε β} {answer : Answering σ ε}
    (answers : Answers env answer)
    (apiVersion : Int16) (s : Broker σ β) {body : FetchBody}
    (valid : (topicsOf fetchEntry).Valid body.topics) (named : ∀ topic ∈ body.topics, topic.1 ≠ [])
    (sendable : ∀ answered ∈ ((asking answer).run s.store body.entries).2, Sendable answered) :
    ∃ bytes response, ((handleFetch env apiVersion).respond s (body.encode apiVersion)).2 =
      some bytes ∧ fetchResponse.decode bytes = some (response, []) ∧
      response.partitions = body.partitions ∧
      response.results = ((asking answer).run s.store body.entries).2.map told := by
  have results := topics_asks answer named s
  have partitions : ((servingTopics (fetching answer)).run s body.topics).2.map
      (fun topic => (topic.1, topic.2.map partition)) = body.partitions :=
    servingTopics_map (fun _ _ _ => respondFetched_partition ..) s body.topics
  have fits : (topicsOf fetchedPartition).Valid ((servingTopics (fetching answer)).run s body.topics).2 := by
    refine servingTopics_valid (fetching answer) s valid fun topic inside r among => ?_
    obtain ⟨answered, asked, result⟩ :
        ∃ answered ∈ ((asking answer).run s.store body.entries).2, told answered = r.result := by
      rw [← List.mem_map, FetchBody.entries, ← results]
      exact List.mem_flatMap.mpr ⟨topic, inside, List.mem_map_of_mem among⟩
    exact fetchedPartition_valid (sendable answered asked) result
  refine ⟨_, ⟨0, _⟩, ?_, fetchResponse.decode_whole ⟨trivial, fits⟩, partitions, results⟩
  rw [respond, run_handleFetch answers apiVersion valid s, Option.map_some]

end

/-- A store with one message in the first partition of every topic, and a count of the questions. -/
def oneMessage : Answering Nat Unit := fun n _ partition _ _ =>
  (n + 1, if partition = 0 then .ok [⟨-5, none, some [7, 8]⟩] else .error ())

def oneMessageStored : Surroundings Nat Unit Unit where
  store :=
    ⟨fun n topic partition offset maxBytes => ((oneMessage n topic partition offset maxBytes).1,
      some (oneMessage n topic partition offset maxBytes).2),
    fun n _ => (n, .error ()), fun n _ _ _ => (n, .error ()), fun n _ => (n, .error ())⟩
  pooled _ := {}
  kafkaID _ := 0
  bridge _ _ := .error ()
  clock _ := 0

theorem stored_and_missing_partitions_are_answered :
    ∃ bytes response, ((handleFetch oneMessageStored 3).respond ⟨0, none, none, [], 0⟩
        (FetchBody.encode 3 ⟨-1, 100, 1, 4096,
          [([1], [⟨0, -2, 0⟩, ⟨1, 0, 5000⟩]), ([2], [⟨0, 9, -1⟩])]⟩)).2 = some bytes ∧
      fetchResponse.decode bytes = some (response, []) ∧
      response.partitions = [([1], [0, 1]), ([2], [0])] ∧
      response.results = [(0, [(-5, [], [7, 8])]), (3, []), (0, [(-5, [], [7, 8])])] :=
  fetch_round_trip (show Answers oneMessageStored oneMessage from fun _ _ _ _ _ => rfl) 3
    ⟨0, none, none, [], 0⟩
    (by simp [topicsOf, fetchEntry]) (by decide)
    (by
      change ∀ answered ∈ [.ok [⟨-5, none, some [7, 8]⟩], .error (), .ok [⟨-5, none, some [7, 8]⟩]],
        Sendable answered
      simp [Sendable, length_recordBytes, Message.read])

end Portask.Kafka.Protocol
