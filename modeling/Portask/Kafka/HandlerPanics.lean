import Portask.Kafka.MemoryTopics

/-! # Requests that make a handler panic

With the store in memory, a handler panics on three kinds of requests and no others: a produce
request in which a message set has a negative size, a fetch request with a negative offset for
a topic that exists, and a request to describe a negative number of groups. What a request has
is what the handlers read from it, also where its bytes run out.
-/

namespace Portask.Kafka.Protocol

open Lib Portask.Types Lib.Handler

variable {σ ε β α : Type} {body : GoString → Handler σ Unit} {entry : GoString → Reader α}

/-! ## What the handlers read -/

/-- The entries of a topic, as the loop over its partitions reads them. -/
def readPartitions (entry : GoString → Reader α) : Reader (List α) := fun bs =>
  let topic := readString bs
  let partitionCount := int32.read 0 topic.2
  readMany (entry topic.1) (rounds partitionCount.1) partitionCount.2

/-- The entries of all topics, as the loop over the topics reads them. -/
def readTopics (entry : GoString → Reader α) : Reader (List (List α)) := fun bs =>
  let topicCount := int32.read 0 bs
  readMany (readPartitions entry) (rounds topicCount.1) topicCount.2

/-- The size of a message set, which is skipped. -/
def readSize : Reader Int32 := fun bs =>
  let messageSetSize := int32.read 0 (int32.read 0 bs).2
  (messageSetSize.1, messageSetSize.2.drop (rounds messageSetSize.1))

def readProduceSizes (bs : List UInt8) : List Int32 :=
  (readTopics (fun _ => readSize) (int32.read 0 (int16.read 0 bs).2).2).1.flatten

/-- The topic and the offset that are asked for. -/
def readAsked (topic : GoString) : Reader (GoString × Int64) := fun bs =>
  let fetchOffset := int64.read 0 (int32.read 0 bs).2
  ((topic, fetchOffset.1), (int32.read 0 fetchOffset.2).2)

def skipMaxBytes (apiVersion : Int16) (bs : List UInt8) : List UInt8 :=
  if apiVersion ≥ 3 then (int32.read (1024 * 1024) bs).2 else bs

def readFetchOffsets (apiVersion : Int16) (bs : List UInt8) : List (GoString × Int64) :=
  (readTopics readAsked
    (skipMaxBytes apiVersion (int32.read 0 (int32.read 0 (int32.read 0 bs).2).2).2)).1.flatten

/-- The requests on which a handler panics. -/
def Crashes (store : InMemoryMessageStore) (apiVersion : Int16) (body : List UInt8) : API → Prop
  | .produce => ∃ size ∈ readProduceSizes body, size < 0
  | .fetch =>
    ∃ asked ∈ readFetchOffsets apiVersion body, asked.1 ≠ [] ∧ store.Has asked.1 ∧ asked.2 < 0
  | .describeGroups => (int32.read 0 body).1 < 0
  | _ => False

/-! ## The loops -/

theorem Guards.forPartitions (guards : ∀ topic, Guards (body topic) (entry topic) bad keeps) :
    Guards (Protocol.forPartitions body) (readPartitions entry) (fun l => ∃ a ∈ l, bad a) keeps :=
  .reading fun topic =>
    .write _ (.reading fun count => .write _ ((guards topic).times (rounds count)))

theorem Guards.forTopics (guards : ∀ topic, Guards (body topic) (entry topic) bad keeps) :
    Guards (Protocol.forTopics (Protocol.forPartitions body)) (readTopics entry)
    (fun l => ∃ a ∈ l.flatten, bad a) keeps := by
  have loop : Guards (Protocol.forTopics (Protocol.forPartitions body)) (readTopics entry)
      (fun l => ∃ e ∈ l, ∃ a ∈ e, bad a) keeps :=
    .reading fun count => .write _ (.write _ ((Guards.forPartitions guards).times (rounds count)))
  have same (l : List (List α)) : (∃ a ∈ l.flatten, bad a) ↔ ∃ e ∈ l, ∃ a ∈ e, bad a := by
    constructor
    · rintro ⟨a, inside, wrong⟩
      obtain ⟨e, among, within⟩ := List.mem_flatten.mp inside
      exact ⟨e, among, a, within, wrong⟩
    · rintro ⟨e, among, a, within, wrong⟩
      exact ⟨a, List.mem_flatten.mpr ⟨e, among, within⟩, wrong⟩
  simpa only [same] using loop

/-! ## Produce -/

theorem producePartition_guards (env : Surroundings σ ε β) (topic : GoString) :
    Guards (producePartition env topic) readSize (· < 0) fun _ => True := by
  intro bs out s _
  simp only [producePartition, readMessageSet, readInt32, run_bind, run_reading,
    Option.elim_some, readSize]
  by_cases negative : (int32.read 0 (int32.read 0 bs).2).1 < 0
  · exact .inl ⟨negative, by simp [negative]⟩
  · rw [if_neg negative, run_reading, Option.elim_some, run_act, Option.elim_some, run_write]
    exact .inr ⟨negative, _, _, rfl, trivial⟩

theorem handleProduce_panics {env : Surroundings σ ε β} {s body} :
    (handleProduce env ⟨body, [], s⟩).1 = none ↔ ∃ size ∈ readProduceSizes body, size < 0 := by
  have guards : Guards (handleProduce env)
    (fun bs => readTopics (fun _ => readSize) (int32.read 0 (int16.read 0 bs).2).2)
      (fun l => ∃ size ∈ l.flatten, size < 0) fun _ => True :=
    .reading fun _ => .reading fun _ => Guards.forTopics (producePartition_guards env)
  exact guards.panics_iff trivial

/-! ## Fetch -/

section Fetch

variable {order : (Int32 → Option (List KafkaMessage)) → List Int32}
  {env : Surroundings InMemoryMessageStore InMemoryError β}

/-- The question goes to the store only for a topic with a name, and panics there for a negative
    offset. The store stays as it is. -/
theorem fetch_cases (inMemory : env.store = inMemoryStore order) (topic : GoString)
    (partition : Int32)
    (fetchOffset : Int64) (maxBytes : Int32) (bs out : List UInt8)
    (s : Broker InMemoryMessageStore β) : ((topic ≠ [] ∧ s.store.Has topic ∧ fetchOffset < 0) ∧
        (fetch env topic partition fetchOffset maxBytes ⟨bs, out, s⟩).1 = none) ∨
      (¬ (topic ≠ [] ∧ s.store.Has topic ∧ fetchOffset < 0) ∧
        ∃ answer, fetch env topic partition fetchOffset maxBytes ⟨bs, out, s⟩ = (some answer, ⟨bs, out, s⟩)) := by
  by_cases named : topic = []
  · refine .inr ⟨fun wrong => wrong.1 named, none, ?_⟩
    rw [fetch, translateFetch, if_pos named]
    rfl
  · rw [fetch, translateFetch, if_neg named]
    simp only [run_bind, run_act, Option.elim_some, fetchMessages, inMemory, inMemoryStore,
      Int64.ofInt_toInt]
    generalize Int32.ofInt _ = limit
    cases answer : s.store.consumeMessages topic partition fetchOffset.toInt limit with
    | none =>
      obtain ⟨has, negative⟩ := InMemoryMessageStore.consumeMessages_eq_none.mp answer
      exact .inl ⟨⟨named, has, Int64.lt_iff_toInt_lt.mpr negative⟩, rfl⟩
    | some result =>
      refine .inr ⟨?_, _, rfl⟩
      rintro ⟨-, has, negative⟩
      have panics : s.store.consumeMessages topic partition fetchOffset.toInt limit = none :=
        InMemoryMessageStore.consumeMessages_eq_none.mpr ⟨has, Int64.lt_iff_toInt_lt.mp negative⟩
      cases answer.symm.trans panics

theorem fetchPartition_guards (inMemory : env.store = inMemoryStore order)
    (store : InMemoryMessageStore) (topic : GoString) :
    Guards (fetchPartition env topic) (readAsked topic)
    (fun asked => asked.1 ≠ [] ∧ store.Has asked.1 ∧ asked.2 < 0) fun s => s.store = store := by
  rintro bs out s rfl
  simp only [fetchPartition, readInt32, readInt64, run_bind, run_reading,
    Option.elim_some, readAsked]
  obtain ⟨wrong, panics⟩ | ⟨fine, answer, ran⟩ := fetch_cases inMemory topic (int32.read 0 bs).1
    (int64.read 0 (int32.read 0 bs).2).1 (int32.read 0 (int64.read 0 (int32.read 0 bs).2).2).1
    (int32.read 0 (int64.read 0 (int32.read 0 bs).2).2).2 out s
  · exact .inl ⟨wrong, by rw [panics, Option.elim_none]⟩
  · exact .inr ⟨fine, _, s, by rw [ran, Option.elim_some, run_write], rfl⟩

theorem Guards.readMaxBytes {bad : α → Prop} {keeps : Broker σ β → Prop} (apiVersion : Int16)
    (guards : ∀ a, Guards (f a) r bad keeps) :
    Guards (Protocol.readMaxBytes apiVersion >>= f)
    (fun bs => r (skipMaxBytes apiVersion bs)) bad keeps := by
  intro bs out s kept
  dsimp only
  by_cases sent : apiVersion ≥ 3
  · rw [Protocol.readMaxBytes, if_pos sent, skipMaxBytes, if_pos sent]
    exact Guards.reading guards bs out s kept
  · rw [Protocol.readMaxBytes, if_neg sent, skipMaxBytes, if_neg sent, run_bind, run_pure]
    exact guards _ bs out s kept

theorem handleFetch_panics (inMemory : env.store = inMemoryStore order) {apiVersion s body} :
    (handleFetch env apiVersion ⟨body, [], s⟩).1 = none ↔
      ∃ asked ∈ readFetchOffsets apiVersion body, asked.1 ≠ [] ∧ s.store.Has asked.1 ∧ asked.2 < 0 := by
  have guards : Guards (handleFetch env apiVersion)
      (fun bs => readTopics readAsked
        (skipMaxBytes apiVersion (int32.read 0 (int32.read 0 (int32.read 0 bs).2).2).2))
      (fun l => ∃ asked ∈ l.flatten, asked.1 ≠ [] ∧ s.store.Has asked.1 ∧ asked.2 < 0) fun t =>
        t.store = s.store :=
    .reading fun _ => .reading fun _ => .reading fun _ =>
      Guards.readMaxBytes apiVersion fun _ => Guards.forTopics (fetchPartition_guards inMemory s.store)
  exact guards.panics_iff rfl

end Fetch

/-! ## The other handlers -/

theorem safe_writeTopicMetadata (metadata : Option TopicMetadata) :
    Safe (writeTopicMetadata metadata : Handler (Broker σ β) Unit) :=
  match metadata with
  | none => .write _
  | some _ => .bind (.write _) fun _ => .bind (.write _) fun _ => .bind (.write _) fun _ => .bind (.write _) fun _ =>
    .bind (.write _) fun _ => .write _

theorem safe_writeMetadata (metadata : Except ε (Option TopicMetadata)) :
    Safe (writeMetadata metadata : Handler (Broker σ β) Unit) :=
  match metadata with
  | .error _ => .bind (.write _) fun _ => .bind (.write _) fun _ => .bind (.write _) fun _ => .bind (.write _) fun _ =>
    .write _
  | .ok metadata => .bind (.write _) fun _ => .bind (.write _) fun _ => .bind (.write _) fun _ => .bind (.write _) fun _ =>
    .bind (.write _) fun _ =>
      .bind (.write _) fun _ => .bind (.write _) fun _ => .bind (.write _) fun _ =>
      safe_writeTopicMetadata metadata

theorem safe_writeJoined (joined : Option JoinGroupResponse) :
    Safe (writeJoined joined : Handler (Broker σ β) Unit) :=
  match joined with
  | none => .bind (.write _) fun _ => .bind (.write _) fun _ => .bind (.write _) fun _ => .bind (.write _) fun _ =>
    .bind (.write _) fun _ => .bind (.write _) fun _ => .write _
  | some _ => .bind (.write _) fun _ => .bind (.write _) fun _ => .bind (.write _) fun _ => .bind (.write _) fun _ =>
    .bind (.write _) fun _ => .bind (.write _) fun _ => .bind (.write _) fun _ => .write _

theorem safe_writeSynced (synced : Option (Except GroupError Bytes)) :
    Safe (writeSynced synced : Handler (Broker σ β) Unit) :=
  match synced with
  | none | some (.error _) | some (.ok _) =>
    .bind (.write _) fun _ => .bind (.write _) fun _ => .write _

theorem safe_writeBeaten (beaten : Option (Option GroupError)) :
    Safe (writeBeaten beaten : Handler (Broker σ β) Unit) :=
  match beaten with
  | none | some _ => .bind (.write _) fun _ => .write _

theorem safe_writeDescriptions (descriptions : Option (List (GoString × ConsumerGroup))) :
    Safe (writeDescriptions descriptions : Handler (Broker σ β) Unit) :=
  match descriptions with
  | none => .bind (.write _) fun _ => .write _
  | some _ => .bind (.write _) fun _ => .bind (.write _) fun _ => .write _

theorem safe_forTopics {entry : Handler σ Unit} (safe : Safe entry) : Safe (forTopics entry) :=
  .bind (.reading _) fun _ => .bind (.write _) fun _ => .bind (.write _) fun _ => safe.times _

theorem safe_readRequestedTopics :
    Safe (readRequestedTopics : Handler (Broker σ β) (List GoString)) := by
  refine .bind (.reading _) fun topicCount => ?_
  split
  · exact Safe.collect (.reading _) _
  · exact .pure _

section

variable (env : Surroundings σ ε β)

theorem safe_createOne : Safe (createOne env) :=
  .bind (.reading _) fun _ =>
    .bind (.reading _) fun _ => .bind (.reading _) fun _ => .bind (.reading _) fun _ =>
    .bind (.reading _) fun _ =>
      .bind (.act _) fun _ => .bind (.write _) fun _ => .bind (.write _) fun _ => .write _

theorem safe_deleteOne : Safe (deleteOne env) :=
  .bind (.reading _) fun _ => .bind (.act _) fun _ => .bind (.write _) fun _ => .write _

theorem safe_commitTopic (groupID : GoString) : Safe (commitTopic env groupID) :=
  .bind (.reading _) fun _ => .bind (.reading _) fun _ => Safe.times
    (.bind (.reading _) fun _ => .bind (.reading _) fun _ => .bind (.reading _) fun _ => .act _) _

end

theorem safe_fetchOffsets (groupID : GoString) :
    Safe (fetchOffsets groupID : Handler (Broker σ β) Unit) :=
  .bind (.reading _) fun _ => .bind (.reading _) fun _ =>
    .bind (.write _) fun _ => .bind (.write _) fun _ => Safe.times (.bind (.reading _) fun _ =>
      .bind (.act _) fun _ => .bind (.write _) fun _ => .bind (.write _) fun _ =>
      .bind (.write _) fun _ => .write _) _

theorem safe_handleOffsetCommit (env : Surroundings σ ε β) : Safe (handleOffsetCommit env) := by
  refine .bind (.reading _) fun groupID =>
    .bind (.reading _) fun _ => .bind (.reading _) fun topicCount =>
    .bind (.act _) fun present => ?_
  split
  · exact .bind ((safe_commitTopic env groupID).times _) fun _ =>
      .bind (.write _) fun _ => .bind (.write _) fun _ => .write _
  · exact .bind (.write _) fun _ => .write _

theorem safe_handleOffsetFetch : Safe (handleOffsetFetch : Handler (Broker σ β) Unit) := by
  refine .bind (.reading _) fun groupID =>
    .bind (.reading _) fun topicCount => .bind (.write _) fun _ =>
    .bind (.act _) fun present => ?_
  split
  · exact .bind (.write _) fun _ => .bind ((safe_fetchOffsets groupID).times _) fun _ => .write _
  · exact .bind (.write _) fun _ => .write _

section

variable (env : Surroundings σ ε β)

theorem safe_handleJoinGroup : Safe (handleJoinGroup env) :=
  .bind (.reading _) fun _ =>
    .bind (.reading _) fun _ => .bind (.reading _) fun _ => .bind (.reading _) fun _ =>
    .bind (.reading _) fun _ =>
      .bind (.act _) fun _ => .bind (.act _) fun _ => .bind (.act _) fun _ => safe_writeJoined _

theorem safe_handleSyncGroup : Safe (handleSyncGroup env) :=
  .bind (.reading _) fun _ =>
    .bind (.reading _) fun _ => .bind (.reading _) fun _ => .bind (.reading _) fun _ =>
    .bind (Safe.collect (.bind (.reading _) fun _ => .bind (.reading _) fun _ => .pure _) _)
      fun _ =>
      .bind (.act _) fun _ => .bind (.act _) fun _ => safe_writeSynced _

theorem safe_handleHeartbeat : Safe (handleHeartbeat env) :=
  .bind (.reading _) fun _ =>
    .bind (.reading _) fun _ => .bind (.reading _) fun _ => .bind (.act _) fun _ =>
    .bind (.act _) fun _ => safe_writeBeaten _

theorem safe_handleMetadata : Safe (handleMetadata env) :=
  .bind safe_readRequestedTopics fun _ => .bind (.act _) fun _ => safe_writeMetadata _

end

theorem handleDescribeGroups_panics {s : Broker σ β} {body} :
    (handleDescribeGroups ⟨body, [], s⟩).1 = none ↔ (int32.read 0 body).1 < 0 := by
  rw [handleDescribeGroups, readInt32, run_bind, run_reading, Option.elim_some]
  by_cases negative : (int32.read 0 body).1 < 0
  · rw [if_pos negative, run_crash]
    exact iff_of_true rfl negative
  · rw [if_neg negative]
    have safe : Safe (do
        let read ← collect (rounds (int32.read 0 body).1) readName
        let descriptions ← withGroups fun gc =>
          (gc, gc.describeGroups (List.replicate (rounds (int32.read 0 body).1) [] ++ read))
        writeDescriptions descriptions : Handler (Broker σ β) Unit) :=
      .bind (Safe.collect (.reading _) _) fun _ => .bind (.act _) fun _ => safe_writeDescriptions _
    exact iff_of_false (safe _) negative

/-! ## All requests -/

theorem dispatch_panics {order env} (inMemory : env.store = inMemoryStore order)
    (apiVersion : Int16) (api : API) (s : Broker InMemoryMessageStore β) (body : List UInt8) :
    (dispatch env apiVersion api ⟨body, [], s⟩).1 = none ↔ Crashes s.store apiVersion body api := by
  have safe {m : Handler (Broker InMemoryMessageStore β) Unit} (safe : Safe m) :
      (m ⟨body, [], s⟩).1 = none ↔ False :=
    iff_of_false (safe _) id
  cases api with
  | produce => exact handleProduce_panics
  | fetch => exact handleFetch_panics inMemory
  | describeGroups => exact handleDescribeGroups_panics
  | metadata => exact safe (safe_handleMetadata env)
  | createTopics => exact safe (safe_forTopics (safe_createOne env))
  | deleteTopics => exact safe (safe_forTopics (safe_deleteOne env))
  | offsetCommit => exact safe (safe_handleOffsetCommit env)
  | offsetFetch => exact safe safe_handleOffsetFetch
  | joinGroup => exact safe (safe_handleJoinGroup env)
  | syncGroup => exact safe (safe_handleSyncGroup env)
  | heartbeat => exact safe (safe_handleHeartbeat env)
  | listOffsets | addPartitionsToTxn | endTxn => exact safe (.bind (.write _) fun _ => .write _)
  | apiVersions | saslAuthenticate =>
    exact safe (.bind (.write _) fun _ =>
      .bind (.write _) fun _ => .bind (.write _) fun _ => .write _)
  | saslHandshake => exact safe (.bind (.write _) fun _ => .bind (.write _) fun _ => .write _)
  | findCoordinator =>
    exact safe (.bind (.reading _) fun _ =>
      .bind (.reading _) fun _ => .bind (.write _) fun _ => .bind (.write _) fun _ =>
      .bind (.write _) fun _ => .bind (.write _) fun _ => .bind (.write _) fun _ => .write _)
  | initProducerId =>
    exact safe (.bind (.reading _) fun _ =>
      .bind (.reading _) fun _ => .bind (.act _) fun _ => .bind (.write _) fun _ =>
      .bind (.write _) fun _ => .bind (.write _) fun _ => .write _)

theorem panics_iff_crashes {order : (Int32 → Option (List KafkaMessage)) → List Int32}
    {env : Surroundings InMemoryMessageStore InMemoryError β}
    (inMemory : env.store = inMemoryStore order)
    (s : Broker InMemoryMessageStore β) (request : KafkaRequest) :
    (handleRequest env s request).2 = none ↔
      ∃ api, API.ofKey request.header.apiKey = some api ∧
        Crashes s.store request.header.apiVersion request.body api := by
  rw [handleRequest]
  cases known : API.ofKey request.header.apiKey with
  | none =>
    have safe : Safe (createErrorResponse unsupportedVersion :
      Handler (Broker InMemoryMessageStore β) Unit) := .write _
    simpa [respond_eq_none] using safe _
  | some api => simp [respond_eq_none, dispatch_panics inMemory]

def oneTopic : Broker InMemoryMessageStore Unit :=
  ⟨InMemoryMessageStore.newInMemoryMessageStore.createTopic [116] 1, some newGroupCoordinator,
    some .new, [], 0⟩

/-- A produce request with a message set of two bytes, and a fetch request for the topic from its
    start. -/
theorem produce_and_fetch_entries_are_answered :
    (handleRequest started oneTopic ⟨⟨0, 0, 7, []⟩,
        [0, 1, 0, 0, 0, 0, 0, 0, 0, 1, 0, 1, 116, 0, 0, 0, 1, 0, 0, 0, 0, 0, 0, 0, 2, 8, 9]⟩).2 ≠ none ∧
      (handleRequest started oneTopic ⟨⟨1, 0, 7, []⟩,
        [0, 0, 0, 0, 0, 0, 0, 0, 0, 0, 0, 0, 0, 0, 0, 1, 0, 1, 116, 0, 0, 0, 1, 0, 0, 0, 0,
          0, 0, 0, 0, 0, 0, 0, 0, 0, 0, 4, 0]⟩).2 ≠ none := by
  rw [ne_eq, ne_eq, panics_iff_crashes rfl, panics_iff_crashes rfl]
  constructor
  · rintro ⟨api, known, crashes⟩
    obtain rfl : API.produce = api := Option.some.inj known
    exact absurd crashes (by unfold Crashes; decide +kernel)
  · rintro ⟨api, known, crashes⟩
    obtain rfl : API.fetch = api := Option.some.inj known
    exact absurd crashes (by unfold Crashes; decide +kernel)

/-- A size of -1 in a produce request, an offset of -1 for the topic in a fetch request, and -1
    groups to describe. -/
theorem requests_with_negative_numbers_panic :
    oneTopic.groupCoordinator.isSome ∧ oneTopic.offsetManager.isSome ∧
      (handleRequest started oneTopic ⟨⟨0, 0, 7, []⟩,
        [0, 1, 0, 0, 0, 0, 0, 0, 0, 1, 0, 1, 116, 0, 0, 0, 1, 0, 0, 0, 0, 255, 255, 255, 255]⟩).2 = none ∧
      (handleRequest started oneTopic ⟨⟨1, 0, 7, []⟩,
        [0, 0, 0, 0, 0, 0, 0, 0, 0, 0, 0, 0, 0, 0, 0, 1, 0, 1, 116, 0, 0, 0, 1, 0, 0, 0, 0,
          255, 255, 255, 255, 255, 255, 255, 255, 0, 0, 4, 0]⟩).2 = none ∧
      (handleRequest started oneTopic ⟨⟨15, 0, 7, []⟩, [255, 255, 255, 255]⟩).2 = none := by
  decide +kernel

end Portask.Kafka.Protocol
