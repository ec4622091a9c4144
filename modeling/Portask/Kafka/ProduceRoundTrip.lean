import Portask.Kafka.TopicLayout

/-! # Produce requests

A produce request that is encoded as the handler reads it leads to one call of the bridge for
each message set, in the order of the request, whatever the pool gives and the bridge answers.
The response has the topics and partitions of the request with what the calls returned.
-/

namespace Portask.Kafka.Protocol

open Lib Portask.Types Lib.Handler Codec

structure ProduceRequest where
  requiredAcks : Int16
  timeout : Int32
  topics : List (GoString × List (Int32 × List UInt8))

structure PartitionResponse where
  partition : Int32
  errorCode : Int16
  baseOffset : Int64
  logAppendTime : Int64
  logStartOffset : Int64
  deriving DecidableEq

structure ProduceResponse where
  throttleTime : Int32
  topics : List (GoString × List PartitionResponse)

def messageSet : Codec (Int32 × List UInt8) := .pair (.fixed int32) (.text length32)

def produceRequest : Codec ProduceRequest :=
  (pair (.fixed int16) (.pair (.fixed int32) (topicsOf messageSet))).iso
    (fun p => ⟨p.1, p.2.1, p.2.2⟩) (fun r => (r.requiredAcks, r.timeout, r.topics)) fun _ => rfl

def partitionResponse : Codec PartitionResponse :=
  (pair (.fixed int32)
    (.pair (.fixed int16) (.pair (.fixed int64) (.pair (.fixed int64) (.fixed int64))))).iso
    (fun p => ⟨p.1, p.2.1, p.2.2.1, p.2.2.2.1, p.2.2.2.2⟩)
    (fun r => (r.partition, r.errorCode, r.baseOffset, r.logAppendTime, r.logStartOffset))
      fun _ => rfl

def produceResponse : Codec ProduceResponse :=
  (pair (.fixed int32) (topicsOf partitionResponse)).iso
    (fun p => ⟨p.1, p.2⟩) (fun r => (r.throttleTime, r.topics)) fun _ => rfl

def ProduceRequest.messageSets (request : ProduceRequest) : List (GoString × Int32 × List UInt8) :=
  request.topics.flatMap fun topic => topic.2.map fun entry => (topic.1, entry.1, entry.2)

def ProduceRequest.partitions (request : ProduceRequest) : List (GoString × List Int32) :=
  request.topics.map fun topic => (topic.1, topic.2.map Prod.fst)

def ProduceResponse.partitions (response : ProduceResponse) : List (GoString × List Int32) :=
  response.topics.map fun topic => (topic.1, topic.2.map PartitionResponse.partition)

def ProduceResponse.results (response : ProduceResponse) : List (Int16 × Int64) :=
  response.topics.flatMap fun topic => topic.2.map fun entry => (entry.errorCode, entry.baseOffset)

variable {σ ε β : Type}

def BridgeCall.carried (call : BridgeCall β) : GoString × Int32 × List UInt8 :=
  (call.message.topic, call.message.partition, call.message.payload.getD [])

def BridgeCall.told (call : BridgeCall β) : Int16 × Int64 :=
  match call.answer with
  | .ok offset => (noError, offset)
  | .error _ => (unknownTopicOrPartition, -1)

def respondTo (partition : Int32) (answer : Option Int64) : PartitionResponse :=
  ⟨partition, if answer.isSome then noError else unknownTopicOrPartition, answer.getD (-1), -1, -1⟩

def producing (env : Surroundings σ ε β) (topic : GoString) :
    Object (Broker σ β) (Int32 × List UInt8) PartitionResponse where
  apply s entry :=
    ((produceMessage env topic entry.1 entry.2 s).1,
      respondTo entry.1 (produceMessage env topic entry.1 entry.2 s).2)

theorem run_readMessageSet (valid : (text length32).Valid content) (rest out : List UInt8)
    (s : Broker σ β) :
    readMessageSet ⟨(text length32).encode content ++ rest, out, s⟩ =
      (some content, ⟨rest, out, s⟩) := by
  have small := valid_text.mp valid
  have present : ¬ Int32.ofNat content.length < 0 := by
    rw [Int32.lt_iff_toInt_lt, Int32.toInt_ofNat_of_lt small, Int32.toInt_zero]
    omega
  rw [readMessageSet, encode_text, List.append_assoc, bind_of_run (run_readCount ..),
    if_neg present, run_reading, rounds_ofNat small, fill_append rfl]

theorem producedBytes_eq_encode (partition : Int32) (answer : Option Int64) :
    producedBytes partition answer = partitionResponse.encode (respondTo partition answer) := by
  rw [partitionResponse, encode_iso]
  simp only [producedBytes, respondTo, encode_pair, encode_fixed, List.append_assoc]

theorem producePartition_serves (env : Surroundings σ ε β) (topic : GoString) :
    Serves messageSet partitionResponse (producing env topic) (producePartition env topic) := by
  intro entry valid rest out s
  have content : (text length32).Valid entry.2 := valid.2
  rw [producePartition, messageSet, encode_pair, encode_fixed, List.append_assoc,
    bind_of_run (run_readInt32 ..), bind_of_run (run_readMessageSet content ..),
      bind_of_run (run_act ..), run_write, producedBytes_eq_encode, producing]

/-- A message set for a named topic is one call of the bridge. -/
theorem produceMessage_calls (env : Surroundings σ ε β) {topic : GoString} (named : topic ≠ [])
    (partition : Int32) (content : List UInt8) (s : Broker σ β) :
    ∃ call, (produceMessage env topic partition content s).1.calls = s.calls ++ [call] ∧
      call.carried = (topic, partition, content) ∧
      (produceMessage env topic partition content s).2 = call.answer.toOption := by
  rw [produceMessage, translateProduce, if_neg named]
  refine ⟨_, rfl, ?_, rfl⟩
  by_cases empty : content = []
  · subst empty
    cases (env.pooled s.calls).payload <;> simp [BridgeCall.carried]
  · simp [BridgeCall.carried, empty]

theorem respondTo_told (partition : Int32) (call : BridgeCall β) :
    ((respondTo partition call.answer.toOption).errorCode,
      (respondTo partition call.answer.toOption).baseOffset) =
      call.told := by
  cases answer : call.answer <;> simp [respondTo, BridgeCall.told, answer, Except.toOption]

/-- Between two states the bridge has been called with the message sets, with the results told. -/
def Produces (s t : Broker σ β) (sets : List (GoString × Int32 × List UInt8))
    (results : List (Int16 × Int64)) : Prop :=
  ∃ calls, t.calls = s.calls ++ calls ∧ calls.map BridgeCall.carried = sets ∧
    calls.map BridgeCall.told = results

theorem Produces.refl (s : Broker σ β) : Produces s s [] [] := ⟨[], by simp, rfl, rfl⟩

theorem Produces.trans {s t u : Broker σ β} (first : Produces s t sets results)
    (later : Produces t u more others) : Produces s u (sets ++ more) (results ++ others) := by
  obtain ⟨calls, after, rfl, rfl⟩ := first
  obtain ⟨calls', after', rfl, rfl⟩ := later
  exact ⟨calls ++ calls', by rw [after', after, List.append_assoc], List.map_append,
    List.map_append⟩

section

variable (env : Surroundings σ ε β)

theorem producing_produces {topic : GoString} (named : topic ≠ [])
    (entries : List (Int32 × List UInt8)) (s : Broker σ β) :
    Produces s ((producing env topic).run s entries).1
    (entries.map fun entry => (topic, entry.1, entry.2))
      (((producing env topic).run s entries).2.map fun entry => (entry.errorCode, entry.baseOffset)) := by
  induction entries generalizing s with
  | nil => exact .refl s
  | cons entry entries ih =>
    obtain ⟨call, calls, carried, answer⟩ := produceMessage_calls env named entry.1 entry.2 s
    have told := respondTo_told entry.1 call
    rw [← answer] at told
    have first : Produces s (produceMessage env topic entry.1 entry.2 s).1 [(topic, entry.1, entry.2)] [call.told] :=
      ⟨[call], calls, by simp [carried], rfl⟩
    rw [Object.run_cons, List.map_cons, List.map_cons]
    have both := first.trans (ih (produceMessage env topic entry.1 entry.2 s).1)
    rw [← told] at both
    exact both

theorem topics_produces {topics : List (GoString × List (Int32 × List UInt8))}
    (named : ∀ topic ∈ topics, topic.1 ≠ []) (s : Broker σ β) :
    Produces s ((servingTopics (producing env)).run s topics).1
      (topics.flatMap fun topic => topic.2.map fun entry => (topic.1, entry.1, entry.2))
      (((servingTopics (producing env)).run s topics).2.flatMap fun topic =>
        topic.2.map fun entry => (entry.errorCode, entry.baseOffset)) := by
  induction topics generalizing s with
  | nil => exact .refl s
  | cons topic topics ih =>
    have first := producing_produces env (named topic List.mem_cons_self) topic.2 s
    have later := ih (fun t inside => named t (List.mem_cons_of_mem _ inside))
      ((producing env topic.1).run s topic.2).1
    exact first.trans later

theorem run_handleProduce (valid : produceRequest.Valid request) (s : Broker σ β) :
    handleProduce env ⟨produceRequest.encode request, [], s⟩ =
      (some (), ⟨[], produceResponse.encode ⟨0, ((servingTopics (producing env)).run s request.topics).2⟩,
        ((servingTopics (producing env)).run s request.topics).1⟩) := by
  have topics : (topicsOf messageSet).Valid request.topics := valid.2.2
  have served :=
    (Serves.forPartitions (producePartition_serves env)).forTopics request.topics topics [] [] s
  rw [List.append_nil] at served
  rw [produceRequest, encode_iso, encode_pair, encode_pair, encode_fixed, encode_fixed,
    handleProduce, bind_of_run (run_readInt16 ..), bind_of_run (run_readInt32 ..)]
  exact served

theorem produce_round_trip (s : Broker σ β) {request : ProduceRequest}
    (valid : produceRequest.Valid request) (named : ∀ topic ∈ request.topics, topic.1 ≠ []) :
    ∃ t body response, (handleProduce env).respond s (produceRequest.encode request) =
      (t, some body) ∧ produceResponse.decode body = some (response, []) ∧
      response.partitions = request.partitions ∧
      Produces s t request.messageSets response.results := by
  have produces := topics_produces env named s
  have partitions : (((servingTopics (producing env)).run s request.topics).2.map fun topic =>
      (topic.1, topic.2.map PartitionResponse.partition)) = request.partitions :=
    servingTopics_map (fun _ _ _ => rfl) s request.topics
  have fits :
      (topicsOf partitionResponse).Valid ((servingTopics (producing env)).run s request.topics).2 :=
    servingTopics_valid (producing env) s valid.2.2 fun _ _ _ _ =>
      ⟨trivial, trivial, trivial, trivial, trivial⟩
  refine ⟨_, _, ⟨0, _⟩, ?_, produceResponse.decode_whole ⟨trivial, fits⟩, partitions, produces⟩
  rw [respond, run_handleProduce env valid s, Option.map_some]

end

/-- A store that has nothing, a bridge that takes the first message only and a pool that gives
    back a used message. -/
def oneMessageTaken : Surroundings Unit Unit Unit where
  store :=
    ⟨fun _ _ _ _ _ => ((), some (.error ())), fun _ _ => ((), .error ()), fun _ _ _ _ =>
      ((), .error ()), fun _ _ => ((), .error ())⟩
  pooled _ := { topic := [9], payload := some [9, 9, 9], partition := 9 }
  kafkaID calls := UInt64.ofNat calls.length
  bridge calls _ := if calls.length = 0 then .ok 7 else .error ()
  clock _ := 0

theorem taken_and_refused_sets_are_answered :
    ∃ t body response, (handleProduce oneMessageTaken).respond ⟨(), none, none, [], 0⟩
        (produceRequest.encode ⟨1, 1000, [([1], [(0, [5, 6])]), ([2, 3], []), ([1], [(4, [])])]⟩) = (t, some body) ∧
      produceResponse.decode body = some (response, []) ∧
      response.partitions = [([1], [0]), ([2, 3], []), ([1], [4])] ∧
      Produces ⟨(), none, none, [], 0⟩ t [([1], 0, [5, 6]), ([1], 4, [])] response.results :=
  produce_round_trip oneMessageTaken ⟨(), none, none, [], 0⟩
    (by simp [produceRequest, topicsOf, messageSet]) (by decide)

end Portask.Kafka.Protocol
