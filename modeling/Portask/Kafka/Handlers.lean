import Portask.Kafka.Framing
import Portask.Kafka.GroupCoordinator
import Portask.Kafka.MemoryStore
import Portask.Kafka.OffsetMetadata
import Portask.Kafka.ProcessorBridge
import Portask.Lib.Exchange

/-! # The request handlers

`handleRequest` of `pkg/kafka/protocol.go` and the handlers of `handlers.go` and
`handlers_extended.go`. They read the body from the front without looking at errors and write
the response as they go. What they call is given by its answers: a message store, the bridge,
the pool, the ID counter and the clock. Both constructors make a bridge and a translator, so
the paths without them are left out, and so is logging.
-/

namespace Portask.Kafka

open Lib Portask.Types

def ConsumerGroupState.string : ConsumerGroupState → GoString
  | .preparingRebalance => ascii "PreparingRebalance"
  | .completingRebalance => ascii "CompletingRebalance"
  | .stable => ascii "Stable"
  | .dead => ascii "Dead"
  | .empty => ascii "Empty"
  | .unknown => ascii "Unknown"

/-- `DescribeGroups`: every group that is asked for and exists, once. The result is a map in the
    source, over which the handler ranges; here it has the order of the question. -/
def GroupCoordinator.describeGroups (gc : GroupCoordinator) (groupIDs : List GoString) :
    List (GoString × ConsumerGroup) :=
  groupIDs.eraseDups.filterMap fun groupID =>
    (gc.groups.lookup groupID).map fun group => (groupID, group)

namespace Protocol

open Lib.Handler

/-! ## What the handlers work with -/

structure Message where
  offset : Int64
  key : Bytes
  value : Bytes
  deriving DecidableEq

structure PartitionMetadata where
  id : Int32
  leader : Int32
  replicas : List Int32
  isr : List Int32
  offlineReplicas : List Int32
  error : Int16
  deriving DecidableEq

structure TopicMetadata where
  name : GoString
  partitions : List PartitionMetadata
  error : Int16
  deriving DecidableEq

/-- The methods of a message store that the handlers call. `ConsumeMessages` gives nothing where
    it panics. -/
structure MessageStore (σ ε : Type) where
  consumeMessages : σ → GoString → Int32 → Int64 → Int32 → σ × Option (Except ε (List Message))
  getTopicMetadata : σ → List GoString → σ × Except ε (Option TopicMetadata)
  createTopic : σ → GoString → Int32 → Int16 → σ × Except ε Unit
  deleteTopic : σ → GoString → σ × Except ε Unit

/-- A call of `ProduceMessage` of the bridge, and what it returned. -/
structure BridgeCall (β : Type) where
  message : PortaskMessage
  answer : Except β Int64

/-- `calls` and `readings` are not part of the program: they record the calls of the bridge and
    count the readings of the clock. -/
structure Broker (σ β : Type) where
  store : σ
  groupCoordinator : Option GroupCoordinator
  offsetManager : Option OffsetManagerWithMetadata
  calls : List (BridgeCall β)
  readings : Nat

/-- What a handler gets from the outside. The message of the pool, the next ID and the answer of
    the bridge may depend on everything the bridge was called with before. -/
structure Surroundings (σ ε β : Type) where
  store : MessageStore σ ε
  pooled : List (BridgeCall β) → PortaskMessage
  kafkaID : List (BridgeCall β) → UInt64
  bridge : List (BridgeCall β) → PortaskMessage → Except β Int64
  clock : Nat → Int

def noError : Int16 := 0
def unknownTopicOrPartition : Int16 := 3
def coordinatorNotAvailable : Int16 := 15
def rebalanceInProgress : Int16 := 27
def unsupportedVersion : Int16 := 35
def topicAlreadyExists : Int16 := 36

/-! ## Reading and writing -/

section

variable {σ : Type}

def readInt8 : Handler σ Int8 := reading (int8.read 0)
def readInt16 : Handler σ Int16 := reading (int16.read 0)
def readInt32 : Handler σ Int32 := reading (int32.read 0)
def readInt64 : Handler σ Int64 := reading (int64.read 0)
def readName : Handler σ GoString := reading readString

def readBytes : Handler σ Bytes := reading (readBlock length32)

def writeInt8 (v : Int8) : Handler σ Unit := write (int8.encode v)
def writeInt16 (v : Int16) : Handler σ Unit := write (int16.encode v)
def writeInt32 (v : Int32) : Handler σ Unit := write (int32.encode v)
def writeInt64 (v : Int64) : Handler σ Unit := write (int64.encode v)

def stringBytes (s : GoString) : List UInt8 := int16.encode (Int16.ofNat s.length) ++ s

def writeString (s : GoString) : Handler σ Unit := write (stringBytes s)

def fieldBytes : Bytes → List UInt8
  | none => int32.encode (-1)
  | some data => int32.encode (Int32.ofNat data.length) ++ data

def writeBytes (data : Bytes) : Handler σ Unit := write (fieldBytes data)

/-- The rounds of a loop that counts from zero up to a number. -/
def rounds (count : Int32) : Nat := count.toInt.toNat

/-- The loop over the topics of a request, as the handlers of topics and of messages have it. -/
def forTopics (entry : Handler σ Unit) : Handler σ Unit := do
  let topicCount ← readInt32
  writeInt32 0
  writeInt32 topicCount
  times (rounds topicCount) entry

/-- The name of a topic and the loop over its partitions, in the request and in the response. -/
def forPartitions (entry : GoString → Handler σ Unit) : Handler σ Unit := do
  let topic ← readName
  writeString topic
  let partitionCount ← readInt32
  writeInt32 partitionCount
  times (rounds partitionCount) (entry topic)

def arrayBytes (values : List Int32) : List UInt8 :=
  int32.encode (Int32.ofNat values.length) ++ values.flatMap int32.encode

end

variable {σ ε β : Type}

def now (env : Surroundings σ ε β) : Handler (Broker σ β) Int :=
  act fun s => ({ s with readings := s.readings + 1 }, env.clock s.readings)

/-! ## Topics -/

def handleApiVersions : Handler (Broker σ β) Unit := do
  writeInt16 noError
  let supportedAPIs : List (Int16 × Int16 × Int16) :=
    [(18, 0, 3), (3, 0, 9), (0, 0, 8), (1, 0, 11), (2, 0, 5), (19, 0, 5), (20, 0, 4),
      (17, 0, 1), (36, 0, 2)]
  writeInt32 (Int32.ofNat supportedAPIs.length)
  write (supportedAPIs.flatMap fun api =>
    int16.encode api.1 ++ int16.encode api.2.1 ++ int16.encode api.2.2)
  writeInt32 0

/-- The topics a metadata request is about. Without a list it is a default topic. -/
def readRequestedTopics : Handler (Broker σ β) (List GoString) := do
  let topicCount ← readInt32
  if topicCount > 0 then collect (rounds topicCount) readName else return [ascii "test-topic"]

def partitionBytes (partition : PartitionMetadata) : List UInt8 :=
  int16.encode partition.error ++ int32.encode partition.id ++ int32.encode partition.leader ++
    arrayBytes partition.replicas ++ arrayBytes partition.isr ++
      arrayBytes partition.offlineReplicas

def writeTopicMetadata : Option TopicMetadata → Handler (Broker σ β) Unit
  | none => writeInt32 0
  | some metadata => do
      writeInt32 1
      writeInt16 metadata.error
      writeString metadata.name
      writeInt8 0
      writeInt32 (Int32.ofNat metadata.partitions.length)
      write (metadata.partitions.flatMap partitionBytes)

def writeMetadata : Except ε (Option TopicMetadata) → Handler (Broker σ β) Unit
  | .error _ => do
      writeInt32 0
      writeInt32 0
      writeInt32 (-1)
      writeInt32 0
      writeInt32 0
  | .ok metadata => do
      writeInt32 0
      writeInt32 1
      writeInt32 0
      writeString (ascii "localhost")
      writeInt32 9092
      writeString []
      writeString []
      writeInt32 0
      writeTopicMetadata metadata

def handleMetadata (env : Surroundings σ ε β) : Handler (Broker σ β) Unit := do
  let requestedTopics ← readRequestedTopics
  let metadata ← act fun s =>
    ({ s with store := (env.store.getTopicMetadata s.store requestedTopics).1 },
      (env.store.getTopicMetadata s.store requestedTopics).2)
  writeMetadata metadata

def handleListOffsets : Handler (Broker σ β) Unit := do
  writeInt32 0
  writeInt32 0

section

variable (env : Surroundings σ ε β)

def createTopic (topic : GoString) (numPartitions : Int32) (replicationFactor : Int16)
    (s : Broker σ β) : Broker σ β × Except ε Unit :=
  ({ s with store := (env.store.createTopic s.store topic numPartitions replicationFactor).1 },
    (env.store.createTopic s.store topic numPartitions replicationFactor).2)

/-- The counts of assignments and configs are read, but not what they count. -/
def createOne : Handler (Broker σ β) Unit := do
  let topic ← readName
  let numPartitions ← readInt32
  let replicationFactor ← readInt16
  let _assignmentCount ← readInt32
  let _configCount ← readInt32
  let answer ← act (createTopic env topic numPartitions replicationFactor)
  writeString topic
  writeInt16 (if answer.isOk then noError else topicAlreadyExists)
  writeString []

def handleCreateTopics : Handler (Broker σ β) Unit := forTopics (createOne env)

def deleteTopic (topic : GoString) (s : Broker σ β) : Broker σ β × Except ε Unit :=
  ({ s with store := (env.store.deleteTopic s.store topic).1 },
    (env.store.deleteTopic s.store topic).2)

def deleteOne : Handler (Broker σ β) Unit := do
  let topic ← readName
  let answer ← act (deleteTopic env topic)
  writeString topic
  writeInt16 (if answer.isOk then noError else unknownTopicOrPartition)

def handleDeleteTopics : Handler (Broker σ β) Unit := forTopics (deleteOne env)

/-! ## Produce -/

/-- The error of the translator or of the bridge is only logged, and the handler goes on. -/
def produceMessage (topic : GoString) (partition : Int32) (messageSet : List UInt8)
    (s : Broker σ β) : Broker σ β × Option Int64 :=
  match translateProduce (env.pooled s.calls) (env.kafkaID s.calls)
    (env.clock s.readings) topic partition []
      messageSet with
  | .error _ => (s, none)
  | .ok portaskMsg =>
    let answer := env.bridge s.calls portaskMsg
    ({ s with calls := s.calls ++ [⟨portaskMsg, answer⟩], readings := s.readings + 1 },
      answer.toOption)

end

/-- Making a slice of negative length panics. The slice keeps its zeros where bytes are missing. -/
def readMessageSet : Handler (Broker σ β) (List UInt8) := do
  let messageSetSize ← readInt32
  if messageSetSize < 0 then crash else reading (fill (rounds messageSetSize))

def producedBytes (partition : Int32) (answer : Option Int64) : List UInt8 :=
  int32.encode partition ++
    int16.encode (if answer.isSome then noError else unknownTopicOrPartition) ++
    int64.encode (answer.getD (-1)) ++ int64.encode (-1) ++ int64.encode (-1)

def producePartition (env : Surroundings σ ε β) (topic : GoString) : Handler (Broker σ β) Unit := do
  let partition ← readInt32
  let messageSet ← readMessageSet
  let answer ← act (produceMessage env topic partition messageSet)
  write (producedBytes partition answer)

def handleProduce (env : Surroundings σ ε β) : Handler (Broker σ β) Unit := do
  let _requiredAcks ← readInt16
  let _timeout ← readInt32
  forTopics (forPartitions (producePartition env))

/-! ## Fetch -/

def translateFetch (topic : GoString) (partition : Int32) (offset : Int64) (maxBytes : Int32) :
    Except String FetchRequest :=
  if topic = [] then .error "topic cannot be empty"
  else
    let estimatedLimit := maxBytes.toInt.tdiv 1024
    .ok ⟨topic, partition, offset.toInt, if estimatedLimit ≤ 0 then 100 else estimatedLimit⟩

/-- A number as `%d` prints it. -/
def decimal (n : Int) : GoString :=
  if n < 0 then 0x2D :: GoString.decimal n.natAbs else GoString.decimal n.natAbs

/-- What `FetchMessages` of the bridge makes of a message of the store. -/
def toPortask (req : FetchRequest) (kmsg : Message) : PortaskMessage where
  id := decimal kmsg.offset.toInt
  topic := req.topic
  partition := req.partition
  key := kmsg.key.getD []
  payload := kmsg.value
  timestamp := kmsg.offset.toInt

/-- What `handleFetch` makes of a message of the bridge. The timestamp is used as the offset. -/
def ofPortask (pmsg : PortaskMessage) : Message where
  offset := Int64.ofInt pmsg.timestamp
  key := some pmsg.key
  value := pmsg.payload

def fetchMessages (env : Surroundings σ ε β) (req : FetchRequest) (s : σ) :
    σ × Option (Except ε (List PortaskMessage)) :=
  let consumed := env.store.consumeMessages s req.topic req.partition (Int64.ofInt req.offset)
    (Int32.ofInt (req.limit * 1024))
  (consumed.1, consumed.2.map fun answer =>
    answer.map fun kafkaMessages => kafkaMessages.map (toPortask req))

/-- The messages for a partition, nothing after an error. -/
def fetch (env : Surroundings σ ε β) (topic : GoString) (partition : Int32) (fetchOffset : Int64)
    (partitionMaxBytes : Int32) : Handler (Broker σ β) (Option (List Message)) :=
  match translateFetch topic partition fetchOffset partitionMaxBytes with
  | .error _ => return none
  | .ok fetchReq => do
      let answer ← act fun s =>
        ({ s with store := (fetchMessages env fetchReq s.store).1 }, (fetchMessages env fetchReq s.store).2)
      match answer with
      | none => crash
      | some result => return result.toOption.map (·.map ofPortask)

def recordBytes (msg : Message) : List UInt8 :=
  int64.encode msg.offset ++ fieldBytes msg.key ++ fieldBytes msg.value

def fetchedBytes (partition : Int32) : Option (List Message) → List UInt8
  | none =>
    int32.encode partition ++ int16.encode unknownTopicOrPartition ++ int64.encode (-1) ++
      int64.encode (-1) ++
      int64.encode (-1) ++ int32.encode 0 ++ int32.encode 0
  | some messages =>
    let recordBuf := messages.flatMap recordBytes
    int32.encode partition ++ int16.encode noError ++ int64.encode 1000 ++ int64.encode (-1) ++
      int64.encode 0 ++ int32.encode 0 ++ int32.encode (Int32.ofNat recordBuf.length) ++ recordBuf

def fetchPartition (env : Surroundings σ ε β) (topic : GoString) : Handler (Broker σ β) Unit := do
  let partition ← readInt32
  let fetchOffset ← readInt64
  let partitionMaxBytes ← readInt32
  let answer ← fetch env topic partition fetchOffset partitionMaxBytes
  write (fetchedBytes partition answer)

/-- Requests have a limit for the whole response from version 3 on. -/
def readMaxBytes (apiVersion : Int16) : Handler (Broker σ β) Int32 :=
  if apiVersion ≥ 3 then reading (int32.read (1024 * 1024)) else return 1024 * 1024

def handleFetch (env : Surroundings σ ε β) (apiVersion : Int16) : Handler (Broker σ β) Unit := do
  let _replicaId ← readInt32
  let _maxWaitTime ← readInt32
  let _minBytes ← readInt32
  let _maxBytes ← readMaxBytes apiVersion
  forTopics (forPartitions (fetchPartition env))

/-! ## Groups -/

def handleFindCoordinator : Handler (Broker σ β) Unit := do
  let _coordinatorKey ← readName
  let _coordinatorType ← readInt8
  writeInt32 0
  writeInt16 0
  writeInt16 0
  writeInt32 0
  writeString (ascii "localhost")
  writeInt32 9092

def withGroups {α : Type} (f : GroupCoordinator → GroupCoordinator × α) :
    Handler (Broker σ β) (Option α) :=
  act fun s => ({ s with groupCoordinator := s.groupCoordinator.map fun gc => (f gc).1 },
    s.groupCoordinator.map fun gc => (f gc).2)

def milliseconds (n : Int32) : Int := n.toInt * 1000000

def writeJoined : Option JoinGroupResponse → Handler (Broker σ β) Unit
  | none => do
      writeInt32 0
      writeInt16 coordinatorNotAvailable
      writeInt32 0
      writeString []
      writeString []
      writeString []
      writeInt32 0
  | some resp => do
      writeInt32 0
      writeInt16 0
      writeInt32 resp.generationID
      writeString resp.protocolName
      writeString resp.leaderID
      writeString resp.memberID
      writeInt32 (Int32.ofNat resp.members.length)
      write (resp.members.flatMap fun member => stringBytes member.1 ++ fieldBytes member.2)

/-- `JoinGroup` never returns an error. -/
def handleJoinGroup (env : Surroundings σ ε β) : Handler (Broker σ β) Unit := do
  let groupID ← readName
  let sessionTimeout ← readInt32
  let rebalanceTimeout ← readInt32
  let memberID ← readName
  let _protocolType ← readName
  let nanos ← now env
  let time ← now env
  let joined ← withGroups fun gc => gc.joinGroup groupID
    ⟨memberID, ascii "client-1", ascii "localhost", milliseconds sessionTimeout,
      milliseconds rebalanceTimeout, some []⟩ time nanos.toNat
  writeJoined joined

def readAssignment : Handler (Broker σ β) (GoString × Bytes) := do
  let assignmentMemberID ← readName
  let assignmentBytes ← readBytes
  return (assignmentMemberID, assignmentBytes)

/-- A later assignment of a member replaces an earlier one. -/
def assignmentsOf (read : List (GoString × Bytes)) : Assignments :=
  read.foldl (fun assignments entry => assignments.insert entry.1 entry.2) ∅

def writeSynced : Option (Except GroupError Bytes) → Handler (Broker σ β) Unit
  | none | some (.error _) => do
      writeInt32 0
      writeInt16 coordinatorNotAvailable
      writeBytes (some [])
  | some (.ok assignment) => do
      writeInt32 0
      writeInt16 0
      writeBytes assignment

def handleSyncGroup (env : Surroundings σ ε β) : Handler (Broker σ β) Unit := do
  let groupID ← readName
  let generationID ← readInt32
  let memberID ← readName
  let assignmentCount ← readInt32
  let read ← collect (rounds assignmentCount) readAssignment
  let time ← now env
  let synced ← withGroups fun gc =>
    gc.syncGroup groupID memberID generationID (assignmentsOf read) time
  writeSynced synced

def writeBeaten : Option (Option GroupError) → Handler (Broker σ β) Unit
  | none => do
      writeInt32 0
      writeInt16 coordinatorNotAvailable
  | some err => do
      writeInt32 0
      writeInt16 (if err.isSome then rebalanceInProgress else 0)

def handleHeartbeat (env : Surroundings σ ε β) : Handler (Broker σ β) Unit := do
  let groupID ← readName
  let generationID ← readInt32
  let memberID ← readName
  let time ← now env
  let beaten ← withGroups fun gc => gc.heartbeat groupID memberID generationID time
  writeBeaten beaten

def groupBytes (description : GoString × ConsumerGroup) : List UInt8 :=
  let group := description.2
  int16.encode 0 ++ stringBytes description.1 ++ stringBytes group.state.string ++
    stringBytes group.protocol ++
    stringBytes group.protocol ++ int32.encode (Int32.ofNat group.members.entries.length) ++
    group.members.entries.flatMap fun member =>
      stringBytes member.1 ++ stringBytes member.2.clientID ++ stringBytes member.2.clientHost ++
        fieldBytes member.2.metadata ++ fieldBytes member.2.metadata

def writeDescriptions : Option (List (GoString × ConsumerGroup)) → Handler (Broker σ β) Unit
  | none => do
      writeInt32 0
      writeInt32 0
  | some descriptions => do
      writeInt32 0
      writeInt32 (Int32.ofNat descriptions.length)
      write (descriptions.flatMap groupBytes)

/-- The slice is made with a length and not only with a capacity, so that the IDs come after as
    many empty ones. A negative length panics. -/
def handleDescribeGroups : Handler (Broker σ β) Unit := do
  let groupCount ← readInt32
  if groupCount < 0 then crash
  else do
    let read ← collect (rounds groupCount) readName
    let descriptions ← withGroups fun gc =>
      (gc, gc.describeGroups (List.replicate (rounds groupCount) [] ++ read))
    writeDescriptions descriptions

/-! ## Offsets -/

section

variable (env : Surroundings σ ε β)

def commitOffset (commit : MetadataCommit) (s : Broker σ β) : Broker σ β :=
  { s with
    offsetManager := s.offsetManager.map fun omm =>
      (omm.commitOffset commit.groupID commit.topic commit.partition commit.offset).storeMetadata
        commit.groupID
        commit.topic commit.partition commit.offset commit.metadata (env.clock s.readings)
    readings := s.readings + 1 }

def commitPartition (groupID topicName : GoString) : Handler (Broker σ β) Unit := do
  let partition ← readInt32
  let offset ← readInt64
  let metadata ← readName
  act fun s => (commitOffset env ⟨groupID, topicName, partition, offset, metadata⟩ s, ())

def commitTopic (groupID : GoString) : Handler (Broker σ β) Unit := do
  let topicName ← readName
  let partitionCount ← readInt32
  times (rounds partitionCount) (commitPartition env groupID topicName)

end

def hasOffsetManager : Handler (Broker σ β) Bool := act fun s => (s, s.offsetManager.isSome)

/-- The response names no topic of the request. -/
def handleOffsetCommit (env : Surroundings σ ε β) : Handler (Broker σ β) Unit := do
  let groupID ← readName
  let _generationID ← readInt32
  let topicCount ← readInt32
  let present ← hasOffsetManager
  if present then do
    times (rounds topicCount) (commitTopic env groupID)
    writeInt32 0
    writeInt32 topicCount
    write (List.replicate (rounds topicCount)
      (stringBytes (ascii "topic") ++ int32.encode 0)).flatten
  else do
    writeInt32 0
    writeInt32 0

/-- The offset of a partition, -1 if there is none. -/
def offsetOf (omm : Option OffsetManagerWithMetadata) (groupID topic : GoString)
    (partition : Int32) : Int64 :=
  ((omm.bind fun omm => (omm.fetchOffsetMetadata groupID topic partition).toOption).map
    OffsetMetadata.offset).getD (-1)

def fetchOffset (groupID topicName : GoString) : Handler (Broker σ β) Unit := do
  let partition ← readInt32
  let offset ← act fun s => (s, offsetOf s.offsetManager groupID topicName partition)
  writeInt32 partition
  writeInt64 offset
  writeString []
  writeInt16 0

def fetchOffsets (groupID : GoString) : Handler (Broker σ β) Unit := do
  let topicName ← readName
  let partitionCount ← readInt32
  writeString topicName
  writeInt32 partitionCount
  times (rounds partitionCount) (fetchOffset groupID topicName)

def handleOffsetFetch : Handler (Broker σ β) Unit := do
  let groupID ← readName
  let topicCount ← readInt32
  writeInt32 0
  let present ← hasOffsetManager
  if present then do
    writeInt32 topicCount
    times (rounds topicCount) (fetchOffsets groupID)
    writeInt16 0
  else do
    writeInt32 0
    writeInt16 coordinatorNotAvailable

/-! ## The rest -/

def handleSaslHandshake : Handler (Broker σ β) Unit := do
  writeInt16 noError
  let mechanisms := [ascii "PLAIN", ascii "SCRAM-SHA-256", ascii "SCRAM-SHA-512"]
  writeInt32 (Int32.ofNat mechanisms.length)
  write (mechanisms.flatMap stringBytes)

def handleSaslAuthenticate : Handler (Broker σ β) Unit := do
  writeInt16 noError
  writeString []
  writeBytes (some (ascii "auth-success"))
  writeInt64 0

def handleInitProducerId (env : Surroundings σ ε β) : Handler (Broker σ β) Unit := do
  let _transactionalID ← readName
  let _transactionTimeoutMs ← readInt32
  let producerID ← now env
  writeInt32 0
  writeInt16 0
  writeInt64 (Int64.ofInt producerID)
  writeInt16 0

def handleAddPartitionsToTxn : Handler (Broker σ β) Unit := do
  writeInt32 0
  writeInt32 0

def handleEndTxn : Handler (Broker σ β) Unit := do
  writeInt32 0
  writeInt16 0

def createErrorResponse (errorCode : Int16) : Handler (Broker σ β) Unit := writeInt16 errorCode

/-! ## Dispatch -/

/-- The keys that `handleRequest` has a case for. -/
inductive API where
  | produce | fetch | listOffsets | metadata | offsetCommit | offsetFetch | findCoordinator
    | joinGroup | heartbeat
  | syncGroup | describeGroups | saslHandshake | apiVersions | createTopics | deleteTopics
    | initProducerId
  | addPartitionsToTxn | endTxn | saslAuthenticate
  deriving DecidableEq

namespace API

def key : API → Int16
  | produce => 0
  | fetch => 1
  | listOffsets => 2
  | metadata => 3
  | offsetCommit => 8
  | offsetFetch => 9
  | findCoordinator => 10
  | joinGroup => 11
  | heartbeat => 12
  | syncGroup => 14
  | describeGroups => 15
  | saslHandshake => 17
  | apiVersions => 18
  | createTopics => 19
  | deleteTopics => 20
  | initProducerId => 22
  | addPartitionsToTxn => 24
  | endTxn => 26
  | saslAuthenticate => 36

def all : List API :=
  [apiVersions, metadata, produce, fetch, listOffsets, createTopics, deleteTopics, saslHandshake,
    saslAuthenticate,
    describeGroups, offsetCommit, offsetFetch, findCoordinator, joinGroup, syncGroup, heartbeat,
      initProducerId, addPartitionsToTxn, endTxn]

def ofKey (apiKey : Int16) : Option API := all.find? fun api => api.key = apiKey

end API

def dispatch (env : Surroundings σ ε β) (apiVersion : Int16) : API → Handler (Broker σ β) Unit
  | .apiVersions => handleApiVersions
  | .metadata => handleMetadata env
  | .produce => handleProduce env
  | .fetch => handleFetch env apiVersion
  | .listOffsets => handleListOffsets
  | .createTopics => handleCreateTopics env
  | .deleteTopics => handleDeleteTopics env
  | .saslHandshake => handleSaslHandshake
  | .saslAuthenticate => handleSaslAuthenticate
  | .describeGroups => handleDescribeGroups
  | .offsetCommit => handleOffsetCommit env
  | .offsetFetch => handleOffsetFetch
  | .findCoordinator => handleFindCoordinator
  | .joinGroup => handleJoinGroup env
  | .syncGroup => handleSyncGroup env
  | .heartbeat => handleHeartbeat env
  | .initProducerId => handleInitProducerId env
  | .addPartitionsToTxn => handleAddPartitionsToTxn
  | .endTxn => handleEndTxn

/-- The body of the response, or nothing where the handler panics. -/
def handleRequest (env : Surroundings σ ε β) (s : Broker σ β) (request : KafkaRequest) :
    Broker σ β × Option (List UInt8) :=
  match API.ofKey request.header.apiKey with
  | some api => (dispatch env request.header.apiVersion api).respond s request.body
  | none => (createErrorResponse unsupportedVersion).respond s request.body

end Protocol

end Portask.Kafka
