import Portask.Kafka.Handlers

/-! # The store in memory under the handlers

The methods of `InMemoryMessageStore` that only the handlers call, and the store as they see it.
-/

namespace Portask.Kafka

open Lib

namespace InMemoryMessageStore

def deleteTopic (s : InMemoryMessageStore) (topic : GoString) : InMemoryMessageStore :=
  ⟨Function.update s.topics topic none⟩

inductive MetadataError where
  | noTopics
  deriving DecidableEq

def MetadataError.message : MetadataError → String
  | .noTopics => "no topics requested"

/-- A topic that is not there is created with one partition. -/
def getTopicMetadata (order : (Int32 → Option (List KafkaMessage)) → List Int32)
    (s : InMemoryMessageStore) :
    List GoString → InMemoryMessageStore × Except MetadataError (Option Protocol.TopicMetadata)
  | [] => (s, .error .noTopics)
  | topicName :: _ =>
    let after := s.createTopic topicName 1
    let partitions := order ((after.topics topicName).getD fun _ => none)
    (after, .ok (some ⟨topicName, partitions.map fun pid => ⟨pid, 1, [1], [1], [], 0⟩, 0⟩))

theorem consumeMessages_eq_none {s : InMemoryMessageStore} :
    s.consumeMessages topic partition offset maxBytes = none ↔ s.Has topic ∧ offset < 0 := by
  rw [consumeMessages, Has]
  cases s.topics topic with
  | none => simp
  | some t =>
    dsimp only
    split_ifs with past negative
    · simp only [false_iff, not_and]
      omega
    · simp [negative]
    · simp [negative]

end InMemoryMessageStore

namespace Protocol

inductive InMemoryError where
  | topicNotFound (err : TopicNotFound)
  | metadata (err : InMemoryMessageStore.MetadataError)
  deriving DecidableEq

def InMemoryError.message (render : GoString → String) : InMemoryError → String
  | .topicNotFound err => err.message render
  | .metadata err => err.message

def ofKafkaMessage (m : KafkaMessage) : Message := ⟨Int64.ofNat m.offset, some m.key, m.value⟩

/-- `order` is the order in which a range over the partitions of a topic yields them. -/
def inMemoryStore (order : (Int32 → Option (List KafkaMessage)) → List Int32) :
    MessageStore InMemoryMessageStore InMemoryError where
  consumeMessages s topic partition offset maxBytes :=
    (s, (s.consumeMessages topic partition offset.toInt maxBytes).map fun answer =>
      (answer.map fun messages => messages.map ofKafkaMessage).mapError .topicNotFound)
  getTopicMetadata s topics :=
    ((s.getTopicMetadata order topics).1, (s.getTopicMetadata order topics).2.mapError .metadata)
  createTopic s topic partitions _ := (s.createTopic topic partitions, .ok ())
  deleteTopic s topic := (s.deleteTopic topic, .ok ())

/-- The surroundings of a broker that was just started. -/
def started : Surroundings InMemoryMessageStore InMemoryError Unit where
  store := inMemoryStore fun _ => [0]
  pooled _ := {}
  kafkaID calls := UInt64.ofNat calls.length
  bridge calls _ := .ok (Int64.ofNat calls.length)
  clock n := n

end Protocol

end Portask.Kafka
