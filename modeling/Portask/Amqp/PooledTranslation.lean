import Portask.Types.Recycling
import Portask.Amqp.Translator

/-! # What a translated message shows of the pool

Both translators overwrite a pooled object and leave its priority as they find it, and an
empty body leaves the payload as it is, nil or not. The first makes two messages of the
same call differ; through the second the processor refuses one of them and accepts the
other.
-/

namespace Portask.Amqp

open Lib Portask.Types Kafka Processor

/-- A translation that works on the exported fields of the object it is given. -/
def translated (pooled : PooledMessage)
    (translate : PortaskMessage → Except String PortaskMessage) : Except String PooledMessage :=
  (translate pooled.toPortaskMessage).map (fun msg => { pooled with toPortaskMessage := msg })

/-- `TranslateProduce` with the object, number and time it meets. -/
def produced (h : History) (id : UInt64) (now : Int) (topic : GoString) (partition : Int32)
    (key value : List UInt8) : Except String PooledMessage :=
  translated h.getMessage (translateProduce · id now topic partition key value)

/-- `TranslatePublish` with the object, number and time it meets. -/
def published (h : History) (id : UInt64) (now : Int) (exchange routingKey : GoString)
    (body : List UInt8) (properties : Option MessageProperties) : Except String PooledMessage :=
  translated h.getMessage (translatePublish · id now exchange routingKey body properties)

section

variable (ε : Type)

def Accepted (msg : PooledMessage) : Prop :=
  validateMessage (ε := ε) (some msg.toPortaskMessage) = .ok msg.toPortaskMessage

/-- The same error, or messages that are equal but for their IDs and timestamps and that the
    processor accepts or refuses together. -/
inductive Indistinct : Except String PooledMessage → Except String PooledMessage → Prop where
  | refused (err : String) : Indistinct (.error err) (.error err)
  | same {a b} (fields : { a with id := b.id, timestamp := b.timestamp } = b)
      (accepted : Accepted ε a ↔ Accepted ε b) : Indistinct (.ok a) (.ok b)

/-- Two objects that a translation of `body` does not tell apart. -/
structure Alike (h₁ h₂ : History) (body : List UInt8) : Prop where
  recycled : h₁.Recycled ↔ h₂.Recycled
  payload : body = [] → (h₁.HasPayload ↔ h₂.HasPayload)

/-- What both translators make of an object: `common` is what does not depend on it. -/
def filled (common : PooledMessage) (h : History) (id : GoString) (now : Int) (body : List UInt8) :
    PooledMessage :=
  { common with
    id := id
    timestamp := now
    priority := h.getMessage.priority
    payload := if body = [] then h.getMessage.payload else some body }

variable {ε}

theorem fields_iff (common : PooledMessage) (h₁ h₂ : History) (id₁ id₂ : GoString) (now₁ now₂ : Int)
    (body : List UInt8) :
    { filled common h₁ id₁ now₁ body with id := id₂, timestamp := now₂ } =
      filled common h₂ id₂ now₂ body ↔ Alike h₁ h₂ body := by
  constructor
  · intro same
    have priorities := congrArg (fun m : PooledMessage => m.priority) same
    have payloads := congrArg (fun m : PooledMessage => m.payload) same
    refine ⟨(History.priority_eq_iff h₁ h₂).mp priorities, fun empty => ?_⟩
    simp only [filled, if_pos empty] at payloads
    exact (History.payload_eq_iff h₁ h₂).mp payloads
  · rintro ⟨recycled, payload⟩
    have payloads : (if body = [] then h₁.getMessage.payload else some body) =
        if body = [] then h₂.getMessage.payload else some body := by
      split_ifs with empty
      · exact (History.payload_eq_iff h₁ h₂).mpr (payload empty)
      · rfl
    simp only [filled, (History.priority_eq_iff h₁ h₂).mpr recycled, payloads]

/-- Messages with the same fields are accepted together: the processor looks at neither the ID
    nor the timestamp. -/
theorem accepted_congr (fields : { a with id := b.id, timestamp := b.timestamp } = b) :
    Accepted ε a ↔ Accepted ε b := by
  have topics := congrArg (fun m : PooledMessage => m.topic) fields
  have payloads := congrArg (fun m : PooledMessage => m.payload) fields
  have valid : Valid a.toPortaskMessage ↔ Valid b.toPortaskMessage :=
    ⟨fun v => ⟨topics ▸ v.topic, payloads ▸ v.payload⟩, fun v =>
      ⟨topics ▸ v.topic, payloads ▸ v.payload⟩⟩
  simp only [Accepted, validateMessage_ok, true_and, valid]

theorem indistinct_filled_iff (common : PooledMessage) (h₁ h₂ : History) (id₁ id₂ : GoString)
    (now₁ now₂ : Int) (body : List UInt8) :
    Indistinct ε (.ok (filled common h₁ id₁ now₁ body)) (.ok (filled common h₂ id₂ now₂ body)) ↔
      Alike h₁ h₂ body := by
  rw [← fields_iff common h₁ h₂ id₁ id₂ now₁ now₂ body]
  constructor
  · intro indistinct
    cases indistinct with
    | same fields => exact fields
  · intro fields
    exact .same fields (accepted_congr fields)

end

/-- The message of a produce up to what it takes from the object, the counter and the clock. -/
def producedCommon (topic : GoString) (partition : Int32) (key : List UInt8) : PooledMessage :=
  { PooledMessage.new with
    topic := topic
    partition := partition
    key := key
    metadata := some (fun k =>
      if k = ascii "source" then some (ascii "kafka")
      else if k = ascii "protocol" then some (ascii "kafka-wire")
      else if k = ascii "version" then some (ascii "2.0")
      else none) }

/-- The message of a publish up to what it takes from the object, the counter and the clock. -/
def publishedCommon (exchange routingKey : GoString) (properties : Option MessageProperties) :
    PooledMessage :=
  { PooledMessage.new with
    topic := if exchange = [] then routingKey else exchange ++ ascii "." ++ routingKey
    metadata := some (assign (fun _ => none)
      ([(ascii "source", ascii "amqp"), (ascii "protocol", ascii "amqp-0.9.1"),
        (ascii "exchange", exchange), (ascii "routing_key", routingKey)] ++
        (properties.map MessageProperties.metadata).getD [])) }

theorem produced_eq (h : History) (id : UInt64) (now : Int) {topic : GoString} (named : topic ≠ [])
    (partition : Int32) (key value : List UInt8) :
    produced h id now topic partition key value =
      .ok (filled (producedCommon topic partition key) h (GoString.decimal id.toNat) now value) := by
  simp only [produced, translated, translateProduce, if_neg named, Except.map,
    History.emptied_payload]
  cases h <;> rfl

theorem published_eq (h : History) (id : UInt64) (now : Int) (exchange : GoString)
    {routingKey : GoString}
    (named : routingKey ≠ []) (body : List UInt8) (properties : Option MessageProperties) :
    published h id now exchange routingKey body properties =
      .ok (filled (publishedCommon exchange routingKey properties) h
        (GoString.decimal id.toNat) now body) := by
  simp only [published, translated, translatePublish, if_neg named, Except.map,
    History.emptied_payload]
  cases h <;> rfl

/-- Two pool histories are told apart by a translation unless it fails, or both objects are new
    or both recycled and, if the body is empty, both have a payload or neither has. -/
theorem translations_indistinct_iff (ε : Type) (h₁ h₂ : History) (id₁ id₂ : UInt64)
    (now₁ now₂ : Int) : (∀ (topic : GoString) (partition : Int32) (key value : List UInt8),
      Indistinct ε (produced h₁ id₁ now₁ topic partition key value)
      (produced h₂ id₂ now₂ topic partition key value) ↔ topic = [] ∨ Alike h₁ h₂ value) ∧
    (∀ (exchange routingKey : GoString) (body : List UInt8) (properties : Option MessageProperties),
      Indistinct ε (published h₁ id₁ now₁ exchange routingKey body properties)
          (published h₂ id₂ now₂ exchange routingKey body properties) ↔
        routingKey = [] ∨ Alike h₁ h₂ body) := by
  constructor
  · intro topic partition key value
    by_cases named : topic = []
    · subst named
      exact iff_of_true (.refused "topic cannot be empty") (.inl rfl)
    · rw [produced_eq h₁ id₁ now₁ named, produced_eq h₂ id₂ now₂ named, indistinct_filled_iff]
      simp only [named, false_or]
  · intro exchange routingKey body properties
    by_cases named : routingKey = []
    · subst named
      exact iff_of_true (.refused "routing key cannot be empty") (.inl rfl)
    · rw [published_eq h₁ id₁ now₁ exchange named, published_eq h₂ id₂ now₂ exchange named,
        indistinct_filled_iff]
      simp only [named, false_or]

/-- An empty value on the topic `t`: refused from a new object, accepted with the normal
    priority from one that was recycled after a use with a payload. -/
theorem pool_history_decides_acceptance :
    ∃ a b : PooledMessage,
      produced .fresh 1 10 (ascii "t") 0 [] [] = .ok a ∧
      produced (.recycled { payload := some [1] }) 2 20 (ascii "t") 0 [] [] = .ok b ∧
      a.priority = 0 ∧ b.priority = priorityNormal ∧ ¬ Accepted Unit a ∧ Accepted Unit b := by
  have named : ascii "t" ≠ [] := by decide
  refine ⟨_, _, produced_eq .fresh 1 10 named 0 [] [], produced_eq (.recycled _) 2 20 named 0 [] [],
    rfl, rfl, ?_, ?_⟩
  · intro accepted
    exact (validateMessage_ok.mp accepted).2.payload rfl
  · exact validateMessage_ok.mpr ⟨rfl, named, by decide⟩

end Portask.Amqp
