import Portask.Kafka.StorageAdapter
import Mathlib.Logic.Function.Basic

/-! # The store in memory

A topic maps partitions to lists of messages, and a message carries its index in its list
as its offset. A partition that was never created is read as an empty one and comes into
being with its first message; a topic has to be created before.
-/

namespace Portask.Kafka

open Function Lib Portask.Types Processor

/-- Of a stored message, what `FetchMessages` reads. -/
structure KafkaMessage where
  offset : Nat
  key : GoString
  value : Bytes
  deriving DecidableEq

structure InMemoryMessageStore where
  topics : GoString → Option (Int32 → Option (List KafkaMessage))

structure TopicNotFound where
  topic : GoString
  deriving DecidableEq

def TopicNotFound.message (render : GoString → String) (e : TopicNotFound) : String :=
  "topic not found: " ++ render e.topic

namespace InMemoryMessageStore

def newInMemoryMessageStore : InMemoryMessageStore := ⟨fun _ => none⟩

def createTopic (s : InMemoryMessageStore) (topic : GoString) (partitions : Int32) :
    InMemoryMessageStore :=
  match s.topics topic with
  | some _ => s
  | none =>
    ⟨update s.topics topic (some (fun i => if 0 ≤ i ∧ i < partitions then some [] else none))⟩

def produceMessage (s : InMemoryMessageStore) (call : Produce) :
    InMemoryMessageStore × Except TopicNotFound Int :=
  match s.topics call.topic with
  | none => (s, .error ⟨call.topic⟩)
  | some t =>
    let msgs := (t call.partition).getD []
    let msg : KafkaMessage := ⟨msgs.length, call.key, call.value⟩
    (⟨update s.topics call.topic (some (update t call.partition (some (msgs ++ [msg]))))⟩,
      .ok msgs.length)

/-- The loop of `ConsumeMessages` over the messages from the offset on. -/
def collect (maxBytes : Int32) : (size : Int32) → (result msgs : List KafkaMessage) →
    List KafkaMessage
  | _, result, [] => result
  | size, result, m :: rest =>
    let size := size + Int32.ofNat (m.value.getD []).length
    if size > maxBytes ∧ result.length > 0 then result
    else collect maxBytes size (result ++ [m]) rest

section

variable (s : InMemoryMessageStore)

variable (topic : GoString)

/-- `none` where a negative offset is out of range and the call panics. -/
def consumeMessages (partition : Int32) (offset : Int)
    (maxBytes : Int32) : Option (Except TopicNotFound (List KafkaMessage)) :=
  match s.topics topic with
  | none => some (.error ⟨topic⟩)
  | some t =>
    let msgs := (t partition).getD []
    if (msgs.length : Int) ≤ offset then some (.ok [])
    else if offset < 0 then none
    else some (.ok (collect maxBytes 0 [] (msgs.drop offset.toNat)))

/-- The messages of a partition, none if there is no such topic. -/
def partitionOf (partition : Int32) : List KafkaMessage :=
  ((s.topics topic).bind (· partition)).getD []

def Has : Prop := (s.topics topic).isSome = true

end

instance (s : InMemoryMessageStore) (topic : GoString) : Decidable (s.Has topic) :=
  inferInstanceAs (Decidable (_ = _))

variable {s : InMemoryMessageStore} {topic : GoString}

theorem Has.createTopic (has : s.Has topic) (created : GoString) (partitions : Int32) :
    (s.createTopic created partitions).Has topic := by
  rw [InMemoryMessageStore.createTopic]
  cases found : s.topics created with
  | some t => exact has
  | none =>
    by_cases same : topic = created
    · subst same
      simp [Has]
    · simpa [Has, same] using has

theorem partitionOf_createTopic (s : InMemoryMessageStore) (created : GoString) (partitions : Int32)
    (topic : GoString) (partition : Int32) :
    (s.createTopic created partitions).partitionOf topic partition =
      s.partitionOf topic partition := by
  rw [createTopic]
  cases found : s.topics created with
  | some t => rfl
  | none =>
    by_cases same : topic = created
    · subst same
      simp only [partitionOf, update_self, Option.bind_some, found, Option.bind_none]
      split_ifs <;> rfl
    · simp [partitionOf, same]

theorem has_produceMessage (s : InMemoryMessageStore) (call : Produce) (topic : GoString) :
    (s.produceMessage call).1.Has topic ↔ s.Has topic := by
  rw [produceMessage]
  cases found : s.topics call.topic with
  | none => exact Iff.rfl
  | some t =>
    by_cases same : topic = call.topic
    · subst same
      simp [Has, found]
    · simp [Has, same]

theorem partitionOf_produceMessage (has : s.Has call.topic) (topic : GoString) (partition : Int32) :
    (s.produceMessage call).1.partitionOf topic partition =
      if call.topic = topic ∧ call.partition = partition then
        s.partitionOf topic partition ++ [⟨(s.partitionOf topic partition).length, call.key, call.value⟩]
      else s.partitionOf topic partition := by
  obtain ⟨t, found⟩ := Option.isSome_iff_exists.mp has
  rw [produceMessage, found]
  by_cases same : topic = call.topic
  · subst same
    by_cases here : partition = call.partition
    · subst here
      simp [partitionOf, found]
    · simp [partitionOf, found, here, Ne.symm here]
  · simp [partitionOf, same, Ne.symm same]

theorem produceMessage_ok (has : s.Has call.topic) :
    (s.produceMessage call).2 = .ok ((s.partitionOf call.topic call.partition).length : Int) := by
  obtain ⟨t, found⟩ := Option.isSome_iff_exists.mp has
  simp [produceMessage, partitionOf, found]

theorem collect_extends (maxBytes size : Int32) (result msgs : List KafkaMessage) :
    ∃ more, collect maxBytes size result msgs = result ++ more := by
  induction msgs generalizing size result with
  | nil => exact ⟨[], by simp [collect]⟩
  | cons m rest ih =>
    simp only [collect]
    split_ifs
    · exact ⟨[], by simp⟩
    · obtain ⟨more, collected⟩ := ih (size + Int32.ofNat (m.value.getD []).length) (result ++ [m])
      exact ⟨m :: more, by simp [collected]⟩

/-- Whatever the byte limit is, the message at the offset comes first. -/
theorem consumeMessages_at {offset : Nat}
    (found : (s.partitionOf topic partition)[offset]? = some m) (maxBytes : Int32) :
    ∃ rest, s.consumeMessages topic partition offset maxBytes = some (.ok (m :: rest)) := by
  cases named : s.topics topic with
  | none => simp [partitionOf, named] at found
  | some t =>
    have msgs : s.partitionOf topic partition = (t partition).getD [] := by
      simp [partitionOf, named]
    rw [msgs] at found
    obtain ⟨below, here⟩ := List.getElem?_eq_some_iff.mp found
    obtain ⟨more, collected⟩ :=
      collect_extends maxBytes (0 + Int32.ofNat (m.value.getD []).length) [m]
      (((t partition).getD []).drop (offset + 1))
    have inside : ¬ ((((t partition).getD []).length : Int) ≤ (offset : Int)) := by omega
    refine ⟨more, ?_⟩
    simp only [consumeMessages, named, inside, if_false, Int.toNat_natCast,
      List.drop_eq_getElem_cons below, here]
    simpa [collect] using collected

def goesTo (topic : GoString) (partition : Int32) (m : PortaskMessage) : Bool :=
  decide (m.topic = topic ∧ m.partition = partition)

/-- What a partition holds after the messages have been produced in this order. -/
def log (topic : GoString) (partition : Int32) (msgs : List PortaskMessage) : List KafkaMessage :=
  (msgs.filter (goesTo topic partition)).zipIdx.map (fun m => ⟨m.2, m.1.key, m.1.payload⟩)

theorem log_append_one (topic : GoString) (partition : Int32) (msgs : List PortaskMessage)
    (m : PortaskMessage) : log topic partition (msgs ++ [m]) =
      if m.topic = topic ∧ m.partition = partition then
        log topic partition msgs ++ [⟨(log topic partition msgs).length, m.key, m.payload⟩]
      else log topic partition msgs := by
  by_cases here : m.topic = topic ∧ m.partition = partition <;>
    simp [log, goesTo, here, List.zipIdx_append]

theorem filter_getElem {α : Type} {p : α → Bool} {l : List α} {k : Nat} {x : α}
    (found : l[k]? = some x)
    (chosen : p x = true) : (l.filter p)[(l.take k).countP p]? = some x := by
  obtain ⟨below, rfl⟩ := List.getElem?_eq_some_iff.mp found
  have apart : l.filter p = (l.take k).filter p ++ l[k] :: (l.drop (k + 1)).filter p := by
    rw [← List.filter_cons_of_pos chosen, ← List.filter_append, List.getElem_cons_drop,
      List.take_append_drop]
  rw [apart, List.countP_eq_length_filter, List.getElem?_append_right (Nat.le_refl _), Nat.sub_self]
  rfl

/-- The messages before it in its partition give a message its offset. -/
theorem log_getElem (found : msgs[k]? = some m) (here : goesTo topic partition m = true) :
    (log topic partition msgs)[(msgs.take k).countP (goesTo topic partition)]? =
      some ⟨(msgs.take k).countP (goesTo topic partition), m.key, m.payload⟩ := by
  simp [log, filter_getElem found here]

/-- As long as every topic exists, the store has the writes without the buffer. -/
def Logged (writes buffer : List PortaskMessage) (s : InMemoryMessageStore) : Prop :=
  (∀ m ∈ writes, s.Has m.topic) → ∃ stored, writes = stored ++ buffer ∧
    ∀ topic partition, s.partitionOf topic partition = log topic partition stored

end InMemoryMessageStore

open InMemoryMessageStore

def inMemory : MessageStore InMemoryMessageStore Unit TopicNotFound :=
  ⟨fun s _ call => s.produceMessage call⟩

theorem has_produceAll (choice : Nat → Unit) (i : Nat) (batch : List PortaskMessage)
    (s : InMemoryMessageStore)
    (topic : GoString) : (inMemory.produceAll choice i batch s).1.Has topic ↔ s.Has topic := by
  induction batch generalizing i s with
  | nil => exact Iff.rfl
  | cons m rest ih =>
    rw [MessageStore.produceAll, ← has_produceMessage s (produceOf m) topic]
    cases called : inMemory.produceMessage s (choice i) (produceOf m) with
    | mk s' result =>
      have after : (s.produceMessage (produceOf m)).1 = s' := congrArg Prod.fst called
      rw [after]
      cases result with
      | ok offset => exact ih (i + 1) s'
      | error err => exact Iff.rfl

theorem has_upkeep (topic : GoString) (batchSize : Int) :
    BatchWriter.Upkeep (kafkaStorageAdapter inMemory) batchSize (fun _ _ => True)
    (fun _ _ s => s.Has topic) (fun _ _ s => s.Has topic) where
  pre has := has
  append _ has := has
  short has _ := has
  takes _ buffer choice _ _ := by
    intro s before
    have kept := (has_produceAll choice 0 buffer s topic).mpr (before.elim id id)
    simp only [kafkaStorageAdapter]
    cases called : inMemory.produceAll choice 0 buffer s with
    | mk s' err =>
      rw [called] at kept
      cases err <;> exact kept

theorem produceAll_logged (choice : Nat → Unit) (i : Nat) (has : ∀ m ∈ batch, s.Has m.topic)
    (logged : ∀ topic partition, s.partitionOf topic partition = log topic partition stored) :
    (inMemory.produceAll choice i batch s).2 = none ∧
      ∀ topic partition, (inMemory.produceAll choice i batch s).1.partitionOf topic partition =
        log topic partition (stored ++ batch) := by
  induction batch generalizing i s stored with
  | nil => exact ⟨rfl, by simpa [MessageStore.produceAll] using logged⟩
  | cons m rest ih =>
    have first : s.Has (produceOf m).topic := has m List.mem_cons_self
    have called : inMemory.produceMessage s (choice i) (produceOf m) =
        ((s.produceMessage (produceOf m)).1, .ok ((s.partitionOf m.topic m.partition).length : Int)) :=
      Prod.ext rfl (produceMessage_ok first)
    rw [MessageStore.produceAll, called, List.append_cons stored m rest]
    refine ih (i + 1) (fun m' later => ?_) (fun topic partition => ?_)
    · exact (has_produceMessage _ _ _).mpr (has m' (List.mem_cons_of_mem _ later))
    · rw [partitionOf_produceMessage first, log_append_one, logged]
      rfl

theorem inMemory_upkeep (batchSize : Int) :
    BatchWriter.Upkeep (kafkaStorageAdapter inMemory) batchSize
    (fun _ _ => True) Logged Logged where
  pre logged := logged
  append m logged has := by
    obtain ⟨stored, writes, same⟩ :=
      logged (fun m' inside => has m' (List.mem_append_left _ inside))
    exact ⟨stored, by rw [writes, List.append_assoc], same⟩
  short logged _ := logged
  takes writes buffer choice _ _ := by
    intro s before
    have logged : Logged writes buffer s := before.elim id id
    have kept := has_produceAll choice 0 buffer s
    simp only [kafkaStorageAdapter]
    cases called : inMemory.produceAll choice 0 buffer s with
    | mk s' err =>
      rw [called] at kept
      -- if every topic exists then the whole batch goes in
      have whole (has : ∀ m ∈ writes, s'.Has m.topic) : err = none ∧ ∃ stored, writes = stored ++ [] ∧
          ∀ topic partition, s'.partitionOf topic partition = log topic partition stored := by
        obtain ⟨stored, together, same⟩ := logged (fun m inside => (kept m.topic).mp (has m inside))
        have produced := produceAll_logged choice 0
          (fun m inside => (kept m.topic).mp (has m (together ▸ List.mem_append_right _ inside))) same
        rw [called] at produced
        exact ⟨produced.1, writes, (List.append_nil _).symm, together ▸ produced.2⟩
      cases err with
      | none => exact fun has => (whole has).2
      | some err => exact fun has => absurd (whole has).1 (Option.some_ne_none err)

end Portask.Kafka
