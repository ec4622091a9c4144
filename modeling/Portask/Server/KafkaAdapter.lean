import Portask.Lib.Machine
import Portask.Kafka.ProcessorBridge
import Mathlib.Data.List.AList
import Mathlib.Data.Set.Finite.Basic

/-! # The server's Kafka adapter

`cmd/server` serves Kafka clients from a map of messages by ID. A produce invents an ID from
the clock and answers with a later reading of it. A fetch ignores the offset it is asked for:
it takes up to a hundred messages of the topic in the order in which the map is visited, and
numbers them from the asked offset on. So an offset says nothing about the message it comes
with.

What `Publish` of the message bus returns is only logged, and nothing here reads the bus.
-/

namespace Portask.Server

open Lib Portask.Types Kafka

/-- Of the store, the messages. They are stored under their IDs. -/
structure InMemoryStore where
  messages : AList fun _ : GoString => PortaskMessage
  keyed : ∀ id m, messages.lookup id = some m → m.id = id

/-- An order in which a `range` visits the keys of a map. -/
structure Order where
  arrange : List GoString → List GoString
  perm : ∀ keys, (arrange keys).Perm keys

namespace InMemoryStore

def newInMemoryStore : InMemoryStore := ⟨∅, by simp⟩

def store (s : InMemoryStore) (message : PortaskMessage) : InMemoryStore where
  messages := s.messages.insert message.id message
  keyed id m found := by
    by_cases here : id = message.id
    · subst here
      rw [AList.lookup_insert, Option.some_inj] at found
      rw [found]
    · rw [AList.lookup_insert_ne here] at found
      exact s.keyed id m found

/-- The loop of `Fetch`, with the messages it has taken so far. -/
def collect (topic : GoString) (limit : Int) : List PortaskMessage → List PortaskMessage →
    List PortaskMessage
  | taken, [] => taken
  | taken, msg :: rest =>
    if msg.topic = topic then
      if limit ≤ (taken ++ [msg]).length then taken ++ [msg]
      else collect topic limit (taken ++ [msg]) rest
    else collect topic limit taken rest

def fetch (s : InMemoryStore) (order : Order) (topic : GoString) (_partition : Int32)
    (_offset : Int64) (limit : Int) : List PortaskMessage :=
  collect topic limit [] ((order.arrange s.messages.keys).filterMap s.messages.lookup)

theorem collect_front (topic : GoString) (limit : Int) (taken msgs : List PortaskMessage) :
    ∃ more, collect topic limit taken msgs = taken ++ more := by
  induction msgs generalizing taken with
  | nil => exact ⟨[], (List.append_nil taken).symm⟩
  | cons msg rest ih =>
    rw [collect]
    split_ifs with here full
    · exact ⟨[msg], rfl⟩
    · obtain ⟨more, later⟩ := ih (taken ++ [msg])
      exact ⟨msg :: more, by rw [later, List.append_assoc, List.singleton_append]⟩
    · exact ih taken

end InMemoryStore

/-- The readings of the clock in a produce, in nanoseconds but for `stamped`. -/
structure Readings where
  named : Nat
  stamped : Int
  returned : Nat

def messageID (now : Readings) : GoString := ascii "kafka-" ++ GoString.decimal now.named

structure Message where
  offset : Int64
  key : GoString
  value : Bytes
  timestamp : Int
  deriving DecidableEq

namespace InMemoryStore

def produceMessage (s : InMemoryStore) (call : Produce) (now : Readings) : InMemoryStore × Int64 :=
  (s.store
    { id := messageID now, topic := call.topic, timestamp := now.stamped, payload := call.value },
    Int64.ofNat now.returned)

def consumeMessages (s : InMemoryStore) (order : Order) (topic : GoString) (partition : Int32)
    (offset : Int64) (_maxBytes : Int32) : List Message :=
  (s.fetch order topic partition offset 100).mapIdx fun i msg =>
    ⟨Int64.ofNat i + offset, msg.id, msg.payload, msg.timestamp⟩

inductive Call where
  | produceMessage (call : Produce) (now : Readings)
  | consumeMessages (topic : GoString) (partition : Int32) (offset : Int64) (maxBytes : Int32)
    (order : Order)

inductive Answer where
  | produced (offset : Int64)
  | consumed (messages : List Message)
  deriving DecidableEq

def adapterCalls : Object InMemoryStore Call Answer where
  apply s call := match call with
    | .produceMessage call now =>
      ((s.produceMessage call now).1, .produced (s.produceMessage call now).2)
    | .consumeMessages topic partition offset maxBytes order =>
      (s, .consumed (s.consumeMessages order topic partition offset maxBytes))

/-- A produce does not overwrite a message, so that an ID stands for one message. -/
def Unused (s : InMemoryStore) : Call → Prop
  | .produceMessage _ now => messageID now ∉ s.messages
  | .consumeMessages _ _ _ _ _ => True

/-- Some fetch of the run gives the message with this ID this offset. -/
def Carries (s : InMemoryStore) (calls : List Call) (topic id : GoString) (offset : Int64) : Prop :=
  ∃ entry ∈ calls.zip (adapterCalls.run s calls).2, ∃ partition asked maxBytes order messages,
    entry = (.consumeMessages topic partition asked maxBytes order, .consumed messages) ∧
    ∃ m ∈ messages, m.key = id ∧ m.offset = offset

/-- Some produce of the run made the message with this ID and returned this offset. -/
def Returns (s : InMemoryStore) (calls : List Call) (topic id : GoString) (offset : Int64) : Prop :=
  ∃ entry ∈ calls.zip (adapterCalls.run s calls).2, ∃ call now,
    entry = (.produceMessage call now, .produced offset) ∧ call.topic = topic ∧ messageID now = id

def Stable (s : InMemoryStore) (topic : GoString) : Prop :=
  ∀ calls, adapterCalls.Along Unused s calls → ∀ id offset₁ offset₂,
    Carries s calls topic id offset₁ → Carries s calls topic id offset₂ → offset₁ = offset₂

def Distinct (s : InMemoryStore) (topic : GoString) : Prop :=
  ∀ calls, adapterCalls.Along Unused s calls → ∀ id₁ id₂ offset₁ offset₂, id₁ ≠ id₂ →
    Carries s calls topic id₁ offset₁ → Carries s calls topic id₂ offset₂ → offset₁ ≠ offset₂

def AsReturned (s : InMemoryStore) (topic : GoString) : Prop :=
  ∀ calls, adapterCalls.Along Unused s calls → ∀ id returned offset,
    Returns s calls topic id returned → Carries s calls topic id offset → returned = offset

/-- What a consumer receives in `n` fetches, each from one past the last offset before it. -/
def poll (s : InMemoryStore) (topic : GoString) (partition : Int32) (maxBytes : Int32) :
    (orders : Nat → Order) → (n : Nat) → (start : Int64) → List Message
  | _, 0, _ => []
  | orders, n + 1, start =>
    let messages := s.consumeMessages (orders 0) topic partition start maxBytes
    let next := match messages.getLast? with
      | some m => m.offset + 1
      | none => start
    messages ++ poll s topic partition maxBytes (fun i => orders (i + 1)) n next

/-- After any run, enough fetches receive every message of the topic, and further ones do not
    receive it again. -/
def ExactlyOnce (s : InMemoryStore) (topic : GoString) : Prop :=
  ∀ calls, adapterCalls.Along Unused s calls →
    let t := (adapterCalls.run s calls).1
    ∀ partition maxBytes orders id m, t.messages.lookup id = some m → m.topic = topic →
      ∃ enough, ∀ n, enough ≤ n →
        ((t.poll topic partition maxBytes orders n 0).map (·.key)).count id = 1

/-- Visits `id` before all other keys. -/
def first (id : GoString) : Order where
  arrange keys := if id ∈ keys then id :: keys.erase id else keys
  perm keys := by
    split_ifs with inside
    · exact (List.perm_cons_erase inside).symm
    · rfl

variable {s : InMemoryStore} {m : PortaskMessage} {id : GoString}

theorem consumeMessages_first (found : s.messages.lookup id = some m) (partition : Int32)
    (offset : Int64) (maxBytes : Int32) :
    ∃ later, s.consumeMessages (first id) m.topic partition offset maxBytes =
      ⟨offset, id, m.payload, m.timestamp⟩ :: later := by
  have inside : id ∈ s.messages.keys :=
    AList.mem_keys.mp (AList.lookup_isSome.mp (by rw [found]; rfl))
  have visited : ((first id).arrange s.messages.keys).filterMap s.messages.lookup =
      m :: (s.messages.keys.erase id).filterMap s.messages.lookup := by
    simp only [first, if_pos inside, List.filterMap_cons, found]
  obtain ⟨more, taken⟩ :=
    collect_front m.topic 100 [m] ((s.messages.keys.erase id).filterMap s.messages.lookup)
  have fetched : s.fetch (first id) m.topic partition offset 100 = m :: more := by
    rw [fetch, visited, collect, if_pos rfl, List.nil_append, List.length_singleton,
      if_neg (by decide), taken, List.singleton_append]
  have start : Int64.ofNat 0 + offset = offset := Int64.zero_add offset
  rw [consumeMessages, fetched, List.mapIdx_cons, s.keyed id m found, start]
  exact ⟨_, rfl⟩

/-- A fetch gives the message it visits first the offset it asks for. -/
theorem carries_first (before after : List Call)
    (found : (adapterCalls.run s before).1.messages.lookup id = some m) (offset : Int64) :
    Carries s (before ++ .consumeMessages m.topic 0 offset 0 (first id) :: after)
      m.topic id offset := by
  obtain ⟨later, consumed⟩ := consumeMessages_first found 0 offset 0
  refine ⟨(.consumeMessages m.topic 0 offset 0 (first id),
    .consumed (⟨offset, id, m.payload, m.timestamp⟩ :: later)), ?_,
    0, offset, 0, first id, _, rfl, _, List.mem_cons_self, rfl, rfl⟩
  rw [Object.answers_append, List.zip_append (Object.length_run ..).symm, Object.run_cons,
    List.zip_cons_cons]
  refine List.mem_append_right _ (List.mem_cons.mpr (.inl ?_))
  rw [← consumed]
  rfl

def readings (n : Nat) : Readings := ⟨n, 0, n⟩

theorem messageID_injective : Function.Injective fun n => messageID (readings n) := by
  intro m n same
  exact GoString.decimal_injective (List.append_cancel_left same)

theorem exists_unused (s : InMemoryStore) : ∃ n, messageID (readings n) ∉ s.messages := by
  obtain ⟨_, ⟨n, rfl⟩, out⟩ :=
    (Set.infinite_range_of_injective messageID_injective).exists_notMem_finset
      s.messages.keys.toFinset
  exact ⟨n, fun inside => out (List.mem_toFinset.mpr (AList.mem_keys.mp inside))⟩

/-- A produce to the topic at this time, and the message it stores. -/
def produceAt (topic : GoString) (n : Nat) : Call :=
  .produceMessage ⟨topic, 0, [], some []⟩ (readings n)

def messageAt (topic : GoString) (n : Nat) : PortaskMessage :=
  { id := messageID (readings n), topic := topic, timestamp := 0, payload := some [] }

section

variable (s : InMemoryStore)

variable (topic : GoString)

theorem lookup_produceAt (n : Nat) (id : GoString) :
    (adapterCalls.apply s (produceAt topic n)).1.messages.lookup id =
      if id = messageID (readings n) then some (messageAt topic n) else s.messages.lookup id := by
  split_ifs with here
  · subst here
    exact AList.lookup_insert s.messages
  · exact AList.lookup_insert_ne here

theorem not_stable : ¬ Stable s topic := by
  intro stable
  obtain ⟨n, unused⟩ := exists_unused s
  have found := lookup_produceAt s topic n (messageID (readings n))
  rw [if_pos rfl] at found
  let fetch (offset : Int64) : Call :=
    .consumeMessages topic 0 offset 0 (first (messageID (readings n)))
  have zero := carries_first [produceAt topic n] [fetch 1] found 0
  have one := carries_first [produceAt topic n, fetch 0] [] found 1
  have same :=
    stable [produceAt topic n, fetch 0, fetch 1] ⟨unused, trivial, trivial, trivial⟩ _ _ _ zero one
  exact absurd same (by decide)

theorem not_distinct : ¬ Distinct s topic := by
  intro distinct
  obtain ⟨n₁, unused₁⟩ := exists_unused s
  obtain ⟨n₂, unused₂⟩ := exists_unused (adapterCalls.apply s (produceAt topic n₁)).1
  have differ : messageID (readings n₁) ≠ messageID (readings n₂) := fun same =>
    unused₂ (same ▸ (AList.mem_insert _).mpr (.inl rfl))
  let both := [produceAt topic n₁, produceAt topic n₂]
  have found (id : GoString) : (adapterCalls.run s both).1.messages.lookup id =
      if id = messageID (readings n₂) then some (messageAt topic n₂)
      else if id = messageID (readings n₁) then some (messageAt topic n₁) else s.messages.lookup id := by
    rw [← lookup_produceAt s, ← lookup_produceAt]
    rfl
  have found₁ := found (messageID (readings n₁))
  have found₂ := found (messageID (readings n₂))
  rw [if_neg differ, if_pos rfl] at found₁
  rw [if_pos rfl] at found₂
  let fetch (n : Nat) : Call := .consumeMessages topic 0 0 0 (first (messageID (readings n)))
  have zero₁ := carries_first both [fetch n₂] found₁ 0
  have zero₂ := carries_first (both ++ [fetch n₁]) [] found₂ 0
  exact distinct (both ++ [fetch n₁, fetch n₂]) ⟨unused₁, unused₂, trivial, trivial,
    trivial⟩ _ _ _ _ differ zero₁ zero₂ rfl

theorem not_asReturned : ¬ AsReturned s topic := by
  intro asReturned
  obtain ⟨n, unused⟩ := exists_unused s
  have found := lookup_produceAt s topic n (messageID (readings n))
  rw [if_pos rfl] at found
  let fetch : Call :=
    .consumeMessages topic 0 (Int64.ofNat n + 1) 0 (first (messageID (readings n)))
  have returns : Returns s [produceAt topic n, fetch] topic (messageID (readings n))
      (Int64.ofNat n) :=
    ⟨_, List.mem_cons_self, _, _, rfl, rfl, rfl⟩
  have carried := carries_first [produceAt topic n] [] found (Int64.ofNat n + 1)
  have same :=
    asReturned [produceAt topic n, fetch] ⟨unused, trivial, trivial⟩ _ _ _ returns carried
  exact absurd (Int64.left_eq_add.mp same) (by decide)

end

theorem le_count_poll (found : s.messages.lookup id = some m) (n : Nat) (start : Int64) :
    n ≤ ((s.poll m.topic 0 0 (fun _ => first id) n start).map (·.key)).count id := by
  induction n generalizing start with
  | zero => exact Nat.zero_le _
  | succ n ih =>
    obtain ⟨later, consumed⟩ := consumeMessages_first found 0 start 0
    rw [poll, consumed, List.map_append, List.count_append, List.map_cons, List.count_cons_self]
    rw [Nat.add_comm]
    exact Nat.add_le_add (Nat.le_add_left 1 _) (ih _)

theorem not_exactlyOnce (s : InMemoryStore) (topic : GoString) : ¬ ExactlyOnce s topic := by
  intro once
  obtain ⟨n, unused⟩ := exists_unused s
  have found := lookup_produceAt s topic n (messageID (readings n))
  rw [if_pos rfl] at found
  obtain ⟨enough, received⟩ :=
    once [produceAt topic n] ⟨unused, trivial⟩ 0 0
      (fun _ => first (messageID (readings n))) _ _ found rfl
  have counted := received (enough + 2) (Nat.le_add_right ..)
  have twice := le_count_poll found (enough + 2) 0
  exact absurd (counted ▸ twice) (by omega)

/-- Whatever the store holds, and for every topic, there are runs in which a message is given
    two offsets, two messages are given one offset, a message is given another offset than its
    produce returned, and a polling consumer receives a message again with every fetch. -/
theorem offsets_mean_nothing (s : InMemoryStore) (topic : GoString) :
    ¬ Stable s topic ∧ ¬ Distinct s topic ∧ ¬ AsReturned s topic ∧ ¬ ExactlyOnce s topic :=
  ⟨not_stable s topic, not_distinct s topic, not_asReturned s topic, not_exactlyOnce s topic⟩

/-- The message that `kafka-7` names is fetched twice by a consumer that goes on from one past
    the last offset, and no offset is the one its produce returned. -/
theorem one_message_at_two_offsets : let order := first (ascii "kafka-7")
    (adapterCalls.run newInMemoryStore
      [.produceMessage ⟨ascii "t", 0, [], some [1]⟩ ⟨7, 0, 8⟩,
        .consumeMessages (ascii "t") 0 0 100 order, .consumeMessages (ascii "t") 0 1 100 order]).2 =
      [.produced 8, .consumed [⟨0, ascii "kafka-7", some [1], 0⟩],
        .consumed [⟨1, ascii "kafka-7", some [1], 0⟩]] := by
  decide +kernel

end InMemoryStore

end Portask.Server
