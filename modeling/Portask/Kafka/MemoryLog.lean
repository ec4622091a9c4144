import Portask.Kafka.MemoryTopics
import Portask.Lib.Budget

/-! # The partitions of the store in memory as logs

Over any order of calls that create and delete topics and produce messages, a partition has
the messages that were produced to it since its topic was created last, and each carries the
offset that its call returned, which is its place. A fetch gives the longest run of messages
within its byte limit, but at least one message where there is one. The limit is compared in
32 bits, so the values of a partition must take less than 2 GiB.
-/

namespace Portask.Kafka

open Lib

def KafkaMessage.size (m : KafkaMessage) : Nat := (m.value.getD []).length

namespace InMemoryMessageStore

inductive StoreCall where
  | createTopic (topic : GoString) (partitions : Int32) (replication : Int16)
  | produceMessage (call : Produce)
  | deleteTopic (topic : GoString)

/-- A call returns the offset of a message that was produced. The mutex makes every call one
    step. -/
def storeCalls : Object InMemoryMessageStore StoreCall (Except TopicNotFound (Option Int)) where
  apply s call := match call with
    | .createTopic topic partitions _ => (s.createTopic topic partitions, .ok none)
    | .produceMessage call => ((s.produceMessage call).1, (s.produceMessage call).2.map some)
    | .deleteTopic topic => (s.deleteTopic topic, .ok none)

structure Returned where
  call : Produce
  offset : Int

/-- The calls that have produced to a partition since its topic was deleted last. -/
abbrev History := GoString → Int32 → List Returned

def History.follow (s : InMemoryMessageStore) (call : StoreCall) (history : History) : History :=
  match call with
  | .createTopic _ _ _ => history
  | .produceMessage call => match (s.produceMessage call).2 with
      | .error _ => history
      | .ok offset => fun topic partition =>
        if call.topic = topic ∧ call.partition = partition then history topic partition ++ [⟨call, offset⟩]
        else history topic partition
  | .deleteTopic deleted =>
    fun topic partition => if topic = deleted then [] else history topic partition

/-- The messages of a partition are those of the calls, each with its place as its offset. -/
def Logs (s : InMemoryMessageStore × History) : Prop :=
  ∀ topic partition,
    (s.2 topic partition).map (·.offset) = (List.range (s.2 topic partition).length).map Int.ofNat ∧
    s.1.partitionOf topic partition =
      (s.2 topic partition).zipIdx.map fun entry => ⟨entry.2, entry.1.call.key, entry.1.call.value⟩

theorem partitionOf_deleteTopic (s : InMemoryMessageStore) (deleted topic : GoString)
    (partition : Int32) : (s.deleteTopic deleted).partitionOf topic partition =
      if topic = deleted then [] else s.partitionOf topic partition := by
  by_cases same : topic = deleted
  · subst same
    simp [deleteTopic, partitionOf]
  · simp [deleteTopic, partitionOf, same]

variable {s : InMemoryMessageStore}

theorem produceMessage_of_not_has (absent : ¬ s.Has call.topic) :
    s.produceMessage call = (s, .error ⟨call.topic⟩) := by
  rw [Has, Option.isSome_iff_ne_none, not_not] at absent
  rw [produceMessage, absent]

theorem Logs.produces (logs : Logs (s, history)) (call : Produce) :
    Logs ((s.produceMessage call).1, History.follow s (.produceMessage call) history) := by
  by_cases has : s.Has call.topic
  · intro topic partition
    obtain ⟨offsets, messages⟩ := logs topic partition
    have length : (s.partitionOf topic partition).length = (history topic partition).length := by
      simp [messages]
    dsimp only at offsets messages ⊢
    rw [partitionOf_produceMessage has, History.follow, produceMessage_ok has]
    dsimp only
    by_cases here : call.topic = topic ∧ call.partition = partition
    · obtain ⟨rfl, rfl⟩ := here
      rw [if_pos ⟨rfl, rfl⟩, if_pos ⟨rfl, rfl⟩, length]
      constructor
      · rw [List.map_append, offsets, List.length_append, List.length_singleton, List.range_succ, List.map_append]
        rfl
      · rw [List.zipIdx_append, List.map_append, ← messages]
        simp
    · rw [if_neg here, if_neg here]
      exact ⟨offsets, messages⟩
  · rw [History.follow, produceMessage_of_not_has has]
    exact logs

theorem Logs.step (logs : Logs (s, history)) (call : StoreCall) :
    Logs ((storeCalls.tracking History.follow).apply (s, history) call).1 := by
  cases call with
  | createTopic topic partitions replication =>
    intro asked partition
    obtain ⟨offsets, messages⟩ := logs asked partition
    exact ⟨offsets, (partitionOf_createTopic s topic partitions asked partition).trans messages⟩
  | produceMessage call => exact logs.produces call
  | deleteTopic deleted =>
    intro topic partition
    obtain ⟨offsets, messages⟩ := logs topic partition
    have emptied := partitionOf_deleteTopic s deleted topic partition
    by_cases same : topic = deleted
    · rw [if_pos same] at emptied
      simp [Object.tracking, storeCalls, History.follow, same, same ▸ emptied]
    · rw [if_neg same] at emptied
      simp only [Object.tracking, storeCalls, History.follow, if_neg same]
      exact ⟨offsets, emptied.trans messages⟩

/-- Behind a first message the loop takes what fits. -/
theorem collect_eq (some : result ≠ []) (small : taken + load KafkaMessage.size msgs < 2 ^ 31) :
    collect maxBytes (Int32.ofNat taken) result msgs =
      result ++ within KafkaMessage.size (maxBytes.toInt - taken) msgs := by
  induction msgs generalizing taken result with
  | nil => simp [collect, within]
  | cons m rest ih =>
    rw [load_cons] at small
    have filled : result.length > 0 := List.length_pos_iff.mpr some
    have size : Int32.ofNat taken + Int32.ofNat (m.value.getD []).length = Int32.ofNat (taken + m.size) :=
      (Int32.ofNat_add taken m.size).symm
    have sum : (Int32.ofNat (taken + m.size)).toInt = (taken + m.size : Nat) :=
      Int32.toInt_ofNat_of_lt (by omega)
    rw [collect, size, within]
    by_cases fits : (m.size : Int) ≤ maxBytes.toInt - taken
    · have under : ¬ (Int32.ofNat (taken + m.size) > maxBytes ∧ result.length > 0) := by
        rw [gt_iff_lt, Int32.lt_iff_toInt_lt, sum]
        omega
      have left : maxBytes.toInt - (taken + m.size : Nat) = maxBytes.toInt - taken - m.size := by omega
      rw [if_pos fits, if_neg under, ih (by simp) (by omega), left, List.append_assoc,
        List.singleton_append]
    · have above : Int32.ofNat (taken + m.size) > maxBytes ∧ result.length > 0 := by
        rw [gt_iff_lt, Int32.lt_iff_toInt_lt, sum]
        exact ⟨by omega, filled⟩
      rw [if_neg fits, if_pos above, List.append_nil]

structure Fetched (maxBytes : Int32) (messages result : List KafkaMessage) : Prop where
  none : messages = [] → result = []
  fitting : ∀ first rest, messages = first :: rest → first.size ≤ maxBytes.toInt →
    Longest KafkaMessage.size maxBytes.toInt messages result
  large : ∀ first rest, messages = first :: rest → ¬ first.size ≤ maxBytes.toInt → result = [first]

theorem Fetched.empty (maxBytes : Int32) : Fetched maxBytes [] [] where
  none _ := rfl
  fitting := by simp
  large := by simp

theorem collect_fetched (maxBytes : Int32) (small : load KafkaMessage.size messages < 2 ^ 31) :
    Fetched maxBytes messages (collect maxBytes 0 [] messages) := by
  cases messages with
  | nil => exact .empty maxBytes
  | cons m rest =>
    rw [load_cons] at small
    have first : ¬ ((0 : Int32) + Int32.ofNat (m.value.getD []).length > maxBytes ∧
        ([] : List KafkaMessage).length > 0) :=
      fun above => absurd above.2 (by simp)
    have size : (0 : Int32) + Int32.ofNat (m.value.getD []).length = Int32.ofNat m.size :=
      Int32.zero_add _
    have taken : collect maxBytes 0 [] (m :: rest) = m ::
        within KafkaMessage.size (maxBytes.toInt - m.size) rest := by
      rw [collect, if_neg first, size, List.nil_append, collect_eq (by simp) small, List.singleton_append]
    rw [taken]
    refine ⟨by simp, ?_, ?_⟩
    · rintro _ _ ⟨⟩ fits
      have whole : Longest KafkaMessage.size maxBytes.toInt (m :: rest) _ :=
        within_longest (by omega) (m :: rest)
      rwa [within, if_pos fits] at whole
    · rintro _ _ ⟨⟩ larger
      have nothing : within KafkaMessage.size (maxBytes.toInt - m.size) rest = [] := by
        cases rest with
        | nil => rfl
        | cons next rest => rw [within, if_neg (by omega)]
      rw [nothing]

theorem consumeMessages_fetched (has : s.Has topic)
    (small : load KafkaMessage.size (s.partitionOf topic partition) < 2 ^ 31) (offset : Nat)
    (maxBytes : Int32) :
    ∃ result, s.consumeMessages topic partition offset maxBytes = some (.ok result) ∧
      Fetched maxBytes ((s.partitionOf topic partition).drop offset) result := by
  obtain ⟨t, found⟩ := Option.isSome_iff_exists.mp has
  have messages : s.partitionOf topic partition = (t partition).getD [] := by
    simp [partitionOf, found]
  rw [messages] at small ⊢
  simp only [consumeMessages, found]
  by_cases past : (((t partition).getD []).length : Int) ≤ offset
  · have nothing : ((t partition).getD []).drop offset = [] := List.drop_of_length_le (by omega)
    rw [if_pos past, nothing]
    exact ⟨[], rfl, .empty maxBytes⟩
  · rw [if_neg past, if_neg (by omega), Int.toNat_natCast]
    exact ⟨_, rfl, collect_fetched maxBytes (Nat.lt_of_le_of_lt (load_drop_le _ _ _) small)⟩

theorem partitions_are_logs (calls : List StoreCall) (topic : GoString) (partition : Int32) :
    let s :=
      ((storeCalls.tracking History.follow).run (newInMemoryMessageStore, fun _ _ => []) calls).1
    (s.1.partitionOf topic partition).length = (s.2 topic partition).length ∧
    (∀ (i : Nat) (m : KafkaMessage), (s.1.partitionOf topic partition)[i]? = some m →
      ∃ returned : Returned, (s.2 topic partition)[i]? = some returned ∧ m.offset = i ∧
        returned.offset = i ∧ m.key = returned.call.key ∧ m.value = returned.call.value) ∧
    (s.1.Has topic → load KafkaMessage.size (s.1.partitionOf topic partition) < 2 ^ 31 →
      ∀ (offset : Nat) (maxBytes : Int32), ∃ result,
        s.1.consumeMessages topic partition offset maxBytes = some (.ok result) ∧
          Fetched maxBytes ((s.1.partitionOf topic partition).drop offset) result) ∧
    (¬ s.1.Has topic → ∀ (offset : Nat) (maxBytes : Int32),
      s.1.consumeMessages topic partition offset maxBytes = some (.error ⟨topic⟩)) := by
  intro s
  have logs : Logs s :=
    Object.run_invariant (fun s call logs _ => Logs.step logs call) (fun _ _ => ⟨rfl, rfl⟩)
      (Object.along_true _ calls)
  obtain ⟨offsets, messages⟩ := logs topic partition
  refine ⟨by simp [messages], fun i m found => ?_, fun has small offset maxBytes =>
    ?_, fun absent offset maxBytes => ?_⟩
  · rw [messages, List.getElem?_map, Option.map_eq_some_iff] at found
    obtain ⟨⟨returned, place⟩, entry, rfl⟩ := found
    obtain ⟨here, rfl⟩ : (s.2 topic partition)[i]? = some returned ∧ i = place := by
      simpa [List.getElem?_zipIdx] using entry
    have offset : ((s.2 topic partition).map (·.offset))[i]? = some returned.offset := by
      simp [here]
    obtain ⟨below, -⟩ := List.getElem?_eq_some_iff.mp here
    rw [offsets, List.getElem?_map, List.getElem?_range below] at offset
    exact ⟨returned, here, rfl, (Option.some.inj offset).symm, rfl, rfl⟩
  · exact consumeMessages_fetched has small offset maxBytes
  · rw [Has, Option.isSome_iff_ne_none, not_not] at absent
    rw [consumeMessages, absent]

end InMemoryMessageStore

end Portask.Kafka
