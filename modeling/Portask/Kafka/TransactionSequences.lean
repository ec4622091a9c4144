import Portask.Kafka.Transactions
import Mathlib.Data.List.Chain

/-! # Sequence numbers of transactional messages

Every message that a producer buffers takes the next number of its topic-partition. The
batches that have been handed to `sendBatch`, followed by the one that is buffered, number all
messages of a topic-partition from zero on, whatever transactions they belong to. Numbers are
of 32 bits and wrap around.
-/

namespace Portask.Kafka

open Lib

structure ProducerBatch.Numbered (batch : ProducerBatch) : Prop where
  filled : batch.messages ≠ []
  sequences : ∀ (i : Nat) message, batch.messages[i]? = some message →
    message.sequence = batch.firstSequence + Int32.ofNat i
  last : batch.messages.getLast?.map (·.sequence) = some batch.lastSequence

/-- Batches of one topic-partition, and the number its next message will get. -/
structure Successive (batches : List ProducerBatch) (next : Int32) : Prop where
  numbered : ∀ batch ∈ batches, batch.Numbered
  continued : batches.IsChain fun batch later => later.firstSequence = batch.lastSequence + 1
  final : ∀ batch, batches.getLast? = some batch → next = batch.lastSequence + 1
  fromZero : ∃ n, ((batches.flatMap (·.messages)).map (·.sequence)) =
    (List.range n).map Int32.ofNat ∧
    next = Int32.ofNat n

/-- The batches that have been handed to `sendBatch`, by topic-partition. -/
abbrev Handed := TopicPartition → List ProducerBatch

/-- A flush hands over every batch. The order in which it ranges over them matters to no
    topic-partition. -/
def TransactionalProducer.handOver (tp : TransactionalProducer) (call : TransactionCall)
    (handed : Handed) : Handed :=
  match call with
  | .flushTransaction =>
    fun topicPartition => handed topicPartition ++ (tp.batches.lookup topicPartition).toList
  | _ => handed

/-- All batches of a topic-partition there have been. -/
def batchesOf (s : TransactionalProducer × Handed) (topicPartition : TopicPartition) :
    List ProducerBatch :=
  s.2 topicPartition ++ (s.1.batches.lookup topicPartition).toList

theorem int32_ofNat_succ (n : Nat) : Int32.ofNat (n + 1) = Int32.ofNat n + 1 := by
  rw [Int32.ofNat_add]
  rfl

namespace ProducerBatch.Numbered

variable {batch : ProducerBatch} {message : TransactionalMessage}

theorem length_pos (numbered : batch.Numbered) : 0 < batch.messages.length :=
  List.length_pos_iff.mpr numbered.filled

theorem last_succ (numbered : batch.Numbered) :
    batch.lastSequence + 1 = batch.firstSequence + Int32.ofNat batch.messages.length := by
  obtain ⟨message, final, same⟩ := Option.map_eq_some_iff.mp numbered.last
  rw [List.getLast?_eq_getElem?] at final
  have count : batch.messages.length = batch.messages.length - 1 + 1 := by
    have := numbered.length_pos
    omega
  rw [← same, numbered.sequences _ message final, count, int32_ofNat_succ, Int32.add_assoc,
    Nat.add_sub_cancel]

theorem add (numbered : batch.Numbered) (continues : message.sequence = batch.lastSequence + 1) :
    (batch.add message).Numbered where
  filled := by simp [ProducerBatch.add]
  sequences := by
    intro i found inside
    obtain ⟨-, old⟩ | ⟨rfl, rfl⟩ := getElem?_concat_cases inside
    · exact numbered.sequences i found old
    · rw [continues, numbered.last_succ]
      rfl
  last := by simp [ProducerBatch.add]

theorem single (empty : batch.messages = []) (first : message.sequence = batch.firstSequence) :
    (batch.add message).Numbered where
  filled := by simp [ProducerBatch.add]
  sequences := by
    intro i found inside
    simp only [ProducerBatch.add, empty, List.nil_append, List.getElem?_singleton] at inside
    split at inside
    · next here =>
        obtain rfl : message = found := by simpa using inside
        rw [here, first]
        simp [ProducerBatch.add]
    · simp at inside
  last := by simp [ProducerBatch.add]

end ProducerBatch.Numbered

namespace Successive

variable {batches : List ProducerBatch} {batch : ProducerBatch} {message : TransactionalMessage}
  {next : Int32}

theorem nil : Successive [] 0 where
  numbered := by simp
  continued := .nil
  final := by simp
  fromZero := ⟨0, rfl, rfl⟩

/-- One message more, at the end of the last batch. -/
theorem extend (successive : Successive before next) (earlier : ∀ other ∈ batches, other.Numbered)
    (whole : (batch.add message).Numbered) (numbers : message.sequence = next)
    (continued : (batches ++ [batch.add message]).IsChain fun batch later =>
      later.firstSequence = batch.lastSequence + 1)
    (messages : batches.flatMap (·.messages) ++ batch.messages = before.flatMap (·.messages)) :
    Successive (batches ++ [batch.add message]) (next + 1) where
  numbered := by
    intro other inside
    obtain inside | rfl : other ∈ batches ∨ other = batch.add message := by simpa using inside
    · exact earlier other inside
    · exact whole
  continued := continued
  final := by
    intro last found
    obtain rfl : batch.add message = last := by simpa using found
    rw [← numbers]
    rfl
  fromZero := by
    obtain ⟨n, sequences, count⟩ := successive.fromZero
    refine ⟨n + 1, ?_, by rw [count, int32_ofNat_succ]⟩
    rw [List.range_succ, List.map_append, ← sequences, ← messages]
    simp [ProducerBatch.add, numbers, count]

theorem add (successive : Successive (batches ++ [batch]) next)
    (numbers : message.sequence = next) :
    Successive (batches ++ [batch.add message]) (next + 1) := by
  have last := successive.final batch (by simp)
  refine successive.extend (fun other inside =>
    successive.numbered other (List.mem_append_left _ inside))
    ((successive.numbered batch (by simp)).add (numbers.trans last)) numbers ?_ (by simp)
  obtain ⟨before, -, meets⟩ := List.isChain_append.mp successive.continued
  refine List.isChain_append.mpr ⟨before, .singleton _, fun earlier last later first => ?_⟩
  obtain rfl : batch.add message = later := by simpa using first
  exact meets earlier last batch (by simp)

theorem start (successive : Successive batches next) (empty : batch.messages = [])
    (first : batch.firstSequence = next) (numbers : message.sequence = next) :
    Successive (batches ++ [batch.add message]) (next + 1) := by
  refine successive.extend successive.numbered (.single empty (numbers.trans first.symm)) numbers ?_
    (by simp [empty])
  refine List.isChain_append.mpr ⟨successive.continued, .singleton _,
    fun earlier last later head => ?_⟩
  obtain rfl : batch.add message = later := by simpa using head
  exact first.trans (successive.final earlier last)

end Successive

def Sequenced (s : TransactionalProducer × Handed) : Prop :=
  ∀ topicPartition, Successive (batchesOf s topicPartition) (s.1.sequenceNumbers topicPartition)

namespace Sequenced

variable {tp : TransactionalProducer} {handed : Handed}

variable (sequenced : Sequenced (tp, handed))
include sequenced

theorem quiet (batches : after.batches = tp.batches)
    (numbers : after.sequenceNumbers = tp.sequenceNumbers) : Sequenced (after, handed) := by
  intro topicPartition
  simpa only [batchesOf, batches, numbers] using sequenced topicPartition

theorem flush : Sequenced (tp.flushTransaction, tp.handOver .flushTransaction handed) := by
  intro topicPartition
  have same : batchesOf (tp.flushTransaction, tp.handOver .flushTransaction handed) topicPartition =
      batchesOf (tp, handed) topicPartition := by
    simp [batchesOf, TransactionalProducer.flushTransaction, TransactionalProducer.handOver]
  rw [same]
  exact sequenced topicPartition

theorem buffer (topicPartition : TopicPartition) (message : TransactionalMessage) :
    Sequenced (tp.buffer topicPartition message, handed) := by
  intro other
  by_cases here : other = topicPartition
  · subst here
    have before := sequenced other
    simp only [batchesOf, TransactionalProducer.buffer, TransactionalProducer.batchFor,
      AList.lookup_insert, Option.toList_some, Function.update_self] at before ⊢
    cases found : tp.batches.lookup other with
    | none =>
      rw [found, Option.toList_none, List.append_nil] at before
      exact before.start rfl rfl rfl
    | some batch =>
      rw [found, Option.toList_some] at before
      exact before.add rfl
  · simpa only [batchesOf, TransactionalProducer.buffer, AList.lookup_insert_ne here,
      Function.update_of_ne here] using sequenced other

theorem step (call : TransactionCall) :
    Sequenced
      ((transactions.tracking TransactionalProducer.handOver).apply (tp, handed) call).1 := by
  cases call with
  | initTransactions | beginTransaction | addPartitionsToTxn | commitTransaction | abortTransaction
  | cleanupExpiredTransactions => exact sequenced.quiet rfl rfl
  | flushTransaction => exact sequenced.flush
  | sendToTransaction topic partition message now =>
    -- A send that finds no record of the transaction fails, but it has buffered the message before.
    show Sequenced ((tp.sendToTransaction topic partition message now).1, handed)
    rw [TransactionalProducer.sendToTransaction]
    split
    · exact sequenced
    · exact (sequenced.buffer ⟨topic, partition⟩ message).quiet rfl rfl

end Sequenced

theorem sequences_continue (transactionalID : GoString) (timeout : Int)
    (calls : List TransactionCall) (topicPartition : TopicPartition) :
    let s := ((transactions.tracking TransactionalProducer.handOver).run
      (newTransactionalProducer transactionalID timeout, fun _ => []) calls).1
    (∀ batch, s.1.batches.lookup topicPartition = some batch →
      batch.Numbered ∧ s.1.sequenceNumbers topicPartition = batch.lastSequence + 1) ∧
    Successive (batchesOf s topicPartition) (s.1.sequenceNumbers topicPartition) := by
  intro s
  have sequenced : Sequenced s :=
    Object.run_invariant (fun s call sequenced _ => Sequenced.step sequenced call)
      (fun _ => Successive.nil) (Object.along_true _ calls)
  refine ⟨fun batch buffered => ?_, sequenced topicPartition⟩
  have last : (batchesOf s topicPartition).getLast? = some batch := by simp [batchesOf, buffered]
  exact ⟨(sequenced topicPartition).numbered batch (List.mem_of_getLast? last),
    (sequenced topicPartition).final batch last⟩

end Portask.Kafka
