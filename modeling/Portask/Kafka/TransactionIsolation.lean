import Portask.Kafka.Transactions

/-! # Messages of aborted transactions

`AbortTransaction` belongs to the manager and does not touch the batches of the producer. What
an aborted transaction has left in them goes out with the next flush. Nothing of the kind
happens where a transaction is aborted only after its messages have been flushed.
-/

namespace Portask.Kafka

open Lib TransactionManager

/-- A message as it was buffered, with the number of the transaction it was sent in. -/
structure SentMessage where
  transaction : Nat
  topicPartition : TopicPartition
  message : TransactionalMessage

/-- Transactions are numbered in the order in which they begin, and `begun` is the number of
    the last one. -/
structure Provenance where
  begun : Nat
  aborted : List Nat
  buffered : List SentMessage

def Provenance.initial : Provenance := ⟨0, [], []⟩

def TransactionalProducer.trace (tp : TransactionalProducer) (call : TransactionCall)
    (p : Provenance) : Provenance :=
  match call with
  | .beginTransaction start now =>
    if (tp.transactionManager.beginTransaction start now).2 = none then
      { p with begun := p.begun + 1 } else p
  | .sendToTransaction topic partition message _ =>
    if tp.transactionManager.state = .ongoing then
      { p with
        buffered := p.buffered ++ [⟨p.begun, ⟨topic, partition⟩,
          { message with sequence := tp.sequenceNumbers ⟨topic, partition⟩ }⟩] }
    else p
  | .flushTransaction => { p with buffered := [] }
  | .abortTransaction now =>
    if (tp.transactionManager.abortTransaction now).2 = none then
      { p with aborted := p.begun :: p.aborted } else p
  | _ => p

open TransactionalProducer

/-- A transaction that can be aborted, and that the coordinator has a record of, has nothing in the
    batches when it is. -/
def AbortsFlushed (s : TransactionalProducer × Provenance) (call : TransactionCall) : Prop :=
  match call with
  | .abortTransaction _ => s.1.transactionManager.state ∈ [.ongoing, .prepareCommit] ∧
      s.1.transactionManager.transaction.isSome = true →
        ∀ sent ∈ s.2.buffered, sent.transaction ≠ s.2.begun
  | _ => True

instance (s : TransactionalProducer × Provenance) (call : TransactionCall) :
    Decidable (AbortsFlushed s call) :=
  match call with
  | .abortTransaction _ => inferInstanceAs (Decidable (_ → _))
  | .initTransactions _ | .beginTransaction _ _ | .addPartitionsToTxn _ _
    | .sendToTransaction _ _ _ _
  | .flushTransaction | .commitTransaction _ | .cleanupExpiredTransactions _ _ => .isTrue trivial

/-- What a flush hands to `sendBatch` has been sent in transactions that have not been aborted. -/
def Isolated (s : TransactionalProducer × Provenance) (call : TransactionCall) : Prop :=
  call = .flushTransaction →
    (∀ topicPartition, (s.1.batches.lookup topicPartition).elim [] (·.messages) =
      (s.2.buffered.filter (·.topicPartition = topicPartition)).map (·.message)) ∧
    ∀ sent ∈ s.2.buffered, sent.transaction ∉ s.2.aborted

theorem of_abortTransaction (ok : (TransactionManager.abortTransaction tm now).2 = none) :
    tm.state ∈ [.ongoing, .prepareCommit] ∧ tm.transaction.isSome = true := by
  rw [abortTransaction] at ok
  split at ok
  · cases ok
  · next open_ =>
      refine ⟨by simpa [Classical.or_iff_not_imp_left] using open_, ?_⟩
      rw [transaction]
      cases found : tm.coordinator.transactions.lookup tm.transactionalID with
      | none => simp [TransactionCoordinator.endTransaction, found] at ok
      | some metadata => rfl

structure Attributed (s : TransactionalProducer × Provenance) : Prop where
  batched : ∀ topicPartition, (s.1.batches.lookup topicPartition).elim [] (·.messages) =
    (s.2.buffered.filter (·.topicPartition = topicPartition)).map (·.message)
  sent : ∀ sent ∈ s.2.buffered, sent.transaction ≤ s.2.begun
  ended : ∀ n ∈ s.2.aborted, n ≤ s.2.begun
  current : s.1.transactionManager.state = .ongoing → s.2.begun ∉ s.2.aborted
  kept : ∀ sent ∈ s.2.buffered, sent.transaction ∉ s.2.aborted

namespace Attributed

variable {tp : TransactionalProducer} {p : Provenance}

variable (attributed : Attributed (tp, p))
include attributed

/-- A call that leaves the batches alone and begins nothing. -/
theorem quiet (batches : after.batches = tp.batches)
    (state : after.transactionManager.state = .ongoing → tp.transactionManager.state = .ongoing) :
    Attributed (after, p) where
  batched := by simpa only [batches] using attributed.batched
  __ := attributed
  current := fun ongoing => attributed.current (state ongoing)

theorem begins (start now : Int) :
    Attributed ((tp.manage (tp.transactionManager.beginTransaction start now)).1,
      tp.trace (.beginTransaction start now) p) := by
  by_cases idle : tp.transactionManager.state = .empty
  · have moved : tp.trace (.beginTransaction start now) p = { p with begun := p.begun + 1 } := by
      simp [trace, beginTransaction_empty idle]
    rw [moved]
    exact {
      batched := attributed.batched
      sent := fun sent inside => Nat.le_succ_of_le (attributed.sent sent inside)
      ended := fun n inside => Nat.le_succ_of_le (attributed.ended n inside)
      current := fun _ inside => absurd (attributed.ended _ inside) (Nat.not_succ_le_self _)
      kept := attributed.kept }
  · have same : tp.trace (.beginTransaction start now) p = p := by
      simp [trace, beginTransaction_refused idle]
    rw [same, beginTransaction_refused idle]
    exact attributed

theorem sends (topic : GoString) (partition : Int32) (message : TransactionalMessage) (now : Int) :
    Attributed ((tp.sendToTransaction topic partition message now).1,
      tp.trace (.sendToTransaction topic partition message now) p) := by
  by_cases ongoing : tp.transactionManager.state = .ongoing
  · rw [trace, if_pos ongoing, sendToTransaction,
      if_neg (not_not.mpr ongoing)]
    exact {
      batched := by
        intro asked
        rw [List.filter_append, List.map_append, ← attributed.batched asked]
        simp only [buffer, batchFor]
        by_cases here : asked = ⟨topic, partition⟩
        · subst here
          cases found : tp.batches.lookup ⟨topic, partition⟩ with
          | none => simp [ProducerBatch.add]
          | some batch => simp [ProducerBatch.add]
        · have elsewhere : ¬ (⟨topic, partition⟩ : TopicPartition) = asked := fun same => here same.symm
          simp [AList.lookup_insert_ne here, elsewhere]
      sent := forall_mem_concat attributed.sent (Nat.le_refl _)
      ended := attributed.ended
      current := fun _ => attributed.current ongoing
      kept := forall_mem_concat attributed.kept (attributed.current ongoing) }
  · rw [trace, if_neg ongoing, sendToTransaction, if_pos ongoing]
    exact attributed

theorem flushes : Attributed (tp.flushTransaction, tp.trace .flushTransaction p) where
  __ := attributed
  batched := by simp [flushTransaction, trace]
  sent := by simp [trace]
  kept := by simp [trace]

theorem aborts (now : Int) (flushed : AbortsFlushed (tp, p) (.abortTransaction now)) :
    Attributed ((tp.manage (tp.transactionManager.abortTransaction now)).1, tp.trace (.abortTransaction now) p) := by
  obtain ⟨err, refused⟩ | ended := tp.transactionManager.abortTransaction_cases now
  · have same : tp.trace (.abortTransaction now) p = p := by simp [trace, refused]
    rw [same, refused]
    exact attributed
  · rw [trace]
    split
    · next ok =>
        exact {
          __ := attributed
          ended := fun n inside => (List.mem_cons.mp inside).elim Nat.le_of_eq (attributed.ended n)
          current := fun ongoing => absurd ongoing ended
          kept := fun sent inside found =>
            (List.mem_cons.mp found).elim (flushed (of_abortTransaction ok) sent inside) (attributed.kept sent inside) }
    · exact attributed.quiet rfl fun ongoing => absurd ongoing ended

theorem step (call : TransactionCall) (flushed : AbortsFlushed (tp, p) call) :
    Attributed ((transactions.tracking trace).apply (tp, p) call).1 := by
  cases call with
  | initTransactions now =>
    refine attributed.quiet rfl ?_
    show (tp.transactionManager.initTransactions now).1.state = .ongoing → _
    rw [initTransactions]
    split
    · exact id
    · simp
  | beginTransaction start now => exact attributed.begins start now
  | addPartitionsToTxn partitions now =>
    refine attributed.quiet rfl ?_
    show (tp.transactionManager.addPartitionsToTxn partitions now).1.state = .ongoing → _
    rw [addPartitionsToTxn]
    split
    · exact id
    · exact id
  | sendToTransaction topic partition message now =>
    exact attributed.sends topic partition message now
  | flushTransaction => exact attributed.flushes
  | commitTransaction now =>
    refine attributed.quiet rfl ?_
    show (tp.transactionManager.commitTransaction now).1.state = .ongoing → _
    intro ongoing
    by_contra idle
    rw [commitTransaction_refused idle] at ongoing
    exact idle ongoing
  | abortTransaction now => exact attributed.aborts now flushed
  | cleanupExpiredTransactions => exact attributed.quiet rfl id

end Attributed

theorem aborted_messages_stay (transactionalID : GoString) (timeout : Int)
    (calls : List TransactionCall) (flushed : (transactions.tracking trace).Along AbortsFlushed
      (newTransactionalProducer transactionalID timeout, .initial) calls) :
    (transactions.tracking trace).Along Isolated
      (newTransactionalProducer transactionalID timeout, .initial) calls := by
  refine Object.along_of_invariant
    (P := Attributed) (fun s call attributed flushed => ⟨fun _ => ?_, ?_⟩) ?_ flushed
  · exact ⟨attributed.batched, attributed.kept⟩
  · exact attributed.step call flushed
  · exact {
      batched := fun _ => rfl
      sent := by simp [Provenance.initial]
      ended := by simp [Provenance.initial]
      current := by simp [Provenance.initial]
      kept := by simp [Provenance.initial] }

/-- A transaction that is flushed and aborted, and one that is aborted with nothing sent. -/
theorem flushed_messages_stay :
    (transactions.tracking trace).Along Isolated (newTransactionalProducer [0x61] 0, .initial)
      [.beginTransaction 1 1, .sendToTransaction [0x74] 3 ⟨none, none, none, 2, 0⟩ 2, .flushTransaction,
        .abortTransaction 3, .beginTransaction 4 4, .abortTransaction 5, .flushTransaction] :=
  aborted_messages_stay _ _ _ (by decide +kernel)

/-- A transaction is aborted and what has been sent in it is flushed afterwards. -/
theorem aborted_message_is_flushed :
    let s := ((transactions.tracking trace).run (newTransactionalProducer [0x61] 0, .initial)
      [.beginTransaction 1 1, .sendToTransaction [0x74] 3 ⟨none, none, none, 2, 0⟩ 2,
        .abortTransaction 3]).1
    s.2.aborted = [1] ∧ s.1.batches.keys = [⟨[0x74], 3⟩] ∧
      s.2.buffered.map (fun sent => (sent.transaction, sent.topicPartition)) = [(1, ⟨[0x74], 3⟩)] ∧
      ¬ Isolated s .flushTransaction := by
  refine ⟨by decide +kernel, by decide +kernel, by decide +kernel, fun isolated => ?_⟩
  exact absurd (isolated rfl).2 (by decide +kernel)

end Portask.Kafka
