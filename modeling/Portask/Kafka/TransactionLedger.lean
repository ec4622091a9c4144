import Portask.Kafka.Transactions

/-! # What manager and coordinator know of a transaction

The manager's state and the coordinator's record are kept by different objects. As long as no
record is cleaned up they agree between any two calls: the record says whether the transaction
is under way or how it ended, and which partitions have been sent to.
-/

namespace Portask.Kafka

open Lib TransactionManager

variable {α : Type*}

theorem eraseDups_idem [BEq α] [LawfulBEq α] (l : List α) :
    l.eraseDups.eraseDups = l.eraseDups := by
  match l with
  | [] => rfl
  | a :: rest =>
    have others : ((rest.filter fun b => !b == a).eraseDups.filter fun b => !b == a) =
        (rest.filter fun b => !b == a).eraseDups := by
      refine List.filter_eq_self.mpr fun b inside => ?_
      exact (List.mem_filter.mp (List.mem_eraseDups.mp inside)).2
    rw [List.eraseDups_cons, List.eraseDups_cons, others,
      eraseDups_idem (rest.filter fun b => !b == a)]
termination_by l.length
decreasing_by
  have := List.length_filter_le (fun b => !b == a) rest
  rw [List.length_cons]
  omega

theorem eraseDups_append_left [BEq α] [LawfulBEq α] (l later : List α) :
    (l.eraseDups ++ later).eraseDups = (l ++ later).eraseDups := by
  have same : later.removeAll l.eraseDups = later.removeAll l := by
    refine List.filter_congr fun b _ => ?_
    rw [Bool.not_inj_iff, Bool.eq_iff_iff, List.elem_iff, List.elem_iff, List.mem_eraseDups]
  rw [List.eraseDups_append, List.eraseDups_append, eraseDups_idem, same]

theorem uniquePartitions_eq (seen : Int32 → Bool) (l : List Int32) :
    uniquePartitions seen l = (l.filter fun p => !seen p).eraseDups := by
  induction l generalizing seen with
  | nil => rfl
  | cons p rest ih =>
    rw [uniquePartitions]
    split
    · next before => rw [ih, List.filter_cons_of_neg (by simp [before])]
    · next first =>
        have unseen : (rest.filter fun q => !Function.update seen p true q) =
            (rest.filter fun q => !seen q).filter fun q => !q == p := by
          rw [List.filter_filter]
          refine List.filter_congr fun q _ => ?_
          by_cases here : q = p
          · simp [here]
          · simp [here]
        rw [ih, List.filter_cons_of_pos (by simp [first]), List.eraseDups_cons, unseen]

theorem lookup_mergePartitions (topicPartitions : AList fun _ : GoString => List Int32)
    (topic asked : GoString) (partitions : List Int32) :
    (mergePartitions topicPartitions topic partitions).lookup asked =
      if asked = topic then
        some ((topicPartitions.lookup topic).elim partitions fun existing => (existing ++ partitions).eraseDups)
      else topicPartitions.lookup asked := by
  rw [mergePartitions]
  by_cases here : asked = topic
  · subst here
    cases found : topicPartitions.lookup asked with
    | none => simp
    | some existing => simp [uniquePartitions_eq]
  · cases found : topicPartitions.lookup topic with
    | none | some existing => simp [here, AList.lookup_insert_ne here]

/-- What a call has done that has returned without an error. -/
inductive TransactionEvent where
  | begun
  | sent (topicPartition : TopicPartition)
  | committed
  | aborted
  deriving DecidableEq

def TransactionCall.event : TransactionCall → Option TransactionEvent
  | .beginTransaction _ _ => some .begun
  | .sendToTransaction topic partition _ _ => some (.sent ⟨topic, partition⟩)
  | .commitTransaction _ => some .committed
  | .abortTransaction _ => some .aborted
  | _ => none

def TransactionalProducer.eventOf (tp : TransactionalProducer) (call : TransactionCall) :
    Option TransactionEvent :=
  if (transactions.apply tp call).2 = none then call.event else none

open TransactionalProducer

/-- How the transaction that began last has ended, of a record with the newest event first. -/
def lastEnd : List TransactionEvent → Option TransactionState
  | [] => none
  | .begun :: _ => none
  | .committed :: _ => some .completeCommit
  | .aborted :: _ => some .completeAbort
  | .sent _ :: rest => lastEnd rest

/-- What has been sent to since a transaction began last, in order. -/
def sentSinceBegin : List TransactionEvent → List TopicPartition
  | [] => []
  | .begun :: _ => []
  | .sent topicPartition :: rest => sentSinceBegin rest ++ [topicPartition]
  | _ :: rest => sentSinceBegin rest

/-- The partitions of a topic, each once, in order of their first occurrence. -/
def partitionsOf (topic : GoString) (sent : List TopicPartition) : List Int32 :=
  ((sent.filter (·.topic = topic)).map (·.partition)).eraseDups

/-- The entry of a map that has none where there is nothing to list. -/
def entryOf (partitions : List Int32) : Option (List Int32) :=
  if partitions = [] then none else some partitions

/-- The calls of a producer that leave its coordinator to itself. -/
def TransactionCall.Operates : TransactionCall → Prop
  | .beginTransaction _ _ | .sendToTransaction _ _ _ _ | .flushTransaction | .commitTransaction _
  | .abortTransaction _ => True
  | _ => False

structure Bookkept (s : TransactionalProducer × List TransactionEvent) : Prop where
  states : s.1.transactionManager.state = .empty ∨ s.1.transactionManager.state = .ongoing
  agrees : s.1.transactionManager.state = .ongoing ↔
    ∃ metadata, s.1.transactionManager.transaction = some metadata ∧ metadata.state = .ongoing
  ended : s.1.transactionManager.state = .empty → .begun ∈ s.2 →
    ∃ metadata, s.1.transactionManager.transaction = some metadata ∧
      lastEnd s.2 = some metadata.state
  partitions : ∀ metadata, s.1.transactionManager.transaction = some metadata →
    ∀ topic, metadata.topicPartitions.lookup topic =
      entryOf (partitionsOf topic (sentSinceBegin s.2))

theorem partitionsOf_append (topic : GoString) (sent : List TopicPartition)
    (topicPartition : TopicPartition) : partitionsOf topic (sent ++ [topicPartition]) =
      if topic = topicPartition.topic then
        (partitionsOf topic sent ++ [topicPartition.partition]).eraseDups
      else partitionsOf topic sent := by
  rw [partitionsOf, List.filter_append, List.map_append]
  split
  · next here =>
      rw [partitionsOf, eraseDups_append_left, List.filter_cons_of_pos (by simp [here])]
      rfl
  · next elsewhere =>
      rw [List.filter_cons_of_neg (by simpa using fun same => elsewhere same.symm)]
      simp [partitionsOf]

theorem eraseDups_append_ne_nil [BEq α] [LawfulBEq α] (l : List α) (a : α) :
    (l ++ [a]).eraseDups ≠ [] := by
  have inside : a ∈ (l ++ [a]).eraseDups :=
    List.mem_eraseDups.mpr (List.mem_append_right l List.mem_cons_self)
  exact List.ne_nil_of_mem inside

namespace Bookkept

variable {tp : TransactionalProducer} {record : List TransactionEvent}

variable {after : TransactionalProducer} {metadata : TransactionMetadata}

/-- A call that changes neither the manager nor the record. -/
theorem quiet (kept : Bookkept (tp, record))
    (same : after.transactionManager = tp.transactionManager) : Bookkept (after, record) where
  states := by simpa only [same] using kept.states
  agrees := by simpa only [same] using kept.agrees
  ended := by simpa only [same] using kept.ended
  partitions := by simpa only [same] using kept.partitions

theorem begins (tp : TransactionalProducer) (record : List TransactionEvent) (start now : Int)
    (manager : after.transactionManager =
      tp.transactionManager.put (tp.transactionManager.begun start now) .ongoing) :
    Bookkept (after, .begun :: record) where
  states := .inr (by simp [manager])
  agrees := by simp [manager, begun]
  ended := by simp [manager]
  partitions := by
    simp only [manager, transaction_put, Option.some.injEq, forall_eq']
    intro topic
    rfl

theorem sends (kept : Bookkept (tp, record))
    (found : tp.transactionManager.transaction = some metadata)
    (ongoing : metadata.state = .ongoing) (topic : GoString) (partition : Int32) (now : Int)
    (manager : after.transactionManager = tp.transactionManager.put
      { metadata with
        topicPartitions := mergePartitions metadata.topicPartitions topic [partition],
          lastUpdateTime := now } .ongoing) :
    Bookkept (after, .sent ⟨topic, partition⟩ :: record) where
  states := .inr (by simp [manager])
  agrees := by simp [manager, ongoing]
  ended := by simp [manager]
  partitions := by
    simp only [manager, transaction_put, Option.some.injEq, forall_eq']
    intro asked
    rw [lookup_mergePartitions, sentSinceBegin, partitionsOf_append]
    have before := kept.partitions metadata found
    split
    · next here =>
        subst here
        rw [before asked, entryOf, entryOf, if_neg (eraseDups_append_ne_nil _ _)]
        split
        · next none => simp [none, List.eraseDups_cons]
        · rfl
    · exact before asked

theorem ends (kept : Bookkept (tp, record))
    (found : tp.transactionManager.transaction = some metadata) {event state}
    (ending : event = .committed ∧ state = .completeCommit ∨ event = .aborted ∧
      state = .completeAbort) (now : Int) (manager : after.transactionManager =
      tp.transactionManager.put { metadata with state := state, lastUpdateTime := now } .empty) :
    Bookkept (after, event :: record) where
  states := .inl (by simp [manager])
  agrees := by
    obtain ⟨-, rfl⟩ | ⟨-, rfl⟩ := ending
    · simp [manager]
    · simp [manager]
  ended := by
    obtain ⟨rfl, rfl⟩ | ⟨rfl, rfl⟩ := ending
    · simp [manager, lastEnd]
    · simp [manager, lastEnd]
  partitions := by
    have same : sentSinceBegin (event :: record) = sentSinceBegin record := by
      obtain ⟨rfl, -⟩ | ⟨rfl, -⟩ := ending
      · rfl
      · rfl
    simp only [manager, transaction_put, Option.some.injEq, forall_eq', same]
    exact kept.partitions metadata found

end Bookkept

section

variable {tp after : TransactionalProducer} {record : List TransactionEvent}

theorem recorded_ok (call : TransactionCall)
    (answers : transactions.apply tp call = (after, none)) :
    ((transactions.recording eventOf).apply (tp, record) call).1 =
      (after, call.event.toList ++ record) := by
  simp only [Object.recording, Object.tracking, eventOf, answers, if_true]

theorem recorded_error (call : TransactionCall)
    (answers : transactions.apply tp call = (after, some err)) :
    ((transactions.recording eventOf).apply (tp, record) call).1 = (after, record) := by
  simp only [Object.recording, Object.tracking, eventOf, answers, reduceCtorEq, if_false,
    Option.toList_none, List.nil_append]

end

theorem Bookkept.step (kept : Bookkept (tp, record)) (call : TransactionCall)
    (operates : call.Operates) :
    Bookkept ((transactions.recording eventOf).apply (tp, record) call).1 := by
  by_cases refused : tp.transactionManager.state.Refuses call
  · obtain ⟨err, nothing⟩ := apply_refused refused
    rw [recorded_error call nothing]
    exact kept
  cases call with
  | initTransactions | addPartitionsToTxn | cleanupExpiredTransactions => exact operates.elim
  | beginTransaction start now =>
    have idle : tp.transactionManager.state = .empty := not_not.mp refused
    rw [recorded_ok (.beginTransaction start now)
      (congrArg tp.manage (beginTransaction_empty idle start now))]
    exact Bookkept.begins tp record start now rfl
  | sendToTransaction topic partition message now =>
    have ongoing : tp.transactionManager.state = .ongoing := not_not.mp refused
    obtain ⟨metadata, found, underWay⟩ := kept.agrees.mp ongoing
    rw [recorded_ok (.sendToTransaction topic partition message now)
      (sendToTransaction_found ongoing found topic partition message now)]
    exact kept.sends found underWay topic partition now rfl
  | flushTransaction => exact kept.quiet rfl
  | commitTransaction now =>
    have ongoing : tp.transactionManager.state = .ongoing := not_not.mp refused
    obtain ⟨metadata, found, -⟩ := kept.agrees.mp ongoing
    rw [recorded_ok (.commitTransaction now)
      (congrArg tp.manage (commitTransaction_found ongoing found now))]
    exact kept.ends found (.inl ⟨rfl, rfl⟩) now rfl
  | abortTransaction now =>
    have ongoing : tp.transactionManager.state = .ongoing := by
      refine kept.states.resolve_left fun idle => refused ?_
      change tp.transactionManager.state = .empty at idle
      simp [TransactionState.Refuses, idle]
    obtain ⟨metadata, found, -⟩ := kept.agrees.mp ongoing
    rw [recorded_ok (.abortTransaction now)
      (congrArg tp.manage (abortTransaction_found ongoing found now))]
    exact kept.ends found (.inr ⟨rfl, rfl⟩) now rfl

theorem Bookkept.initial (transactionalID : GoString) (timeout : Int) :
    Bookkept (newTransactionalProducer transactionalID timeout, []) where
  states := .inl rfl
  agrees := by simp [newTransactionalProducer, newTransactionManager, newTransactionCoordinator,
    transaction]
  ended := by simp
  partitions := by simp [newTransactionalProducer, newTransactionManager, newTransactionCoordinator,
    transaction]

/-- However often transactions are begun, filled, flushed and ended. -/
theorem manager_and_coordinator_agree (transactionalID : GoString) (timeout : Int)
    (calls : List TransactionCall) (operate : ∀ call ∈ calls, call.Operates) :
    Bookkept ((transactions.recording eventOf).run
      (newTransactionalProducer transactionalID timeout, []) calls).1 := by
  exact Object.run_invariant (fun s call kept operates => Bookkept.step kept call operates)
    (Bookkept.initial transactionalID timeout) (Object.along_of_forall operate _)

/-- A transaction with two messages for one partition, which is committed. -/
theorem committed_transaction_is_recorded :
    Bookkept ((transactions.recording eventOf).run (newTransactionalProducer [0x61] 0, [])
      [.beginTransaction 1 1, .sendToTransaction [0x74] 3 ⟨none, none, none, 2, 0⟩ 2,
        .sendToTransaction [0x74] 3 ⟨none, none, none, 3, 0⟩ 3, .commitTransaction 4]).1 ∧
    ((transactions.recording eventOf).run (newTransactionalProducer [0x61] 0, [])
      [.beginTransaction 1 1, .sendToTransaction [0x74] 3 ⟨none, none, none, 2, 0⟩ 2,
        .sendToTransaction [0x74] 3 ⟨none, none, none, 3, 0⟩ 3, .commitTransaction 4]).1.2 =
      [.committed, .sent ⟨[0x74], 3⟩, .sent ⟨[0x74], 3⟩, .begun] :=
  ⟨manager_and_coordinator_agree _ _ _ (by simp [TransactionCall.Operates]), by decide +kernel⟩

end Portask.Kafka
