import Portask.Lib.Assoc
import Portask.Lib.Machine
import Portask.Types.Message

/-! # Transactions

`pkg/kafka/transactions.go`. A producer numbers and buffers messages, its transaction manager
keeps the state of the transaction, and the manager's coordinator has a record for every
transactional ID. The mutexes make every operation one step. The clock readings are given with
the operation. `sendBatch` does nothing. Neither it nor `AddTransaction` or `InitProducerID`
ever returns an error, so the branches for their errors are left out.
-/

namespace Portask.Kafka

open Lib Portask.Types

inductive TransactionState where
  | empty
  | ongoing
  | completeCommit
  | completeAbort
  | preparingRebalance
  | preparingCommit
  | committingTxn
  | preparingAbort
  | completingAbort
  | prepareCommit
  | prepareAbort
  | dead
  deriving DecidableEq

/-- The constant that stands for the state, as `%v` prints it. -/
def TransactionState.number : TransactionState → Nat
  | .empty => 0
  | .ongoing => 1
  | .completeCommit => 2
  | .completeAbort => 3
  | .preparingRebalance => 4
  | .preparingCommit => 5
  | .committingTxn => 6
  | .preparingAbort => 7
  | .completingAbort => 8
  | .prepareCommit => 9
  | .prepareAbort => 10
  | .dead => 11

structure TopicPartition where
  topic : GoString
  partition : Int32
  deriving DecidableEq

/-- Times are in nanoseconds. -/
structure TransactionMetadata where
  transactionalID : GoString
  producerID : Int64
  producerEpoch : Int16
  state : TransactionState
  topicPartitions : AList fun _ : GoString => List Int32
  txnStartTimestamp : Int
  txnTimeoutMs : Int32
  lastUpdateTime : Int

structure TransactionCoordinator where
  transactions : AList fun _ : GoString => TransactionMetadata

open TransactionCoordinator

structure TransactionManager where
  transactionalID : GoString
  producerID : Int64
  producerEpoch : Int16
  timeout : Int
  state : TransactionState
  coordinator : TransactionCoordinator

open TransactionManager

structure TransactionalMessage where
  key : Bytes
  value : Bytes
  headers : GoMap Bytes
  timestamp : Int
  sequence : Int32

structure ProducerBatch where
  topicPartition : TopicPartition
  messages : List TransactionalMessage
  firstSequence : Int32
  lastSequence : Int32
  producerID : Int64
  producerEpoch : Int16

/-- A topic-partition without a sequence number reads as zero. -/
structure TransactionalProducer where
  transactionManager : TransactionManager
  batches : AList fun _ : TopicPartition => ProducerBatch
  sequenceNumbers : TopicPartition → Int32

inductive TransactionError where
  | alreadyInitialized
  | alreadyInProgress (state : TransactionState)
  | noOngoing (state : TransactionState)
  | noneToCommit (state : TransactionState)
  | noneToAbort (state : TransactionState)
  | noneToSendIn
  | notFound (transactionalID : GoString)
  | commitFailed (err : TransactionError)
  | abortFailed (err : TransactionError)
  deriving DecidableEq

def TransactionError.message (render : GoString → String) : TransactionError → String
  | .alreadyInitialized => "transaction manager already initialized"
  | .alreadyInProgress state => "transaction already in progress, state: " ++ toString state.number
  | .noOngoing state => "no ongoing transaction, state: " ++ toString state.number
  | .noneToCommit state => "no ongoing transaction to commit, state: " ++ toString state.number
  | .noneToAbort state => "no transaction to abort, state: " ++ toString state.number
  | .noneToSendIn => "no ongoing transaction"
  | .notFound transactionalID => "transaction not found: " ++ render transactionalID
  | .commitFailed err => "failed to commit transaction: " ++ err.message render
  | .abortFailed err => "failed to abort transaction: " ++ err.message render

def newTransactionCoordinator : TransactionCoordinator := ⟨∅⟩

def uniquePartitions (seen : Int32 → Bool) : List Int32 → List Int32
  | [] => []
  | p :: rest =>
    if seen p then uniquePartitions seen rest
    else p :: uniquePartitions (Function.update seen p true) rest

/-- One round of the loop over the partitions to be added. -/
def mergePartitions (topicPartitions : AList fun _ : GoString => List Int32) (topic : GoString)
    (partitionList : List Int32) : AList fun _ : GoString => List Int32 :=
  match topicPartitions.lookup topic with
  | some existing =>
    topicPartitions.insert topic (uniquePartitions (fun _ => false) (existing ++ partitionList))
  | none => topicPartitions.insert topic partitionList

namespace TransactionCoordinator

variable (tc : TransactionCoordinator)

def initProducerID (transactionalID : GoString) (now : Int) : Int64 × Int16 :=
  (Int64.ofInt now,
    match tc.transactions.lookup transactionalID with
    | some existing => existing.producerEpoch + 1
    | none => 0)

def addTransaction (metadata : TransactionMetadata) : TransactionCoordinator :=
  ⟨tc.transactions.insert metadata.transactionalID metadata⟩

section

variable (transactionalID : GoString)

def addPartitionsToTransaction
    (partitions : AList fun _ : GoString => List Int32) (now : Int) :
    TransactionCoordinator × Option TransactionError :=
  match tc.transactions.lookup transactionalID with
  | none => (tc, some (.notFound transactionalID))
  | some metadata =>
    (⟨tc.transactions.insert transactionalID
        { metadata with
          topicPartitions := partitions.foldl mergePartitions metadata.topicPartitions
          lastUpdateTime := now }⟩,
      none)

def endTransaction (commit : Bool) (now : Int) :
    TransactionCoordinator × Option TransactionError :=
  match tc.transactions.lookup transactionalID with
  | none => (tc, some (.notFound transactionalID))
  | some metadata =>
    (⟨tc.transactions.insert transactionalID
        { metadata with
          state := if commit then .completeCommit else .completeAbort
          lastUpdateTime := now }⟩,
      none)

end

def cleanupExpiredTransactions (maxAge now : Int) : TransactionCoordinator :=
  ⟨sweep (fun _ metadata => if now - metadata.lastUpdateTime > maxAge then none else some metadata)
    tc.transactions⟩

end TransactionCoordinator

def newTransactionManager (transactionalID : GoString) (timeout : Int) : TransactionManager :=
  ⟨transactionalID, 0, 0, timeout, .empty, newTransactionCoordinator⟩

namespace TransactionManager

variable (tm : TransactionManager)

/-- The coordinator's record of the manager's transaction. -/
def transaction : Option TransactionMetadata :=
  tm.coordinator.transactions.lookup tm.transactionalID

def initTransactions (now : Int) : TransactionManager × Option TransactionError :=
  if tm.state ≠ .empty then (tm, some .alreadyInitialized)
  else
    let (producerID, epoch) := tm.coordinator.initProducerID tm.transactionalID now
    ({ tm with producerID := producerID, producerEpoch := epoch, state := .empty }, none)

/-- The record of a transaction that begins. The clock is read for the start and once more. -/
def begun (start now : Int) : TransactionMetadata where
  transactionalID := tm.transactionalID
  producerID := tm.producerID
  producerEpoch := tm.producerEpoch
  state := .ongoing
  topicPartitions := ∅
  txnStartTimestamp := start
  txnTimeoutMs := Int32.ofInt (tm.timeout.tdiv 1000000)
  lastUpdateTime := now

def beginTransaction (start now : Int) : TransactionManager × Option TransactionError :=
  if tm.state ≠ .empty then (tm, some (.alreadyInProgress tm.state))
  else ({ tm with coordinator := tm.coordinator.addTransaction (tm.begun start now), state := .ongoing }, none)

def addPartitionsToTxn (partitions : AList fun _ : GoString => List Int32) (now : Int) :
    TransactionManager × Option TransactionError :=
  if tm.state ≠ .ongoing then (tm, some (.noOngoing tm.state))
  else
    let (coordinator, err) :=
      tm.coordinator.addPartitionsToTransaction tm.transactionalID partitions now
    ({ tm with coordinator := coordinator }, err)

def commitTransaction (now : Int) : TransactionManager × Option TransactionError :=
  if tm.state ≠ .ongoing then (tm, some (.noneToCommit tm.state))
  else
    let tm := { tm with state := .prepareCommit }
    match tm.coordinator.endTransaction tm.transactionalID true now with
    | (coordinator, some err) =>
      ({ tm with coordinator := coordinator, state := .ongoing }, some (.commitFailed err))
    | (coordinator, none) => ({ tm with coordinator := coordinator, state := .empty }, none)

/-- Unlike a commit, an abort that fails does not set the state back. -/
def abortTransaction (now : Int) : TransactionManager × Option TransactionError :=
  if tm.state ≠ .ongoing ∧ tm.state ≠ .prepareCommit then (tm, some (.noneToAbort tm.state))
  else
    let tm := { tm with state := .prepareAbort }
    match tm.coordinator.endTransaction tm.transactionalID false now with
    | (coordinator, some err) => ({ tm with coordinator := coordinator }, some (.abortFailed err))
    | (coordinator, none) => ({ tm with coordinator := coordinator, state := .empty }, none)

def cleanedUp (maxAge now : Int) : TransactionManager :=
  { tm with coordinator := tm.coordinator.cleanupExpiredTransactions maxAge now }

end TransactionManager

def newTransactionalProducer (transactionalID : GoString) (timeout : Int) : TransactionalProducer :=
  ⟨newTransactionManager transactionalID timeout, ∅, fun _ => 0⟩

def ProducerBatch.add (batch : ProducerBatch) (message : TransactionalMessage) : ProducerBatch :=
  { batch with messages := batch.messages ++ [message], lastSequence := message.sequence }

namespace TransactionalProducer

variable (tp : TransactionalProducer)

/-- The batch that is buffered for a topic-partition, or a new one. -/
def batchFor (topicPartition : TopicPartition) : ProducerBatch :=
  (tp.batches.lookup topicPartition).getD
    ⟨topicPartition, [], tp.sequenceNumbers topicPartition, 0, tp.transactionManager.producerID,
      tp.transactionManager.producerEpoch⟩

/-- What `SendToTransaction` does before it adds the partition. -/
def buffer (topicPartition : TopicPartition) (message : TransactionalMessage) :
    TransactionalProducer :=
  let sequence := tp.sequenceNumbers topicPartition
  { tp with
    batches := tp.batches.insert topicPartition
      ((tp.batchFor topicPartition).add { message with sequence := sequence })
    sequenceNumbers := Function.update tp.sequenceNumbers topicPartition (sequence + 1) }

def sendToTransaction (topic : GoString) (partition : Int32)
    (message : TransactionalMessage) (now : Int) :
    TransactionalProducer × Option TransactionError :=
  if tp.transactionManager.state ≠ .ongoing then (tp, some .noneToSendIn)
  else
    let tp := tp.buffer ⟨topic, partition⟩ message
    let (manager, err) :=
      tp.transactionManager.addPartitionsToTxn (AList.singleton topic [partition]) now
    ({ tp with transactionManager := manager }, err)

def flushTransaction : TransactionalProducer := { tp with batches := ∅ }

/-- A call of the manager that the producer is made with. -/
def manage (result : TransactionManager × Option TransactionError) :
    TransactionalProducer × Option TransactionError :=
  ({ tp with transactionManager := result.1 }, result.2)

end TransactionalProducer

inductive TransactionCall where
  | initTransactions (now : Int)
  | beginTransaction (start now : Int)
  | addPartitionsToTxn (partitions : AList fun _ : GoString => List Int32) (now : Int)
  | sendToTransaction (topic : GoString) (partition : Int32)
    (message : TransactionalMessage) (now : Int)
  | flushTransaction
  | commitTransaction (now : Int)
  | abortTransaction (now : Int)
  | cleanupExpiredTransactions (maxAge now : Int)

/-- A producer with its manager and the manager's coordinator. -/
def transactions : Object TransactionalProducer TransactionCall (Option TransactionError) where
  apply tp
    | .initTransactions now => tp.manage (tp.transactionManager.initTransactions now)
    | .beginTransaction start now => tp.manage (tp.transactionManager.beginTransaction start now)
    | .addPartitionsToTxn partitions now =>
      tp.manage (tp.transactionManager.addPartitionsToTxn partitions now)
    | .sendToTransaction topic partition message now =>
      tp.sendToTransaction topic partition message now
    | .flushTransaction => (tp.flushTransaction, none)
    | .commitTransaction now => tp.manage (tp.transactionManager.commitTransaction now)
    | .abortTransaction now => tp.manage (tp.transactionManager.abortTransaction now)
    | .cleanupExpiredTransactions maxAge now =>
      tp.manage (tp.transactionManager.cleanedUp maxAge now, none)

/-! ## What the manager's operations do

An operation meets the manager with a record of its transaction or without one.
-/

namespace TransactionManager

variable {tm : TransactionManager} {metadata : TransactionMetadata}

/-- The manager with another record of its transaction. -/
def put (tm : TransactionManager) (metadata : TransactionMetadata) (state : TransactionState) :
    TransactionManager :=
  { tm with coordinator := ⟨tm.coordinator.transactions.insert tm.transactionalID metadata⟩, state := state }

@[simp] theorem transaction_put (metadata : TransactionMetadata) (state : TransactionState) :
    (tm.put metadata state).transaction = some metadata := AList.lookup_insert _

@[simp] theorem state_put (metadata : TransactionMetadata) (state : TransactionState) :
    (tm.put metadata state).state = state := rfl

theorem beginTransaction_empty (idle : tm.state = .empty) (start now : Int) :
    tm.beginTransaction start now = (tm.put (tm.begun start now) .ongoing, none) := by
  rw [beginTransaction, if_neg (not_not.mpr idle)]
  rfl

theorem beginTransaction_refused (busy : tm.state ≠ .empty) (start now : Int) :
    tm.beginTransaction start now = (tm, some (.alreadyInProgress tm.state)) := if_pos busy

theorem addPartitionsToTxn_refused (idle : tm.state ≠ .ongoing)
    (partitions : AList fun _ : GoString => List Int32)
    (now : Int) : tm.addPartitionsToTxn partitions now = (tm, some (.noOngoing tm.state)) :=
      if_pos idle

theorem addPartitionsToTxn_lost (ongoing : tm.state = .ongoing) (lost : tm.transaction = none)
    (partitions : AList fun _ : GoString => List Int32) (now : Int) :
    tm.addPartitionsToTxn partitions now = (tm, some (.notFound tm.transactionalID)) := by
  rw [transaction] at lost
  simp only [addPartitionsToTxn, addPartitionsToTransaction, ongoing, lost, ne_eq,
    not_true_eq_false, if_false]
  rw [← ongoing]

theorem addPartitionsToTxn_found (ongoing : tm.state = .ongoing)
    (found : tm.transaction = some metadata)
    (partitions : AList fun _ : GoString => List Int32) (now : Int) :
    tm.addPartitionsToTxn partitions now =
      (tm.put { metadata with
          topicPartitions := partitions.foldl mergePartitions metadata.topicPartitions
          lastUpdateTime := now } .ongoing,
        none) := by
  rw [transaction] at found
  simp only [addPartitionsToTxn, addPartitionsToTransaction, put, ongoing, found, ne_eq,
    not_true_eq_false, if_false]

theorem commitTransaction_refused (idle : tm.state ≠ .ongoing) (now : Int) :
    tm.commitTransaction now = (tm, some (.noneToCommit tm.state)) := if_pos idle

theorem commitTransaction_lost (ongoing : tm.state = .ongoing)
    (lost : tm.transaction = none) (now : Int) :
    tm.commitTransaction now = (tm, some (.commitFailed (.notFound tm.transactionalID))) := by
  rw [transaction] at lost
  simp only [commitTransaction, endTransaction, ongoing, lost, ne_eq, not_true_eq_false,
    if_false]
  rw [← ongoing]

theorem commitTransaction_found (ongoing : tm.state = .ongoing)
    (found : tm.transaction = some metadata) (now : Int) : tm.commitTransaction now =
      (tm.put { metadata with state := .completeCommit, lastUpdateTime := now } .empty, none) := by
  rw [transaction] at found
  simp only [commitTransaction, endTransaction, put, ongoing, found, ne_eq, not_true_eq_false,
    if_false, if_true]

theorem abortTransaction_refused (idle : tm.state ≠ .ongoing)
    (unprepared : tm.state ≠ .prepareCommit) (now : Int) :
    tm.abortTransaction now = (tm, some (.noneToAbort tm.state)) := if_pos ⟨idle, unprepared⟩

theorem abortTransaction_lost (ongoing : tm.state = .ongoing)
    (lost : tm.transaction = none) (now : Int) : tm.abortTransaction now =
      ({ tm with state := .prepareAbort }, some (.abortFailed (.notFound tm.transactionalID))) := by
  rw [transaction] at lost
  simp only [abortTransaction, endTransaction, ongoing, lost, ne_eq, not_true_eq_false,
    false_and, if_false]

theorem abortTransaction_found (ongoing : tm.state = .ongoing)
    (found : tm.transaction = some metadata) (now : Int) : tm.abortTransaction now =
      (tm.put { metadata with state := .completeAbort, lastUpdateTime := now } .empty, none) := by
  rw [transaction] at found
  simp only [abortTransaction, endTransaction, put, ongoing, found, ne_eq, not_true_eq_false,
    false_and, if_false, Bool.false_eq_true]

theorem transaction_cleanedUp (tm : TransactionManager) (maxAge now : Int) :
    (tm.cleanedUp maxAge now).transaction =
      tm.transaction.bind fun metadata => if now - metadata.lastUpdateTime > maxAge then none
        else some metadata :=
  lookup_sweep _ _

/-- Whether or not it fails, an abort that does anything leaves no transaction under way. -/
theorem abortTransaction_cases (tm : TransactionManager) (now : Int) :
    (∃ err, tm.abortTransaction now = (tm, some err)) ∨
      (tm.abortTransaction now).1.state ≠ .ongoing := by
  rw [abortTransaction]
  split
  · exact .inl ⟨_, rfl⟩
  · right
    dsimp only
    split
    · simp
    · simp

end TransactionManager

namespace TransactionalProducer

variable {tp : TransactionalProducer}

variable (ongoing : tp.transactionManager.state = .ongoing)
include ongoing

theorem sendToTransaction_lost
    (lost : tp.transactionManager.transaction = none) (topic : GoString) (partition : Int32)
    (message : TransactionalMessage) (now : Int) :
    tp.sendToTransaction topic partition message now =
      (tp.buffer ⟨topic, partition⟩ message, some (.notFound tp.transactionManager.transactionalID)) := by
  rw [sendToTransaction, if_neg (not_not.mpr ongoing)]
  show (tp.buffer ⟨topic, partition⟩ message).manage
    (tp.transactionManager.addPartitionsToTxn (AList.singleton topic [partition]) now) = _
  rw [addPartitionsToTxn_lost ongoing lost]
  rfl

theorem sendToTransaction_found
    (found : tp.transactionManager.transaction = some metadata) (topic : GoString)
    (partition : Int32) (message : TransactionalMessage) (now : Int) :
    tp.sendToTransaction topic partition message now =
      ({ tp.buffer ⟨topic, partition⟩ message with
          transactionManager := tp.transactionManager.put
            { metadata with
              topicPartitions := mergePartitions metadata.topicPartitions topic [partition]
              lastUpdateTime := now } .ongoing },
        none) := by
  rw [sendToTransaction, if_neg (not_not.mpr ongoing)]
  show (tp.buffer ⟨topic, partition⟩ message).manage
    (tp.transactionManager.addPartitionsToTxn (AList.singleton topic [partition]) now) = _
  rw [addPartitionsToTxn_found ongoing found]
  rfl

end TransactionalProducer

/-- The calls that the state of the manager alone rules out. -/
def TransactionState.Refuses (state : TransactionState) : TransactionCall → Prop
  | .beginTransaction _ _ => state ≠ .empty
  | .addPartitionsToTxn _ _ | .sendToTransaction _ _ _ _ | .commitTransaction _ => state ≠ .ongoing
  | .abortTransaction _ => state ≠ .ongoing ∧ state ≠ .prepareCommit
  | _ => False

theorem apply_refused (refused : tp.transactionManager.state.Refuses call) :
    ∃ err, transactions.apply tp call = (tp, some err) := by
  cases call with
  | initTransactions | flushTransaction | cleanupExpiredTransactions => exact refused.elim
  | beginTransaction start now =>
    exact ⟨_, congrArg tp.manage (beginTransaction_refused refused start now)⟩
  | addPartitionsToTxn partitions now =>
    exact ⟨_, congrArg tp.manage (addPartitionsToTxn_refused refused partitions now)⟩
  | sendToTransaction topic partition message now => exact ⟨_, if_pos refused⟩
  | commitTransaction now =>
    exact ⟨_, congrArg tp.manage (commitTransaction_refused refused now)⟩
  | abortTransaction now =>
    exact ⟨_, congrArg tp.manage (abortTransaction_refused refused.1 refused.2 now)⟩

end Portask.Kafka
