import Portask.Kafka.Transactions

/-! # Transactions that have been cleaned up

A transaction whose record the coordinator has removed can be neither committed nor aborted,
and the manager never begins another one. A send then fails with the message in the batch, and
an abort fails with the state changed. Where a cleanup never takes the record of a transaction
that is under way, calls that fail leave no trace and the manager can always begin again.
-/

namespace Portask.Kafka

open Lib TransactionManager TransactionalProducer

def TransactionCall.Tried : TransactionCall → Prop
  | .beginTransaction _ _ | .addPartitionsToTxn _ _ | .sendToTransaction _ _ _ _
    | .commitTransaction _
  | .abortTransaction _ => True
  | _ => False

section

variable (tp : TransactionalProducer)

/-- A call that fails leaves the state, the batches and the sequence numbers as they were. -/
def Atomic : Prop :=
  ∀ call : TransactionCall, call.Tried → (transactions.apply tp call).2 ≠ none →
    (transactions.apply tp call).1.transactionManager.state = tp.transactionManager.state ∧
      (transactions.apply tp call).1.batches = tp.batches ∧
      (transactions.apply tp call).1.sequenceNumbers = tp.sequenceNumbers

/-- Some calls lead to a state in which a transaction can begin. -/
def Recovers : Prop :=
  ∃ calls : List TransactionCall, (∀ call ∈ calls, call.Tried) ∧
    ∀ start now,
      ((transactions.run tp calls).1.transactionManager.beginTransaction start now).2 = none

/-- A cleanup does not remove the record of a transaction that is under way. -/
def Spares (call : TransactionCall) : Prop :=
  match call with
  | .cleanupExpiredTransactions maxAge now => tp.transactionManager.state = .ongoing →
      ∀ metadata ∈ tp.transactionManager.transaction, now - metadata.lastUpdateTime ≤ maxAge
  | _ => True

def Intact : Prop :=
  tp.transactionManager.state = .empty ∨
    tp.transactionManager.state = .ongoing ∧
      ∃ metadata, tp.transactionManager.transaction = some metadata

/-- No call that is tried leads out of here. -/
def Stuck : Prop :=
  tp.transactionManager.state = .prepareAbort ∨
    tp.transactionManager.state = .ongoing ∧ tp.transactionManager.transaction = none

end

section

variable {tp : TransactionalProducer}

section

variable (intact : Intact tp)
include intact

/-- A call either succeeds or does nothing. -/
theorem Intact.tried (call : TransactionCall) (tried : call.Tried) :
    (∃ err, transactions.apply tp call = (tp, some err)) ∨
      (transactions.apply tp call).2 = none ∧ Intact (transactions.apply tp call).1 := by
  by_cases refused : tp.transactionManager.state.Refuses call
  · exact .inl (apply_refused refused)
  right
  obtain idle | ⟨ongoing, metadata, found⟩ := intact
  · cases call with
    | initTransactions | flushTransaction | cleanupExpiredTransactions => exact tried.elim
    | addPartitionsToTxn | sendToTransaction | commitTransaction | abortTransaction =>
      exact absurd (by simp [TransactionState.Refuses, idle]) refused
    | beginTransaction start now =>
      simp [transactions, manage, beginTransaction_empty idle, Intact]
  · cases call with
    | initTransactions | flushTransaction | cleanupExpiredTransactions => exact tried.elim
    | beginTransaction => exact absurd (by simp [TransactionState.Refuses, ongoing]) refused
    | addPartitionsToTxn partitions now =>
      simp [transactions, manage, addPartitionsToTxn_found ongoing found,
        Intact]
    | sendToTransaction topic partition message now =>
      simp [transactions, sendToTransaction_found ongoing found, Intact]
    | commitTransaction now =>
      simp [transactions, manage, commitTransaction_found ongoing found,
        Intact]
    | abortTransaction now =>
      simp [transactions, manage, abortTransaction_found ongoing found,
        Intact]

theorem Intact.atomic : Atomic tp := by
  intro call tried failed
  obtain ⟨err, nothing⟩ | ⟨ok, -⟩ := intact.tried call tried
  · rw [nothing]
    exact ⟨rfl, rfl, rfl⟩
  · exact absurd ok failed

theorem Intact.recovers : Recovers tp := by
  obtain idle | ⟨ongoing, metadata, found⟩ := intact
  · exact ⟨[], by simp, fun start now => by simp [beginTransaction_empty idle]⟩
  · refine ⟨[.abortTransaction 0], by simp [TransactionCall.Tried], fun start now => ?_⟩
    rw [beginTransaction_empty]
    simp [Object.run, transactions, manage,
      abortTransaction_found ongoing found]

theorem Intact.step (call : TransactionCall) (spares : Spares tp call) :
    Intact (transactions.apply tp call).1 := by
  have calm (tried : call.Tried) : Intact (transactions.apply tp call).1 := by
    obtain ⟨err, nothing⟩ | ⟨-, after⟩ := intact.tried call tried
    · rw [nothing]
      exact intact
    · exact after
  cases call with
  | beginTransaction | addPartitionsToTxn | sendToTransaction | commitTransaction
    | abortTransaction =>
    exact calm trivial
  | flushTransaction => exact intact
  | initTransactions now =>
    obtain idle | ⟨ongoing, metadata, found⟩ := intact
    · exact .inl (by simp [transactions, manage, initTransactions, idle])
    · refine .inr ⟨?_, metadata, ?_⟩
      · simp [transactions, manage, initTransactions, ongoing]
      · simp [transactions, manage, initTransactions, ongoing, found]
  | cleanupExpiredTransactions maxAge now =>
    obtain idle | ⟨ongoing, metadata, found⟩ := intact
    · exact .inl idle
    · have young := spares ongoing metadata found
      refine .inr ⟨ongoing, metadata, ?_⟩
      show (tp.transactionManager.cleanedUp maxAge now).transaction = some metadata
      rw [transaction_cleanedUp, found, Option.bind_some, if_neg (by omega)]

end

theorem Stuck.busy (stuck : Stuck tp) : tp.transactionManager.state ≠ .empty := by
  obtain aborting | ⟨ongoing, -⟩ := stuck
  · simp [aborting]
  · simp [ongoing]

theorem Stuck.step (stuck : Stuck tp) (call : TransactionCall) (tried : call.Tried) :
    Stuck (transactions.apply tp call).1 := by
  by_cases refused : tp.transactionManager.state.Refuses call
  · obtain ⟨err, nothing⟩ := apply_refused refused
    rw [nothing]
    exact stuck
  -- What is not refused finds a transaction without a record.
  obtain aborting | ⟨ongoing, lost⟩ := id stuck
  · cases call with
    | initTransactions | flushTransaction | cleanupExpiredTransactions => exact tried.elim
    | beginTransaction | addPartitionsToTxn | sendToTransaction | commitTransaction
      | abortTransaction =>
      exact absurd (by simp [TransactionState.Refuses, aborting]) refused
  · cases call with
    | initTransactions | flushTransaction | cleanupExpiredTransactions => exact tried.elim
    | beginTransaction => exact absurd stuck.busy refused
    | addPartitionsToTxn partitions now =>
      show Stuck (tp.manage (tp.transactionManager.addPartitionsToTxn partitions now)).1
      rw [addPartitionsToTxn_lost ongoing lost]
      exact stuck
    | sendToTransaction topic partition message now =>
      show Stuck (tp.sendToTransaction topic partition message now).1
      rw [sendToTransaction_lost ongoing lost]
      exact stuck
    | commitTransaction now =>
      show Stuck (tp.manage (tp.transactionManager.commitTransaction now)).1
      rw [commitTransaction_lost ongoing lost]
      exact stuck
    | abortTransaction now =>
      show Stuck (tp.manage (tp.transactionManager.abortTransaction now)).1
      rw [abortTransaction_lost ongoing lost]
      exact .inl rfl

theorem Stuck.not_recovers (stuck : Stuck tp) : ¬ Recovers tp := by
  rintro ⟨calls, tried, begins⟩
  have after : Stuck (transactions.run tp calls).1 :=
    Object.run_invariant (fun _ call stuck tried => stuck.step call tried) stuck
      (Object.along_of_forall tried tp)
  have refused := begins 0 0
  rw [beginTransaction_refused after.busy] at refused
  exact absurd refused (by simp)

/-- A cleanup that does not spare the transaction. -/
theorem Intact.stuck (intact : Intact tp) (takes : ¬ Spares tp call) :
    Stuck (transactions.apply tp call).1 := by
  cases call with
  | initTransactions | beginTransaction | addPartitionsToTxn | sendToTransaction | flushTransaction
  | commitTransaction | abortTransaction => exact absurd trivial takes
  | cleanupExpiredTransactions maxAge now =>
    obtain idle | ⟨ongoing, metadata, found⟩ := intact
    · exact absurd (fun ongoing => absurd (idle.symm.trans ongoing) (by simp)) takes
    · have old : now - metadata.lastUpdateTime > maxAge := by
        by_contra young
        refine takes fun _ other same => ?_
        obtain rfl : metadata = other := Option.some.inj (found.symm.trans same)
        omega
      refine .inr ⟨ongoing, ?_⟩
      show (tp.transactionManager.cleanedUp maxAge now).transaction = none
      rw [transaction_cleanedUp, found, Option.bind_some, if_pos old]

theorem Intact.run (intact : Intact tp) (calls : List TransactionCall) :
    (∀ first, first <+: calls → Atomic (transactions.run tp first).1 ∧
      Recovers (transactions.run tp first).1) ↔ transactions.Along Spares tp calls := by
  induction calls generalizing tp with
  | nil =>
    refine ⟨fun _ => trivial, fun _ first before => ?_⟩
    rw [List.prefix_nil.mp before]
    exact ⟨intact.atomic, intact.recovers⟩
  | cons call rest ih =>
    constructor
    · intro sound
      have spares : Spares tp call := by
        by_contra takes
        exact (intact.stuck takes).not_recovers (sound [call] (List.prefix_cons_inj call |>.mpr List.nil_prefix)).2
      refine ⟨spares, (ih (intact.step call spares)).mp fun first before => ?_⟩
      exact sound (call :: first) ((List.prefix_cons_inj call).mpr before)
    · rintro ⟨spares, later⟩ first before
      cases first with
      | nil => exact ⟨intact.atomic, intact.recovers⟩
      | cons other first =>
        obtain ⟨rfl, within⟩ := List.cons_prefix_cons.mp before
        exact (ih (intact.step other spares)).mpr later first within

end

/-- In every state of a run calls that fail leave no trace and a transaction can begin again,
    if and only if no cleanup of the run takes the record of a transaction that is under way. -/
theorem recovers_iff_spared (transactionalID : GoString) (timeout : Int)
    (calls : List TransactionCall) : (∀ first, first <+: calls →
      Atomic (transactions.run (newTransactionalProducer transactionalID timeout) first).1 ∧
        Recovers (transactions.run (newTransactionalProducer transactionalID timeout) first).1) ↔
      transactions.Along Spares (newTransactionalProducer transactionalID timeout) calls := by
  have intact : Intact (newTransactionalProducer transactionalID timeout) := .inl rfl
  exact intact.run calls

/-- The transaction begins, its record is removed and it is sent to and aborted. -/
theorem cleaned_up_transaction_is_stuck :
    let tp := (transactions.run (newTransactionalProducer [0x61] 0)
      [.beginTransaction 1 1, .cleanupExpiredTransactions 5 10]).1
    let sent := transactions.apply tp (.sendToTransaction [0x74] 3 ⟨none, none, none, 11, 0⟩ 11)
    let aborted := transactions.apply tp (.abortTransaction 12)
    sent.2 = some (.notFound [0x61]) ∧ tp.batches.keys = [] ∧ sent.1.batches.keys = [⟨[0x74], 3⟩] ∧
      sent.1.sequenceNumbers ⟨[0x74], 3⟩ = 1 ∧ tp.sequenceNumbers ⟨[0x74], 3⟩ = 0 ∧
      aborted.2 = some (.abortFailed (.notFound [0x61])) ∧
      tp.transactionManager.state = .ongoing ∧ aborted.1.transactionManager.state = .prepareAbort ∧
      ¬ Atomic tp ∧ ¬ Recovers tp ∧ ¬ Recovers aborted.1 := by
  intro tp sent aborted
  have failed : aborted.2 = some (.abortFailed (.notFound [0x61])) := by decide +kernel
  have before : tp.transactionManager.state = .ongoing := by decide +kernel
  have after : aborted.1.transactionManager.state = .prepareAbort := by decide +kernel
  have lost : tp.transactionManager.transaction = none :=
    Option.isNone_iff_eq_none.mp (by decide +kernel)
  refine ⟨by decide +kernel, by decide +kernel, by decide +kernel, by decide +kernel,
    by decide +kernel, failed, before, after, fun atomic =>
      ?_, Stuck.not_recovers (.inr ⟨before, lost⟩), Stuck.not_recovers (.inl after)⟩
  have same := (atomic (.abortTransaction 12) trivial (by rw [failed]; simp)).1
  rw [before] at same
  exact absurd (after.symm.trans same) (by decide)

end Portask.Kafka
