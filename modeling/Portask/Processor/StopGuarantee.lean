import Portask.Processor.AsyncStop
import Portask.Processor.BatchWriter
import Portask.Processor.ParallelStop

/-! # What `Stop` guarantees

For each of the three writers, with a storage that does not fail: when `Stop` has returned,
the messages that were accepted are stored, and nobody sends on a closed channel, provided
that the steps of the run meet the writer's condition. For the plain batch writer it is
enough that nobody writes after the final flush. Without the conditions all three lose
messages.
-/

namespace Portask.Processor

open Lib AsyncBatchWriter BatchWriter

namespace BatchWriter

variable {ε M : Type} {s t : System (Recorder ε M) ε M} {label : Label (Option ε) M}
  {config : BatchWriterConfig}

def StopCall.isReturned : StopCall ε → Bool
  | .returned _ => true
  | _ => false

/-- The storage does not fail, and nobody writes after the final flush. -/
def Calm (s : System (Recorder ε M) ε M) : Label (Option ε) M → Prop
  | .write _ choices => (choices 0).isNone = true ∧ s.stopping.isReturned = false
  | .timer choices | .finalFlush choices => (choices 0).isNone = true
  | _ => True

instance (s : System (Recorder ε M) ε M) : (label : Label (Option ε) M) → Decidable (Calm s label)
  | .write _ _ => inferInstanceAs (Decidable (_ ∧ _))
  | .timer _ | .finalFlush _ => inferInstanceAs (Decidable (_ = true))
  | .loopReturns | .cancel | .stop | .closeStopCh | .wait => inferInstanceAs (Decidable True)

/-- Every message whose `Write` returned nil has been stored. -/
def AllStored (s : System (Recorder ε M) ε M) : Prop :=
  ((s.writes.filter (fun w => w.2.isNone)).map Prod.fst).Sublist s.store.stored.flatten

theorem ordered_upkeep (batchSize : Int) :
    Upkeep (recording : StorageBackend (Recorder ε M) _ _ _) batchSize
    (fun _ _ => True) Ordered Ordered where
  pre ordered := ordered
  append m ordered := ⟨by rw [← List.append_assoc, ordered.1], ordered.2⟩
  short ordered _ := ordered
  takes writes buffer choice filled _ := by
    refine recording_takes (fun r either => ⟨?_, ?_⟩) (fun r err either => either.elim id id)
    · simpa using (either.elim id id).1
    · simpa [filled.symm] using (either.elim id id).2

theorem flushLocked_empties {bw : BatchWriter M} (retries : 0 ≤ bw.config.maxRetries)
    (succeeds : (choices 0).isNone = true) (r : Recorder ε M) :
    (bw.flushLocked recording choices r).writer.buffer.contents = [] := by
  rw [flushLocked, recording_flush_succeeds retries _ succeeds]
  by_cases empty : bw.buffer.len = 0
  · simpa only [empty, if_true] using (Buffer.len_eq_zero _).mp empty
  · simp [empty]

structure Peaceful (config : BatchWriterConfig) (s : System (Recorder ε M) ε M) : Prop where
  configured : s.writer.config = config
  ordered : Ordered (s.writes.map Prod.fst) s.writer.buffer.contents s.store
  emptied : s.stopping.isReturned = true → s.writer.buffer.contents = []

theorem emptied_next (retries : 0 ≤ s.writer.config.maxRetries) (calm : Calm s label)
    (emptied : s.stopping.isReturned = true → s.writer.buffer.contents = [])
    (stepped : s.next recording label = some t) :
    t.stopping.isReturned = true → t.writer.buffer.contents = [] := by
  revert stepped
  fun_cases System.next recording s label with
  | case1 =>
    rintro ⟨⟩ returned
    exact absurd returned (by rw [calm.2]; simp)
  | case2 choices r =>
    rintro ⟨⟩ returned
    have empty : s.writer.buffer.len = 0 := (Buffer.len_eq_zero _).mpr (emptied returned)
    simpa [r, onTimer, empty] using emptied returned
  | case4 | case6 | case8 =>
    rintro ⟨⟩
    exact emptied
  | case7 | case9 | case12 =>
    rintro ⟨⟩
    simp [StopCall.isReturned]
  | case14 =>
    rintro ⟨⟩ _
    exact flushLocked_empties retries calm s.store
  | _ => simp

theorem Peaceful.next (retries : 0 ≤ config.maxRetries) (peaceful : Peaceful config s)
    (calm : Calm s label) (stepped : s.next recording label = some t) : Peaceful config t := by
  have used : 0 ≤ s.writer.config.maxRetries := by rw [peaceful.configured]; exact retries
  obtain ⟨ordered, configured⟩ := (ordered_upkeep config.batchSize).next retries peaceful.configured
    (fun _ _ _ _ _ => trivial) peaceful.ordered stepped
  exact ⟨configured, ordered, emptied_next used calm peaceful.emptied stepped⟩

theorem peaceful_started (config : BatchWriterConfig) :
    Peaceful config
    (started ⟨config, .make config.batchSize.toNat, 0, 0, false⟩ ({} : Recorder ε M)) where
  configured := rfl
  ordered := ⟨rfl, List.not_mem_nil⟩
  emptied returned := nomatch returned

theorem stores_all_of_calm (retries : 0 ≤ config.maxRetries)
    (created : newBatchWriter (some config) = some bw) {s : System (Recorder ε M) ε M}
    (ran : ((machine recording).restrict Calm).run (started bw {}) labels = some s)
    (returned : s.stopping.isReturned = true) : AllStored s := by
  obtain rfl := newBatchWriter_some created
  have peaceful := ((machine recording).restrict Calm).run_invariant (P := Peaceful config)
    (fun s label t peaceful stepped =>
      have ⟨calm, step⟩ := (Machine.restrict_next _).mp stepped
      peaceful.next retries calm step)
    (peaceful_started config) ran
  have ordered := peaceful.ordered.1
  rw [peaceful.emptied returned, List.append_nil] at ordered
  rw [AllStored, ordered]
  exact List.filter_sublist.map Prod.fst

end BatchWriter

theorem stop_stores_all_of_calm {T ε M : Type} [DecidableEq T] [Fintype T] (topic : M → GoString) :
    (∀ config bw labels (s : BatchWriter.System (Recorder ε M) ε M), 0 ≤ config.maxRetries →
      newBatchWriter (some config) = some bw →
      ((machine recording).restrict BatchWriter.Calm).run (started bw {}) labels = some s →
      s.stopping.isReturned = true → BatchWriter.AllStored s) ∧
    (∀ config labels (s : ParallelBatchWriter.System config.numShards T ε M), 0 ≤
      config.maxRetries →
      ((ParallelBatchWriter.machine topic).restrict ParallelBatchWriter.Calm).run
        (ParallelBatchWriter.started config) labels = some s →
      s.stopping = .returned → ParallelBatchWriter.AllStored s) ∧
    (∀ config parallelStore labels (s : System config.numShards T ε M),
      ((machine topic).restrict Calm).run
        (started config parallelStore) labels = some s →
      s.sentOnClosed = false ∧ (s.stopping = .returned → AllStored s)) := by
  refine ⟨?_, ?_, ?_⟩
  · intro config bw labels s retries created ran returned
    exact stores_all_of_calm retries created ran returned
  · intro config labels s retries ran returned
    exact ParallelBatchWriter.stores_all_of_calm retries ran returned
  · intro config parallelStore labels s ran
    obtain ⟨placed, peaceful⟩ := calm_run ran
    exact ⟨peaceful.unbroken, peaceful.allStored placed⟩

def oneShard : ParallelBatchWriterConfig := ⟨1, 5, 2, 0, 0, false⟩

def anyTopic (_ : Nat) : GoString := [116]

def succeeds : Nat → Option Nat := fun _ => none

/-- A write comes in between the stop signal and the final flush. -/
def lateWrite : List (BatchWriter.Label (Option Nat) Nat) :=
  [.write 4 succeeds, .stop, .closeStopCh, .loopReturns, .wait, .write 5 succeeds,
    .finalFlush succeeds]

def calmShard : List (ParallelBatchWriter.Label 1 Unit Nat Nat) :=
  [.write () 4, .step (), .step (), .step (), .receive 0 succeeds, .stop,
    .closeStopCh, .closeStopCh, .shardStops 0 succeeds, .wait]

/-- The final batch is stored and confirmed before the confirmation channel is closed. -/
def calmAsync : List (Label 1 Unit Nat Nat) :=
  [.write () 4, .step (), .step (), .step (), .receive 0, .stop, .stopStep, .shardStops 0,
    .shardStep 0, .shardStep 0,
    .shardStep 0, .store 0 ⟨none, fun _ => true⟩, .confirm 0, .stopStep, .stopStep,
      .processStep, .processStep, .processStep, .processStep, .processStep, .stopStep]

theorem stop_stores_all_of_calm_one :
    (∃ s : BatchWriter.System (Recorder Nat Nat) Nat Nat,
      ((machine recording).restrict BatchWriter.Calm).run (started pairs {})
        lateWrite = some s ∧ s.store.stored = [[4, 5]] ∧ BatchWriter.AllStored s) ∧
    (∃ s : ParallelBatchWriter.System 1 Unit Nat Nat,
      ((ParallelBatchWriter.machine anyTopic).restrict ParallelBatchWriter.Calm).run
        (ParallelBatchWriter.started oneShard) calmShard = some s ∧
        (s.store 0).stored = [[4]] ∧ ParallelBatchWriter.AllStored s) ∧
    (∃ s : System 1 Unit Nat Nat,
      ((machine anyTopic).restrict Calm).run
        (started oneShard false) calmAsync = some s ∧
        s.stored.map Batch.messages = [[4]] ∧ AllStored s) := by
  refine ⟨?_, ?_, ?_⟩
  · have created : newBatchWriter (some ⟨10, 2, 1⟩) = some pairs := rfl
    refine exists_of_view (fun s => (s.store.stored, s.stopping.isReturned)) ([[4, 5]], true)
      (by decide +kernel)
      fun s ran found => ?_
    obtain ⟨stored, returned⟩ := Prod.mk.inj found
    exact ⟨stored, (stop_stores_all_of_calm (T := Unit) anyTopic).1 _ _ _ s
      (by decide) created ran returned⟩
  · refine exists_of_view (fun s => ((s.store 0).stored, s.stopping)) ([[4]], .returned)
      (by decide +kernel)
      fun s ran found => ?_
    obtain ⟨stored, returned⟩ := Prod.mk.inj found
    exact ⟨stored, (stop_stores_all_of_calm anyTopic).2.1 oneShard calmShard s
      (by decide) ran returned⟩
  · refine exists_of_view (fun s => (s.stored.map Batch.messages, s.stopping)) ([[4]], .returned)
      (by decide +kernel)
      fun s ran found => ?_
    obtain ⟨stored, returned⟩ := Prod.mk.inj found
    exact ⟨stored,
      ((stop_stores_all_of_calm anyTopic).2.2 oneShard false calmAsync s ran).2 returned⟩

/-- A write after `Stop` has returned. -/
def writeAfterStop : List (BatchWriter.Label (Option Nat) Nat) :=
  [.stop, .closeStopCh, .loopReturns, .wait, .finalFlush succeeds, .write 4 succeeds]

/-- The shard sees its stop channel before the message in its channel. -/
def stopFirst : List (ParallelBatchWriter.Label 1 Unit Nat Nat) :=
  [.write () 4, .step (), .step (), .step (), .stop, .closeStopCh, .closeStopCh,
    .shardStops 0 succeeds, .wait]

/-- The confirmation channel is closed while the final batch is still being stored. -/
def closeFirst : List (Label 1 Unit Nat Nat) :=
  [.write () 4, .step (), .step (), .step (), .receive 0, .stop, .stopStep, .shardStops 0,
    .shardStep 0, .shardStep 0, .shardStep 0, .stopStep, .stopStep, .processStep, .stopStep]

theorem not_stop_stores_all :
    (∃ s : BatchWriter.System (Recorder Nat Nat) Nat Nat,
      (machine recording).run (started pairs {}) writeAfterStop = some s ∧
        s.stopping.isReturned = true ∧ ¬ BatchWriter.AllStored s) ∧
    (∃ s : ParallelBatchWriter.System 1 Unit Nat Nat,
      (ParallelBatchWriter.machine anyTopic).run
      (ParallelBatchWriter.started oneShard) stopFirst = some s ∧
        s.stopping = .returned ∧ ¬ ParallelBatchWriter.AllStored s) ∧
    (∃ s : System 1 Unit Nat Nat,
      (machine anyTopic).run (started oneShard false) closeFirst = some s ∧
        s.stopping = .returned ∧ ¬ AllStored s) ∧
    (∃ s : System 1 Unit Nat Nat,
      (machine anyTopic).run (started oneShard false)
        (closeFirst ++ [.store 0 ⟨none, fun _ => true⟩, .confirm 0]) = some s ∧ s.sentOnClosed = true) := by
  refine ⟨?_, ?_, ?_, Option.map_eq_some_iff.mp (by decide +kernel)⟩
  · refine exists_of_view (fun s =>
      (s.stopping.isReturned, (s.writes.filter fun w => w.2.isNone).map Prod.fst,
        s.store.stored)) (true, [4], []) (by decide +kernel) fun s ran found => ?_
    simp only [Prod.mk.injEq] at found
    obtain ⟨returned, accepted, stored⟩ := found
    refine ⟨returned, fun all => ?_⟩
    rw [BatchWriter.AllStored, accepted, stored] at all
    exact absurd all (by decide)
  · refine exists_of_view (fun s => (s.stopping, s.intake.lane 0, (s.store 0).stored))
      (.returned, [4], [])
      (by decide +kernel) fun s ran found => ?_
    simp only [Prod.mk.injEq] at found
    obtain ⟨returned, entered, stored⟩ := found
    refine ⟨returned, fun all => ?_⟩
    have same := all.stored 0
    rw [entered, stored] at same
    exact absurd same (by decide)
  · refine exists_of_view (fun s => (s.stopping, s.flushed.length, s.stored.length))
      (.returned, 1, 0)
      (by decide +kernel) fun s ran found => ?_
    simp only [Prod.mk.injEq] at found
    obtain ⟨returned, flushed, stored⟩ := found
    refine ⟨returned, fun all => ?_⟩
    have same := congrArg Multiset.card all.stored
    rw [Multiset.coe_card, Multiset.coe_card, flushed, stored] at same
    exact absurd same (by decide)

end Portask.Processor
