import Mathlib.Algebra.BigOperators.Fin
import Mathlib.Algebra.BigOperators.Group.Finset.Basic
import Mathlib.Algebra.Order.Group.Multiset
import Mathlib.Tactic.Abel
import Portask.Processor.AsyncBatchWriter
import Portask.Processor.ParallelBatchWriter

/-! # Where the messages of the asynchronous writer are

Four things are kept by every step: the record of the calls agrees with the callers, what
entered a shard's channel is its batches followed by the current batch and the channel,
every batch that a shard has taken is in one place, and the counters add up but for the
goroutines that are between two of them.
-/

namespace Portask.Processor.AsyncBatchWriter

open Lib Flusher

section

variable {n : Nat} {T ε M : Type}

def Pc.hold : Pc n M → Hold M
  | .idle => .none
  | .check call m | .trySend call m _ | .countFull call m _ | .blockingSend call m _ =>
    .unsent call m
  | .countQueued call m => .sent call m

def Pc.Aimed (topic : M → GoString) : Pc n M → Prop
  | .trySend _ m i | .countFull _ m i | .blockingSend _ m i => shardByBytes n (topic m) = some i
  | _ => True

/-- The batch that a shard has taken and not yet handed to a goroutine. -/
def ShardPc.held : ShardPc n M → Multiset (Batch n M)
  | .countWritten batch _ | .countPending batch _ | .spawn batch _ => {batch}
  | .select | .returned => 0

/-- One in a shard that has counted a batch as written and not yet as pending. -/
def ShardPc.uncounted : ShardPc n M → Int
  | .countPending _ _ => 1
  | _ => 0

/-- One while a report is counted that still counts as pending. -/
def ConfirmPc.counted : ConfirmPc ε → Int
  | .countMessages _ | .countDone => 1
  | _ => 0

def Flusher.unstored : Flusher n ε M → Option (Batch n M)
  | .storing batch => some batch
  | .confirming _ _ => none

def System.inFlight (s : System n T ε M) : Multiset (Batch n M) :=
  ∑ i, (s.shards i).pc.held + (s.flushers.filterMap unstored : List (Batch n M))

/-- The batches that a shard has taken, in order. -/
def System.taken (s : System n T ε M) (i : Fin n) : List (Batch n M) :=
  s.flushed.filter (fun b => b.shard = i)

def Lane (topic : M → GoString) (m : M) (i : Fin n) : Prop := shardByBytes n (topic m) = some i

def Lines (s : System n T ε M) : Prop :=
  ∀ i, s.intake.lane i =
    ((s.taken i).map Batch.messages).flatten ++ (s.shards i).currentBatch ++ (s.shards i).input

structure Batches (s : System n T ε M) : Prop where
  accounted : (s.flushed : Multiset (Batch n M)) = s.inFlight + s.stored + s.failed
  numbered : ∀ i, (s.taken i).map Batch.id = List.range' 1 (s.shards i).batchIDGen

/-- The batches counted as written and not yet as anything else. -/
def Metrics.balance (metrics : Metrics) : Int :=
  metrics.totalBatchesWritten -
    (metrics.totalBatchesConfirmed + metrics.failedBatches + metrics.pendingBatches)

def Counters (s : System n T ε M) : Prop :=
  s.metrics.balance + s.confirmPc.counted = ∑ i, (s.shards i).pc.uncounted

structure Placed (config : ParallelBatchWriterConfig) (topic : M → GoString) (s : System n T ε M) :
    Prop where
  configured : s.config = config
  callers : s.intake.Tracked Pc.hold (Pc.Aimed topic) (Lane topic) s.pc
  lines : Lines s
  batches : Batches s
  counters : Counters s

section

variable {s : System n T ε M} {i : Fin n} {shard : Shard n M}

theorem Lines.setShard (lines : Lines s)
    (same : shard.currentBatch ++ shard.input = (s.shards i).currentBatch ++ (s.shards i).input) :
    Lines (s.setShard i shard) := by
  intro j
  have line := lines j
  by_cases here : j = i
  · subst here
    simpa [System.setShard, System.taken, same] using line
  · simpa [System.setShard, System.taken, here] using line

theorem sum_setShard {A : Type} [AddCommMonoid A] (s : System n T ε M) (i : Fin n)
    (shard : Shard n M) (f : Shard n M → A) :
    ∑ j, f ((s.setShard i shard).shards j) + f (s.shards i) = ∑ j, f (s.shards j) + f shard := by
  have moved := Finset.sum_update_of_mem (Finset.mem_univ i) (f ∘ s.shards) (f shard)
  rw [← Function.comp_update, Finset.sdiff_singleton_eq_erase] at moved
  change ∑ j, f ((s.setShard i shard).shards j) = _ at moved
  rw [moved, ← Finset.add_sum_erase Finset.univ (fun j => f (s.shards j)) (Finset.mem_univ i)]
  simp only [Function.comp_apply]
  abel

theorem inFlight_setShard (s : System n T ε M) (i : Fin n) (shard : Shard n M) :
    (s.setShard i shard).inFlight + (s.shards i).pc.held = s.inFlight + shard.pc.held := by
  have sum := sum_setShard s i shard (fun shard => shard.pc.held)
  rw [System.inFlight, System.inFlight, add_right_comm, sum, add_right_comm]
  rfl

theorem numbered_setShard
    (numbered : ∀ j, (s.taken j).map Batch.id = List.range' 1 (s.shards j).batchIDGen)
    (ids : shard.batchIDGen = (s.shards i).batchIDGen) (j : Fin n) :
    ((s.setShard i shard).taken j).map Batch.id =
      List.range' 1 ((s.setShard i shard).shards j).batchIDGen := by
  have number := numbered j
  by_cases here : j = i
  · subst here
    simpa [System.setShard, System.taken, ids] using number
  · simpa [System.setShard, System.taken, here] using number

theorem Batches.setShard (batches : Batches s) (held : shard.pc.held = (s.shards i).pc.held)
    (ids : shard.batchIDGen = (s.shards i).batchIDGen) : Batches (s.setShard i shard) where
  accounted := by
    have flight := inFlight_setShard s i shard
    rw [held] at flight
    rw [add_right_cancel flight]
    exact batches.accounted
  numbered := numbered_setShard batches.numbered ids

variable {batch : Batch n M}

theorem Batches.take (batches : Batches s) (before : (s.shards i).pc.held = 0)
    (held : shard.pc.held = {batch})
    (place : batch.shard = i) (id : batch.id = (s.shards i).batchIDGen + 1)
    (ids : shard.batchIDGen = (s.shards i).batchIDGen + 1) :
    Batches { s.setShard i shard with flushed := s.flushed ++ [batch] } where
  accounted := by
    have flight := inFlight_setShard s i shard
    rw [before, held, add_zero] at flight
    show ((s.flushed ++ [batch] : List (Batch n M)) : Multiset (Batch n M)) =
      (s.setShard i shard).inFlight + s.stored + s.failed
    rw [flight, ← Multiset.coe_add, batches.accounted, Multiset.coe_singleton]
    abel
  numbered j := by
    have number := batches.numbered j
    by_cases here : j = i
    · subst here
      simpa [System.setShard, System.taken, place, id, ids, List.range'_concat,
        Nat.add_comm 1] using number
    · simpa [System.setShard, System.taken, place, here, Ne.symm here] using number

theorem Batches.spawn (batches : Batches s) (before : (s.shards i).pc.held = {batch})
    (held : shard.pc.held = 0) (ids : shard.batchIDGen = (s.shards i).batchIDGen) :
    Batches { s.setShard i shard with flushers := s.flushers ++ [.storing batch] } where
  accounted := by
    have flight := inFlight_setShard s i shard
    rw [before, held, add_zero] at flight
    have spawned :
      System.inFlight { s.setShard i shard with flushers := s.flushers ++ [.storing batch] } =
        (s.setShard i shard).inFlight + {batch} := by
      simp only [System.inFlight, List.filterMap_append, List.filterMap_cons,
        List.filterMap_nil, unstored, ← Multiset.coe_add, Multiset.coe_singleton, System.setShard]
      abel
    rw [spawned, flight]
    exact batches.accounted
  numbered := numbered_setShard batches.numbered ids

variable {flushers : List (Flusher n ε M)} {k : Nat}

/-- The flush goroutines, the stored and the failed batches change, and together they still
    hold the same batches. -/
theorem Batches.exchange (batches : Batches s) {stored failed : List (Batch n M)}
    (same : ((flushers.filterMap unstored : List (Batch n M)) : Multiset (Batch n M)) +
      stored + failed =
      ((s.flushers.filterMap unstored : List (Batch n M)) : Multiset (Batch n M)) + s.stored + s.failed) :
    Batches { s with flushers := flushers, stored := stored, failed := failed } where
  accounted := by
    have accounted := batches.accounted
    simp only [System.inFlight, add_assoc] at accounted same ⊢
    rw [same]
    exact accounted
  numbered := batches.numbered

theorem unstored_set (found : flushers[k]? = some (.storing batch)) (err : Option ε) :
    (((flushers.set k (.confirming batch err)).filterMap unstored : List (Batch n M)) :
      Multiset (Batch n M)) + {batch} = (flushers.filterMap unstored : List (Batch n M)) := by
  obtain ⟨inside, here⟩ := List.getElem?_eq_some_iff.mp found
  have old := (List.getElem_cons_eraseIdx_perm inside).filterMap unstored
  have new := (List.set_perm_cons_eraseIdx inside (.confirming batch err)).filterMap unstored
  rw [here] at old
  rw [Multiset.coe_eq_coe.mpr new, ← Multiset.coe_eq_coe.mpr old, add_comm, Multiset.singleton_add]
  rfl

theorem unstored_eraseIdx (found : flushers[k]? = some (.confirming batch err)) :
    ((flushers.eraseIdx k).filterMap unstored).Perm (flushers.filterMap unstored) := by
  obtain ⟨inside, here⟩ := List.getElem?_eq_some_iff.mp found
  have old := (List.getElem_cons_eraseIdx_perm inside).filterMap unstored
  rw [here] at old
  exact old

theorem Counters.count (counters : Counters s)
    (change : metrics.balance + (s.shards i).pc.uncounted = s.metrics.balance +
      shard.pc.uncounted) : Counters { s.setShard i shard with metrics := metrics } := by
  have sum := sum_setShard s i shard (fun shard => shard.pc.uncounted)
  have before : s.metrics.balance + s.confirmPc.counted = ∑ i, (s.shards i).pc.uncounted := counters
  show metrics.balance + s.confirmPc.counted = ∑ j, ((s.setShard i shard).shards j).pc.uncounted
  omega

theorem Counters.setShard (counters : Counters s)
    (same : shard.pc.uncounted = (s.shards i).pc.uncounted) : Counters (s.setShard i shard) :=
  have counted : Counters { s.setShard i shard with metrics := s.metrics } :=
    counters.count (by rw [same])
  counted

end

section

variable {config : ParallelBatchWriterConfig} {topic : M → GoString} {s t : System n T ε M}
  {confirmChan : List (Confirmation ε)}

/-- A caller moves on without entering a channel. -/
theorem Placed.goto (placed : Placed config topic s) {pc : T → Pc n M}
    (lane : intake.lane = s.intake.lane)
    (callers : intake.Tracked Pc.hold (Pc.Aimed topic) (Lane topic) pc) :
    Placed config topic { s with pc := pc, intake := intake } where
  __ := placed
  callers := callers
  lines i := by
    show intake.lane i = _
    rw [lane]
    exact placed.lines i
  batches := ⟨placed.batches.accounted, placed.batches.numbered⟩

/-- What is neither a message nor a counter. -/
theorem Placed.steady (placed : Placed config topic s) :
    Placed config topic { s with
      running := running, cancelled := cancelled, confirmClosed :=
        confirmClosed, sentOnClosed := sentOnClosed
      stopping := stopping, confirmChan := confirmChan } :=
  ⟨placed.configured, placed.callers, placed.lines,
    ⟨placed.batches.accounted, placed.batches.numbered⟩, placed.counters⟩

theorem Placed.recount (placed : Placed config topic s)
    (counters : metrics.balance + confirmPc.counted = ∑ i, (s.shards i).pc.uncounted) :
    Placed config topic
    { s with metrics := metrics, confirmPc := confirmPc, confirmChan := confirmChan } :=
  ⟨placed.configured, placed.callers, placed.lines,
    ⟨placed.batches.accounted, placed.batches.numbered⟩, counters⟩

variable {i : Fin n}

theorem Placed.send [DecidableEq T] (placed : Placed config topic s)
    (held : (s.pc x).hold = .unsent call m)
    (shard : shardByBytes n (topic m) = some i) : Placed config topic (s.send x call m i) where
  configured := placed.configured
  callers := placed.callers.enter (.countQueued call m) held rfl trivial shard
  lines j := by
    have line := placed.lines j
    show (s.intake.enter call m i).lane j = _
    rw [Intake.lane_enter, line]
    by_cases here : i = j
    · subst here
      simp [System.send, System.goto, System.setShard, System.taken]
    · simp [System.send, System.goto, System.setShard, System.taken, here, Ne.symm here]
  batches :=
    have batches : Batches (s.setShard i { s.shards i with input := (s.shards i).input ++ [m] }) :=
      placed.batches.setShard rfl rfl
    ⟨batches.accounted, batches.numbered⟩
  counters :=
    have counters : Counters (s.setShard i { s.shards i with input := (s.shards i).input ++ [m] }) :=
      placed.counters.setShard rfl
    counters

/-- A shard changes without touching its messages, and without counting. -/
theorem Placed.setShard (placed : Placed config topic s)
    (messages : shard.currentBatch ++ shard.input = (s.shards i).currentBatch ++ (s.shards i).input)
    (held : shard.pc.held = (s.shards i).pc.held) (ids : shard.batchIDGen = (s.shards i).batchIDGen)
    (uncounted : shard.pc.uncounted = (s.shards i).pc.uncounted) :
    Placed config topic (s.setShard i shard) where
  __ := placed
  lines := placed.lines.setShard messages
  batches := placed.batches.setShard held ids
  counters := placed.counters.setShard uncounted

theorem resume_held (final : Bool) : (ShardPc.resume final : ShardPc n M).held = 0 := by
  cases final <;> rfl

theorem resume_uncounted (final : Bool) : (ShardPc.resume final : ShardPc n M).uncounted = 0 := by
  cases final <;> rfl

theorem Placed.flushAsync (placed : Placed config topic s) (selecting : (s.shards i).pc = .select)
    (final : Bool) : Placed config topic (s.flushAsync i final) := by
  have held : (s.shards i).pc.held = 0 := by rw [selecting]; rfl
  have uncounted : (s.shards i).pc.uncounted = 0 := by rw [selecting]; rfl
  rw [System.flushAsync]
  split
  · exact placed.setShard rfl (by rw [held, resume_held]) rfl (by rw [uncounted, resume_uncounted])
  · refine ⟨placed.configured, placed.callers, fun j => ?_,
      placed.batches.take held rfl rfl rfl rfl, placed.counters.setShard (by rw [uncounted]; rfl)⟩
    have line := placed.lines j
    by_cases here : j = i
    · subst here
      simpa [System.setShard, System.taken] using line
    · simpa [System.setShard, System.taken, here, Ne.symm here] using line

theorem Placed.received (placed : Placed config topic s) (selecting : (s.shards i).pc = .select)
    (queued : (s.shards i).input = m :: rest) : Placed config topic (s.received i m rest) := by
  have appended : Placed config topic (s.append i m rest) :=
    placed.setShard (by simp [queued]) rfl rfl rfl
  rw [System.received]
  split
  · exact appended.flushAsync (by simp [System.append, System.setShard, selecting]) false
  · exact appended

/-- A shard that keeps its batch and its messages goes on, and a counter goes with it. -/
theorem Placed.count (placed : Placed config topic s) (held : pc.held = (s.shards i).pc.held)
    (counted : metrics.balance + (s.shards i).pc.uncounted = s.metrics.balance + pc.uncounted) :
    Placed config topic { s.setShard i { s.shards i with pc := pc } with metrics := metrics } where
  __ := placed
  lines := placed.lines.setShard rfl
  batches :=
    have moved : Batches (s.setShard i { s.shards i with pc := pc }) :=
      placed.batches.setShard held rfl
    ⟨moved.accounted, moved.numbered⟩
  counters := placed.counters.count counted

theorem Placed.settle (placed : Placed config topic s) {stored failed : List (Batch n M)}
    (found : s.flushers[k]? = some (.storing batch))
    (settled : (stored + failed : Multiset (Batch n M)) = s.stored + s.failed + {batch}) :
    Placed config topic
      { s with stored := stored, failed := failed, flushers := s.flushers.set k (.confirming batch err) } where
  __ := placed
  batches := placed.batches.exchange (by
    rw [← unstored_set found err, add_assoc, settled]
    abel)

theorem Placed.store (placed : Placed config topic s)
    (found : s.flushers[k]? = some (.storing batch))
    (whole : config.inSubBatches = false ∨ choice.err.isNone = true) :
    Placed config topic
      { s.storeBatch batch choice with flushers := s.flushers.set k (.confirming batch choice.err) } := by
  cases result : choice.err with
  | none =>
    simp only [System.storeBatch, result]
    refine placed.settle found ?_
    rw [← Multiset.coe_add, Multiset.coe_singleton]
    abel
  | some err =>
    have whole' : s.config.inSubBatches = false := by
      rw [placed.configured]
      exact whole.resolve_right (by rw [result]; simp)
    simp only [System.storeBatch, result, whole', Bool.false_and, Bool.false_eq_true, if_false]
    refine placed.settle found ?_
    rw [← Multiset.coe_add, Multiset.coe_singleton]
    abel

theorem Placed.confirm (placed : Placed config topic s)
    (found : s.flushers[k]? = some (.confirming batch err)) (confirmChan : List (Confirmation ε)) :
    Placed config topic
    { s with confirmChan := confirmChan, flushers := s.flushers.eraseIdx k } := by
  have erased :
      Batches { s with flushers := s.flushers.eraseIdx k, stored := s.stored, failed := s.failed } :=
    placed.batches.exchange (by rw [Multiset.coe_eq_coe.mpr (unstored_eraseIdx found)])
  exact ⟨placed.configured, placed.callers, placed.lines, ⟨erased.accounted, erased.numbered⟩,
    placed.counters⟩

/-- The storage takes batches as a whole, or does not fail in this step. -/
def Label.Whole (config : ParallelBatchWriterConfig) : Label n T ε M → Prop
  | .store _ choice => config.inSubBatches = false ∨ choice.err.isNone = true
  | _ => True

theorem Label.whole_of_off (off : config.inSubBatches = false) (label : Label n T ε M) :
    label.Whole config := by
  cases label with
  | store => exact .inl off
  | _ => trivial

theorem Placed.step [DecidableEq T] (placed : Placed config topic s) {label : Label n T ε M}
    (whole : label.Whole config) (step : Step topic s label t) : Placed config topic t := by
  have callers := placed.callers
  have counters : s.metrics.balance + s.confirmPc.counted = ∑ i, (s.shards i).pc.uncounted :=
    placed.counters
  cases step with
  | begins m here => exact placed.goto rfl (callers.begin (.check s.intake.calls m) rfl trivial)
  | @aims x call m i here running shard =>
    have held : (s.pc x).hold = .unsent call m := by rw [here]; rfl
    exact placed.goto rfl (callers.turn (.trySend call m i) held.symm shard)
  | @notRunning x call m here stopped =>
    have held : (s.pc x).hold = .unsent call m := by rw [here]; rfl
    exact placed.goto rfl (callers.refuse .idle held rfl trivial _)
  | @sends x call m i here room =>
    have held : (s.pc x).hold = .unsent call m := by rw [here]; rfl
    exact placed.send held (callers.aimed_of here)
  | @findsFull x call m i here full =>
    have held : (s.pc x).hold = .unsent call m := by rw [here]; rfl
    have aim := callers.aimed_of here
    exact placed.goto rfl (callers.turn (.countFull call m i) held.symm aim)
  | @countsQueued x call m here =>
    have held : (s.pc x).hold = .sent call m := by rw [here]; rfl
    have counted : Placed config topic { s with metrics.messagesQueued := s.metrics.messagesQueued + 1 } :=
      placed.recount counters
    exact counted.goto rfl (callers.accept .idle held rfl trivial)
  | @countsFull x call m i here =>
    have held : (s.pc x).hold = .unsent call m := by rw [here]; rfl
    have counted :
        Placed config topic { s with metrics.queueFullErrors := s.metrics.queueFullErrors + 1 } :=
      placed.recount counters
    have aim := callers.aimed_of here
    exact counted.goto rfl (callers.turn (.blockingSend call m i) held.symm aim)
  | @sendsLate x call m i here room =>
    have held : (s.pc x).hold = .unsent call m := by rw [here]; rfl
    have sent := placed.send held (callers.aimed_of here)
    have now : ((s.send x call m i).pc x).hold = .sent call m := by
      simp [System.send, System.goto, Pc.hold]
    exact sent.goto rfl (sent.callers.accept .idle now rfl trivial)
  | receives selecting queued => exact placed.received selecting queued
  | ticks selecting => exact placed.flushAsync selecting false
  | shardEnds selecting closed => exact placed.flushAsync selecting true
  | countsWritten here | countsPending here =>
    refine placed.count (by rw [here]; rfl) ?_
    simp only [here, System.setShard, Metrics.balance, ShardPc.uncounted]
    omega
  | @spawns i batch final here =>
    have held : (s.shards i).pc.held = {batch} := by rw [here]; rfl
    have uncounted : (s.shards i).pc.uncounted = 0 := by rw [here]; rfl
    exact ⟨placed.configured, callers, placed.lines.setShard rfl,
      placed.batches.spawn held (resume_held final) rfl,
      placed.counters.setShard (by rw [uncounted, resume_uncounted])⟩
  | stores choice found => exact placed.store found whole
  | confirms found isOpen room => exact placed.confirm found _
  | takesConfirmation here | confirmEnds here | countsMessages here =>
    rw [here] at counters
    exact placed.recount counters
  | countsFailed here | countsConfirmed here | countsDone here =>
    refine placed.recount ?_
    simp only [← counters, here, Metrics.balance, ConfirmPc.counted]
    omega
  | @closes k phase inside =>
    have closed : Placed config topic (s.setShard ⟨k, inside⟩ { s.shards ⟨k, inside⟩ with stopChanClosed := true }) :=
      placed.setShard rfl rfl rfl rfl
    exact closed.steady
  | stoppedBefore => exact placed
  | sendsOnClosed | cancels | beginsStop | closedAll | closesConfirm | endsStop =>
    exact placed.steady

theorem placed_started (config : ParallelBatchWriterConfig) (topic : M → GoString)
    (parallelStore : Bool) :
    Placed config topic (started config parallelStore : System config.numShards T ε M) where
  configured := rfl
  callers := .fresh rfl trivial
  lines _ := rfl
  batches := ⟨by simp [started, System.inFlight, ShardPc.held], fun _ => rfl⟩
  counters := by simp [started, Counters, Metrics.balance, ConfirmPc.counted, ShardPc.uncounted]

theorem placed_run [DecidableEq T] {s : System config.numShards T ε M}
    (whole : config.inSubBatches = false)
    (ran : (machine topic).run (started config parallelStore) labels = some s) :
    Placed config topic s :=
  (machine topic).run_invariant
    (fun _ label _ placed stepped =>
      placed.step (label.whole_of_off whole) (System.step_of_next stepped))
    (placed_started config topic parallelStore) ran

end

/-- Each accepted message is in exactly one place. Its call has entered the channel of the
    shard of its topic; what entered that channel is the batches that the shard has taken,
    followed by its current batch and by the channel, in this order; and each batch taken
    is in flight, stored or failed. -/
structure OnePlace (topic : M → GoString) (s : System n T ε M) : Prop where
  accepted : ∀ r ∈ s.intake.returns, r.err.isNone = true →
    ∃ e ∈ s.intake.entries, e.call = r.call ∧ e.message = r.message
  refused : ∀ r ∈ s.intake.returns, r.err.isSome = true → ¬ s.intake.entered r.call
  once : (s.intake.entries.map Entry.call).Nodup
  lanes : ∀ e ∈ s.intake.entries, shardByBytes n (topic e.message) = some e.lane
  inOrder : ∀ i, s.intake.lane i =
    ((s.taken i).map Batch.messages).flatten ++ (s.shards i).currentBatch ++ (s.shards i).input
  distinct : ∀ i, ((s.taken i).map Batch.id).Nodup
  accounted : (s.flushed : Multiset (Batch n M)) = s.inFlight + s.stored + s.failed
  counters : s.confirmPc.counted = 0 → (∀ i, (s.shards i).pc.uncounted = 0) →
    (s.metrics.totalBatchesWritten : Int) =
      s.metrics.totalBatchesConfirmed + s.metrics.failedBatches + s.metrics.pendingBatches

theorem Placed.onePlace {s : System n T ε M} (placed : Placed config topic s) :
    OnePlace topic s where
  __ := placed.callers.sound
  lanes := placed.callers.lanes
  inOrder := placed.lines
  distinct i := by
    rw [placed.batches.numbered i]
    exact List.nodup_range'
  accounted := placed.batches.accounted
  counters counted uncounted := by
    have counters : s.metrics.balance + s.confirmPc.counted = ∑ i, (s.shards i).pc.uncounted :=
      placed.counters
    rw [counted, Finset.sum_eq_zero (fun i _ => uncounted i), Metrics.balance] at counters
    omega

end

theorem sharded_writers_place {T ε M : Type} [DecidableEq T] {config : ParallelBatchWriterConfig}
    (retries : 0 ≤ config.maxRetries) (whole : config.inSubBatches = false) (topic : M → GoString) :
    (∀ labels s, (ParallelBatchWriter.machine (n := config.numShards) (T := T) (ε := ε) topic).run
      (ParallelBatchWriter.started config) labels = some s → ParallelBatchWriter.OnePlace topic s) ∧
    (∀ parallelStore labels s, (machine (n := config.numShards) (T := T) (ε := ε) topic).run
      (started config parallelStore) labels = some s → OnePlace topic s) :=
  ⟨fun _ _ ran => (ParallelBatchWriter.placed_run retries ran).onePlace,
    fun _ _ _ ran => (placed_run whole ran).onePlace⟩

/-- Two shards with room for two messages each. The topic of a message is one byte. -/
def twoShards : ParallelBatchWriterConfig := ⟨2, 5, 1, 1, 0, false⟩

def byteTopic (m : Nat) : GoString := [UInt8.ofNat m]

/-- Three messages for the first shard: the third one finds its channel full and goes to
    the second shard. The first shard's batch is refused twice, then stored. -/
def overflowRun : List (ParallelBatchWriter.Label 2 Bool Nat Nat) :=
  [.write true 0, .step true, .step true, .step true, .write true 2, .step true,
    .step true, .step true,
    .write false 4, .step false, .step false, .step false, .step false,
      .receive 0 (fun _ => some 7),
    .timer 0 (fun i => if i = 0 then some 7 else none), .receive 1 (fun _ => none)]

/-- The first batch is stored and confirmed, the second one fails, the third is in flight. -/
def failingRun : List (Label 2 Bool Nat Nat) :=
  [.write true 0, .step true, .step true, .step true, .receive 0, .shardStep 0,
    .shardStep 0, .shardStep 0,
    .write true 2, .step true, .step true, .step true, .receive 0, .shardStep 0,
      .shardStep 0, .shardStep 0,
    .store 1 ⟨some 7, fun _ => false⟩, .store 0 ⟨none, fun _ => false⟩, .confirm 0,
      .processStep, .processStep,
    .processStep, .processStep, .write false 1, .step false, .step false, .step false,
      .receive 1, .shardStep 1, .shardStep 1]

theorem sharded_writers_place_two :
    (∃ s : ParallelBatchWriter.System 2 Bool Nat Nat,
      (ParallelBatchWriter.machine byteTopic).run
      (ParallelBatchWriter.started twoShards) overflowRun = some s ∧
      ((s.store 0).stored, (s.shards 0).bufferChan, (s.store 1).stored) = ([[0]], [2], [[4]]) ∧
        ParallelBatchWriter.OnePlace byteTopic s) ∧
    (∃ s : System 2 Bool Nat Nat, (machine byteTopic).run (started twoShards false) failingRun =
      some s ∧
      (s.stored.map Batch.messages, s.failed.map Batch.messages, s.metrics.pendingBatches) =
        ([[0]], [[2]], 2) ∧ OnePlace byteTopic s) := by
  have retries : 0 ≤ twoShards.maxRetries := by decide
  constructor
  · exact exists_of_view _ _ (by decide +kernel) fun s ran found =>
      ⟨found, (sharded_writers_place retries rfl byteTopic).1 overflowRun s ran⟩
  · exact exists_of_view _ _ (by decide +kernel) fun s ran found =>
      ⟨found, (sharded_writers_place retries rfl byteTopic).2 false failingRun s ran⟩

end Portask.Processor.AsyncBatchWriter
