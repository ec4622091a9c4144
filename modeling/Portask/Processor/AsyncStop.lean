import Portask.Processor.AsyncPlacement

/-! # Stopping the asynchronous batch writer

`Stop` closes the stop channels of the shards and then the confirmation channel, without
waiting for anything in between. A flush goroutine that reports after that sends on a
closed channel, and the shards drop what is in their input channels. All is well if the
shards stop with empty channels and with no caller past its running check, and if the
confirmation channel is closed when the shards have returned and no flush goroutine is
left.
-/

namespace Portask.Processor.AsyncBatchWriter

open Function Lib

section

variable {n : Nat} {T ε M : Type}

/-- Past the running check, and not yet through with its send. -/
def Pc.sending : Pc n M → Bool
  | .trySend .. | .countFull .. | .blockingSend .. => true
  | _ => false

/-- The storage does not fail, and the shards and the confirmations stop in peace. -/
def Calm (s : System n T ε M) : Label n T ε M → Prop
  | .store _ choice => choice.err.isNone = true
  | .shardStops i => (s.shards i).input.isEmpty = true ∧ ∀ t, (s.pc t).sending = false
  | .stopStep =>
    s.stopping = .closeConfirm → s.flushers.isEmpty = true ∧ ∀ i, (s.shards i).pc.isReturned = true
  | _ => True

instance [Fintype T] (s : System n T ε M) : (label : Label n T ε M) → Decidable (Calm s label)
  | .store _ _ => inferInstanceAs (Decidable (_ = true))
  | .shardStops _ => inferInstanceAs (Decidable (_ ∧ _))
  | .stopStep => inferInstanceAs (Decidable (_ → _))
  | .write _ _ | .step _ | .receive _ | .timer _ | .shardStep _ | .confirm _ | .processStep
    | .processCancelled
  | .cancel | .stop => inferInstanceAs (Decidable True)

/-- Every message whose `Write` returned nil has been stored: its call has entered a
    channel, all that entered the channels is in batches, and the batches are stored. -/
structure AllStored (s : System n T ε M) : Prop where
  accepted : ∀ r ∈ s.intake.returns, r.err.isNone = true →
    ∃ e ∈ s.intake.entries, e.call = r.call ∧ e.message = r.message
  once : (s.intake.entries.map Entry.call).Nodup
  taken : ∀ i, s.intake.lane i = ((s.taken i).map Batch.messages).flatten
  stored : (s.flushed : Multiset (Batch n M)) = s.stored

/-- `run` has returned or is in its final flush. -/
def ShardPc.ending : ShardPc n M → Bool
  | .countWritten _ final | .countPending _ final | .spawn _ final => final
  | .select => false
  | .returned => true

structure Peaceful (s : System n T ε M) : Prop where
  left : ∀ i, (s.shards i).pc.ending = true →
    (s.shards i).input = [] ∧ (s.shards i).currentBatch = [] ∧ s.running = false ∧
      ∀ t, (s.pc t).sending = false
  closed : ∀ i, (s.shards i).stopChanClosed = true → s.running = false
  stopping : s.stopping ≠ .pending → s.running = false
  confirmed : s.confirmClosed = true → s.flushers = [] ∧ ∀ i, (s.shards i).pc.isReturned = true
  waited : s.stopping = .waiting ∨ s.stopping = .returned → s.confirmClosed = true
  failed : s.failed = []
  unbroken : s.sentOnClosed = false

section

variable {s t : System n T ε M}

theorem resume_ending (final : Bool) : (ShardPc.resume final : ShardPc n M).ending = final := by
  cases final <;> rfl

theorem ending_of_returned {pc : ShardPc n M} (returned : pc.isReturned = true) :
    pc.ending = true := by
  cases pc with
  | returned => rfl
  | select | countWritten | countPending | spawn => cases returned

/-- A step that touches neither the shards nor the callers. -/
theorem Peaceful.keep (peaceful : Peaceful s) (shards : t.shards = s.shards) (pc : t.pc = s.pc)
    (running : t.running = s.running) (stopping : t.stopping = s.stopping)
    (confirmClosed : t.confirmClosed = s.confirmClosed)
    (flushers : s.confirmClosed = true → t.flushers = s.flushers) (failed : t.failed = s.failed)
    (unbroken : t.sentOnClosed = s.sentOnClosed) : Peaceful t where
  left := by rw [shards, pc, running]; exact peaceful.left
  closed := by rw [shards, running]; exact peaceful.closed
  stopping := by rw [stopping, running]; exact peaceful.stopping
  confirmed := by
    rw [confirmClosed, shards]
    intro closed
    rw [flushers closed]
    exact peaceful.confirmed closed
  waited := by rw [stopping, confirmClosed]; exact peaceful.waited
  failed := failed.trans peaceful.failed
  unbroken := unbroken.trans peaceful.unbroken

/-- A shard changes, and is not ending if it was not. -/
theorem Peaceful.setShard (peaceful : Peaceful s) (left : shard.pc.ending = true →
      shard.input = [] ∧ shard.currentBatch = [] ∧ s.running = false ∧ ∀ t, (s.pc t).sending = false)
    (closed : shard.stopChanClosed = true → s.running = false)
    (confirmed : s.confirmClosed = true → shard.pc.isReturned = true) :
    Peaceful (s.setShard i shard) where
  left j := by
    obtain ⟨-, same⟩ | ⟨-, same⟩ := of_update (rfl : (s.setShard i shard).shards j = _) <;>
      rw [← same]
    · exact left
    · exact peaceful.left j
  closed j := by
    obtain ⟨-, same⟩ | ⟨-, same⟩ := of_update (rfl : (s.setShard i shard).shards j = _) <;>
      rw [← same]
    · exact closed
    · exact peaceful.closed j
  __ := peaceful
  confirmed closed' := by
    refine ⟨(peaceful.confirmed closed').1, fun j => ?_⟩
    obtain ⟨-, same⟩ | ⟨-, same⟩ := of_update (rfl : (s.setShard i shard).shards j = _) <;>
      rw [← same]
    · exact confirmed closed'
    · exact (peaceful.confirmed closed').2 j

/-- As long as some shard runs, the confirmation channel is open. -/
theorem Peaceful.unconfirmed (peaceful : Peaceful s)
    (running : (s.shards i).pc.isReturned = false) : ¬ s.confirmClosed = true := by
  intro closed
  have returned := (peaceful.confirmed closed).2 i
  rw [running] at returned
  cases returned

end

section

variable {config : ParallelBatchWriterConfig} {topic : M → GoString} {s t : System n T ε M}

theorem Peaceful.goto [DecidableEq T] (peaceful : Peaceful s) (x : T) (pc : Pc n M)
    (quiet : pc.sending = true → s.running = true ∨ ∃ y, (s.pc y).sending = true) :
    Peaceful { s.goto x pc with intake := intake, metrics := metrics } where
  left i ending := by
    obtain ⟨input, batch, stopped, silent⟩ := peaceful.left i ending
    exact ⟨input, batch, stopped, Intake.silent_update stopped silent quiet x⟩
  __ := peaceful

variable {i : Fin n} {label : Label n T ε M}

theorem Peaceful.send [DecidableEq T] (peaceful : Peaceful s) (sends : (s.pc x).sending = true) :
    Peaceful (s.send x call m i) := by
  have running {j : Fin n} (ending : (s.shards j).pc.ending = true) : False := by
    rw [(peaceful.left j ending).2.2.2 x] at sends
    cases sends
  have sent : Peaceful (s.setShard i { s.shards i with input := (s.shards i).input ++ [m] }) :=
    peaceful.setShard (fun ending => (running ending).elim) (peaceful.closed i)
      (fun closed => (peaceful.confirmed closed).2 i)
  exact sent.goto x (.countQueued call m) (by simp [Pc.sending])

theorem Peaceful.flushAsync (peaceful : Peaceful s) (selecting : (s.shards i).pc = .select)
    (ends : final = true → (s.shards i).input = [] ∧ s.running = false ∧
      ∀ t, (s.pc t).sending = false) : Peaceful (s.flushAsync i final) := by
  have unconfirmed := peaceful.unconfirmed (i := i) (by rw [selecting]; rfl)
  rw [System.flushAsync]
  split
  · next empty =>
      refine peaceful.setShard (fun ending => ?_) (peaceful.closed i) (absurd · unconfirmed)
      obtain ⟨input, stopped, silent⟩ := ends (by simpa only [resume_ending] using ending)
      exact ⟨input, empty, stopped, silent⟩
  · have taken : Peaceful (s.setShard i
        { s.shards i with
          currentBatch := []
          batchIDGen := (s.shards i).batchIDGen + 1
          pc := .countWritten ⟨i, (s.shards i).batchIDGen + 1, (s.shards i).currentBatch⟩ final }) := by
      refine peaceful.setShard (fun ending => ?_) (peaceful.closed i) (absurd · unconfirmed)
      obtain ⟨input, stopped, silent⟩ := ends ending
      exact ⟨input, rfl, stopped, silent⟩
    exact taken.keep rfl rfl rfl rfl rfl (fun _ => rfl) rfl rfl

theorem Peaceful.received (peaceful : Peaceful s) (selecting : (s.shards i).pc = .select) :
    Peaceful (s.received i m rest) := by
  have unconfirmed := peaceful.unconfirmed (i := i) (by rw [selecting]; rfl)
  have appended : Peaceful (s.append i m rest) :=
    peaceful.setShard (fun ending => absurd ending (by simp [selecting, ShardPc.ending]))
      (peaceful.closed i)
      (absurd · unconfirmed)
  rw [System.received]
  split
  · exact appended.flushAsync (by simp [System.append, System.setShard, selecting]) (by simp)
  · exact appended

/-- A step of `flushAsync` leads to `pc` and does the rest elsewhere. -/
theorem Peaceful.proceed (peaceful : Peaceful s) (running : (s.shards i).pc.isReturned = false)
    (ending : pc.ending = (s.shards i).pc.ending) :
    Peaceful
    { s.setShard i { s.shards i with pc := pc } with metrics := metrics, flushers := flushers } := by
  have unconfirmed := peaceful.unconfirmed running
  have moved : Peaceful (s.setShard i { s.shards i with pc := pc }) :=
    peaceful.setShard (fun ends => peaceful.left i (ending ▸ ends)) (peaceful.closed i)
      (absurd · unconfirmed)
  exact moved.keep rfl rfl rfl rfl rfl (absurd · unconfirmed) rfl rfl

/-- As long as some flush goroutine is left, the confirmation channel is open. -/
theorem Peaceful.open_of_flusher (peaceful : Peaceful s) {k : Nat}
    (found : s.flushers[k]? = some flusher) : ¬ s.confirmClosed = true := by
  intro closed
  rw [(peaceful.confirmed closed).1] at found
  cases found

/-- `Stop` goes on. It waits only after it has closed the confirmation channel. -/
theorem Peaceful.stops (peaceful : Peaceful s) (stopped : s.running = false) {stopping}
    (waited : stopping = .waiting ∨ stopping = .returned → s.confirmClosed = true) :
    Peaceful { s with stopping := stopping } :=
  ⟨peaceful.left, peaceful.closed, fun _ => stopped, peaceful.confirmed, waited, peaceful.failed,
    peaceful.unbroken⟩

theorem Peaceful.step [DecidableEq T] (peaceful : Peaceful s) (calm : Calm s label)
    (step : Step topic s label t) : Peaceful t := by
  cases step with
  | begins | notRunning | countsQueued => exact peaceful.goto _ _ (by simp [Pc.sending])
  | @aims x call m i here running shard =>
    exact peaceful.goto x (.trySend call m i) (fun _ => .inl running)
  | sends here room => exact peaceful.send (by rw [here]; rfl)
  | @findsFull x call m i here full =>
    exact peaceful.goto x (.countFull call m i) (fun _ => .inr ⟨x, by rw [here]; rfl⟩)
  | @countsFull x call m i here =>
    exact peaceful.goto x (.blockingSend call m i) (fun _ => .inr ⟨x, by rw [here]; rfl⟩)
  | @sendsLate x call m i here room =>
    have sent : Peaceful (s.send x call m i) := peaceful.send (by rw [here]; rfl)
    exact sent.goto x .idle (by simp [Pc.sending])
  | receives selecting queued => exact peaceful.received selecting
  | ticks selecting => exact peaceful.flushAsync selecting (by simp)
  | @shardEnds i selecting closed =>
    obtain ⟨drained, silent⟩ := calm
    exact peaceful.flushAsync selecting (fun _ =>
      ⟨List.isEmpty_iff.mp drained, peaceful.closed i closed, silent⟩)
  | countsWritten here | countsPending here =>
    exact peaceful.proceed (by rw [here]; rfl) (by rw [here]; rfl)
  | spawns here => exact peaceful.proceed (by rw [here]; rfl) (by rw [here, resume_ending]; rfl)
  | stores choice found =>
    have succeeds : choice.err = none := Option.isNone_iff_eq_none.mp calm
    simp only [System.storeBatch, succeeds]
    exact peaceful.keep rfl rfl rfl rfl rfl (absurd · (peaceful.open_of_flusher found)) rfl rfl
  | sendsOnClosed found closed => exact absurd closed (peaceful.open_of_flusher found)
  | confirms found isOpen room =>
    exact peaceful.keep rfl rfl rfl rfl rfl (absurd · (peaceful.open_of_flusher found)) rfl rfl
  | takesConfirmation | confirmEnds | countsFailed | countsConfirmed | countsMessages
    | countsDone | cancels =>
    exact peaceful.keep rfl rfl rfl rfl rfl (fun _ => rfl) rfl rfl
  | beginsStop running =>
    exact
      { left := fun i ending => by
          obtain ⟨input, batch, -, silent⟩ := peaceful.left i ending
          exact ⟨input, batch, rfl, silent⟩
        closed := fun _ _ => rfl
        stopping := fun _ => rfl
        __ := peaceful
        waited := (by simp)
        unbroken := peaceful.unbroken }
  | stoppedBefore => exact peaceful
  | @closes k phase inside =>
    have stopped : s.running = false := peaceful.stopping (by simp [phase])
    have closed : Peaceful (s.setShard ⟨k, inside⟩ { s.shards ⟨k, inside⟩ with stopChanClosed := true }) :=
      peaceful.setShard (peaceful.left _) (fun _ => stopped)
        (fun closed => (peaceful.confirmed closed).2 _)
    exact closed.stops stopped (by simp)
  | closedAll phase => exact peaceful.stops (peaceful.stopping (by simp [phase])) (by simp)
  | closesConfirm phase =>
    obtain ⟨idle, returned⟩ := calm phase
    have stopped : s.running = false := peaceful.stopping (by simp [phase])
    exact ⟨peaceful.left, peaceful.closed, fun _ => stopped, fun _ =>
      ⟨List.isEmpty_iff.mp idle, returned⟩, fun _ => rfl, peaceful.failed, peaceful.unbroken⟩
  | endsStop phase ended =>
    exact peaceful.stops (peaceful.stopping (by simp [phase]))
      (fun _ => peaceful.waited (.inl phase))

theorem peaceful_started (parallelStore : Bool) :
    Peaceful (started config parallelStore : System config.numShards T ε M) where
  left _ ending := nomatch ending
  closed _ closed := nomatch closed
  stopping stopping := absurd rfl stopping
  confirmed closed := nomatch closed
  waited either := either.elim (by simp [started]) (by simp [started])
  failed := rfl
  unbroken := rfl

theorem held_of_returned {pc : ShardPc n M} (returned : pc.isReturned = true) : pc.held = 0 := by
  cases pc with
  | returned => rfl
  | select | countWritten | countPending | spawn => cases returned

theorem Peaceful.allStored (peaceful : Peaceful s) (placed : Placed config topic s)
    (returned : s.stopping = .returned) : AllStored s := by
  obtain ⟨idle, ended⟩ := peaceful.confirmed (peaceful.waited (.inr returned))
  have landed : s.inFlight = 0 := by
    rw [System.inFlight, idle, Finset.sum_eq_zero fun i _ => held_of_returned (ended i)]
    rfl
  exact
    { accepted := placed.callers.sound.accepted
      once := placed.callers.sound.once
      taken := fun i => by
        obtain ⟨input, batch, -⟩ := peaceful.left i (ending_of_returned (ended i))
        have line := placed.lines i
        rwa [input, batch, List.append_nil, List.append_nil] at line
      stored := by
        rw [placed.batches.accounted, landed, peaceful.failed, zero_add, Multiset.coe_nil, add_zero] }

theorem Calm.whole (calm : Calm s label) : label.Whole config := by
  cases label with
  | store => exact .inr calm
  | _ => trivial

theorem calm_run [DecidableEq T] [Fintype T] {s : System config.numShards T ε M}
    (ran : ((machine topic).restrict Calm).run (started config parallelStore) labels = some s) :
    Placed config topic s ∧ Peaceful s :=
  ((machine topic).restrict Calm).run_invariant (P := fun s => Placed config topic s ∧ Peaceful s)
    (fun s label t before stepped => by
      obtain ⟨calm, stepped⟩ := (Machine.restrict_next _).mp stepped
      have step := System.step_of_next stepped
      exact ⟨before.1.step calm.whole step, before.2.step calm step⟩)
    ⟨placed_started config topic parallelStore, peaceful_started parallelStore⟩ ran

end

end

end Portask.Processor.AsyncBatchWriter
