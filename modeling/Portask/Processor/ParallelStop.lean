import Portask.Processor.ParallelBatchWriter

/-! # Stopping the parallel batch writer

`Stop` closes the shards' stop channels and waits for their loops. A shard that sees its
stop channel flushes its buffer and returns, whatever is still in its message channel, and
a caller that has passed the running check may send even later. With a storage that does
not fail, nothing is lost if every shard stops with an empty channel and with no such
caller about, and no loop ends by cancellation.
-/

namespace Portask.Processor.ParallelBatchWriter

open Function Lib

section

variable {n : Nat} {T ε M : Type}

/-- Past the running check, and not yet through with its sends. -/
def Pc.sending : Pc n M → Bool
  | .send .. | .sendNext .. => true
  | _ => false

/-- The storage does not fail, and shards stop in peace. -/
def Calm (s : System n T ε M) : Label n T ε M → Prop
  | .receive _ choices | .timer _ choices => (choices 0).isNone = true
  | .shardStops i choices =>
    (choices 0).isNone = true ∧ (s.shards i).bufferChan.isEmpty = true ∧
      ∀ t, (s.pc t).sending = false
  | .shardCancelled _ => False
  | _ => True

instance [Fintype T] (s : System n T ε M) : (label : Label n T ε M) → Decidable (Calm s label)
  | .receive _ _ | .timer _ _ => inferInstanceAs (Decidable (_ = true))
  | .shardStops _ _ => inferInstanceAs (Decidable (_ ∧ _ ∧ _))
  | .shardCancelled _ => inferInstanceAs (Decidable False)
  | .write _ _ | .step _ | .cancel | .stop | .closeStopCh | .wait =>
    inferInstanceAs (Decidable True)

/-- Every message whose `Write` returned nil has been stored: its call has entered a
    channel, and all that entered the channels is in the storage. -/
structure AllStored (s : System n T ε M) : Prop where
  accepted : ∀ r ∈ s.intake.returns, r.err.isNone = true →
    ∃ e ∈ s.intake.entries, e.call = r.call ∧ e.message = r.message
  once : (s.intake.entries.map Entry.call).Nodup
  stored : ∀ i, s.intake.lane i = (s.store i).stored.flatten

/-- A shard whose loop has returned leaves nothing behind, and nobody sends any more. -/
structure Peaceful (s : System n T ε M) : Prop where
  left : ∀ i, (s.shards i).looping = false →
    (s.shards i).bufferChan = [] ∧ (s.shards i).buffer.contents = [] ∧ s.running = false ∧
      ∀ t, (s.pc t).sending = false
  closed : ∀ i, (s.shards i).stopChClosed = true → s.running = false
  stopping : s.stopping ≠ .pending → s.running = false
  waited : s.stopping = .returned → ∀ i, (s.shards i).looping = false

section

/-- A turn of the loop of shard `i` that does not end it. -/
structure System.Turns (i : Fin n) (s t : System n T ε M) : Prop where
  running : t.running = s.running
  pc : t.pc = s.pc
  stopping : t.stopping = s.stopping
  looping : (t.shards i).looping = (s.shards i).looping
  closed : (t.shards i).stopChClosed = (s.shards i).stopChClosed
  others : ∀ j ≠ i, t.shards j = s.shards j

theorem System.Turns.refl (i : Fin n) (s : System n T ε M) : s.Turns i s :=
  ⟨rfl, rfl, rfl, rfl, rfl, fun _ _ => rfl⟩

theorem System.Turns.trans {s t u : System n T ε M} (first : s.Turns i t) (later : t.Turns i u) :
    s.Turns i u :=
  ⟨later.running.trans first.running, later.pc.trans first.pc, later.stopping.trans first.stopping,
    later.looping.trans first.looping, later.closed.trans first.closed,
    fun j other => (later.others j other).trans (first.others j other)⟩

variable (s : System n T ε M)

theorem System.turns_flushShard (i : Fin n) (choices : Nat → Option ε) :
    s.Turns i (s.flushShard i choices) := by
  rw [System.flushShard]
  split
  · exact .refl i s
  · exact ⟨rfl, rfl, rfl, rfl, rfl, fun _ _ => rfl⟩
  · exact ⟨rfl, rfl, rfl, by simp, by simp, fun j other => by simp [other]⟩

theorem System.turns_flushFilled (i : Fin n) (choices : Nat → Option ε) :
    s.Turns i (s.flushFilled i choices) := by
  rw [System.flushFilled]
  split
  · exact s.turns_flushShard i choices
  · exact .refl i s

theorem System.turns_received (i : Fin n) (m : M) (rest : List M) (choices : Nat → Option ε) :
    s.Turns i (s.received i m rest choices) := by
  have appended : s.Turns i (s.append i m rest) := by
    refine ⟨rfl, rfl, rfl, ?_, ?_, fun j other => ?_⟩ <;> simp [System.append, System.setShard, *]
  rw [System.received]
  split
  · exact appended.trans ((s.append i m rest).turns_flushShard i choices)
  · exact appended

theorem System.flushFilled_empties (retries : 0 ≤ s.config.maxRetries)
    (succeeds : (choices 0).isNone = true) :
    ((s.flushFilled i choices).shards i).buffer.contents = [] ∧
      ((s.flushFilled i choices).shards i).bufferChan = (s.shards i).bufferChan := by
  by_cases empty : (s.shards i).buffer.len = 0
  · simp only [System.flushFilled, empty, Nat.lt_irrefl, if_false]
    exact ⟨(Buffer.len_eq_zero _).mp empty, trivial⟩
  · simp [System.flushFilled, Nat.pos_of_ne_zero empty, System.flushShard,
      recording_flush_succeeds retries _ succeeds, empty]

end

section

variable {config : ParallelBatchWriterConfig} {topic : M → GoString} {s t : System n T ε M}

section

variable (peaceful : Peaceful s)
include peaceful

theorem Peaceful.turns (turns : s.Turns i t) (looping : (s.shards i).looping = true) :
    Peaceful t := by
  have others {j : Fin n} (ended : (t.shards j).looping = false) : t.shards j = s.shards j := by
    refine turns.others j fun here => ?_
    rw [here, turns.looping, looping] at ended
    cases ended
  constructor
  case left =>
    intro j ended
    have same := others ended
    rw [same] at ended ⊢
    rw [turns.running, turns.pc]
    exact peaceful.left j ended
  case closed =>
    intro j closed
    rw [turns.running]
    by_cases here : j = i
    · rw [here, turns.closed] at closed
      exact peaceful.closed i closed
    · rw [turns.others j here] at closed
      exact peaceful.closed j closed
  case stopping =>
    rw [turns.stopping, turns.running]
    exact peaceful.stopping
  case waited =>
    intro returned j
    rw [turns.stopping] at returned
    have all := peaceful.waited returned
    exact absurd (all i) (by rw [looping]; simp)

/-- A shard changes. If its loop has ended, it leaves nothing behind. -/
theorem Peaceful.setShard (left : shard.looping = false → shard.bufferChan = [] ∧
      shard.buffer.contents = [] ∧ s.running = false ∧ ∀ t, (s.pc t).sending = false)
    (closed : shard.stopChClosed = true → s.running = false)
    (ended : s.stopping = .returned → shard.looping = false) : Peaceful (s.setShard i shard) where
  left j := by
    obtain ⟨-, same⟩ | ⟨-, same⟩ := of_update (rfl : (s.setShard i shard).shards j = _) <;>
      rw [← same]
    · exact left
    · exact peaceful.left j
  closed j := by
    obtain ⟨-, same⟩ | ⟨-, same⟩ := of_update (rfl : (s.setShard i shard).shards j = _) <;>
      rw [← same]
    · exact closed
    · exact peaceful.closed j
  stopping := peaceful.stopping
  waited returned j := by
    obtain ⟨-, same⟩ | ⟨-, same⟩ := of_update (rfl : (s.setShard i shard).shards j = _) <;>
      rw [← same]
    · exact ended returned
    · exact peaceful.waited returned j

/-- A caller moves on where no loop has ended, or to a place from which it does not send. -/
theorem Peaceful.goto [DecidableEq T] (x : T) (pc : Pc n M)
    (quiet : pc.sending = true → s.running = true ∨ ∃ y, (s.pc y).sending = true) :
    Peaceful { s.goto x pc with intake := intake, messageCount := messageCount } where
  left i ended := by
    obtain ⟨chan, buffer, stopped, silent⟩ := peaceful.left i ended
    exact ⟨chan, buffer, stopped, Intake.silent_update stopped silent quiet x⟩
  __ := peaceful

theorem Peaceful.send [DecidableEq T] (sends : (s.pc x).sending = true)
    (sent : s.send x call m i = some t) : Peaceful t := by
  rw [System.send, Option.ite_none_right_eq_some] at sent
  obtain ⟨-, sent⟩ := sent
  obtain rfl := Option.some.inj sent
  have entered :
      Peaceful (s.setShard i { s.shards i with bufferChan := (s.shards i).bufferChan ++ [m] }) := by
    refine peaceful.setShard (fun ended => ?_) (peaceful.closed i) (peaceful.waited · i)
    rw [(peaceful.left i ended).2.2.2 x] at sends
    cases sends
  exact entered.goto x (.count call m) (by simp [Pc.sending])

theorem Peaceful.shardStops (retries : 0 ≤ s.config.maxRetries)
    (succeeds : (choices 0).isNone = true) (drained : (s.shards i).bufferChan = [])
    (silent : ∀ t, (s.pc t).sending = false) (looping : (s.shards i).looping = true)
    (closed : (s.shards i).stopChClosed = true) :
    Peaceful ((s.flushFilled i choices).shardReturns i) := by
  have turned := s.turns_flushFilled i choices
  have flushed := peaceful.turns turned looping
  obtain ⟨buffer, chan⟩ := s.flushFilled_empties retries succeeds
  have stopped : (s.flushFilled i choices).running = false :=
    turned.running.trans (peaceful.closed i closed)
  refine flushed.setShard (fun _ => ⟨chan.trans drained, buffer, stopped, ?_⟩) (fun _ => stopped)
    (fun _ => rfl)
  rw [turned.pc]
  exact silent

theorem Peaceful.closes (phase : s.stopping = .closing k) (inside : k < n) :
    Peaceful { s.closeShard ⟨k, inside⟩ with stopping := .closing (k + 1) } := by
  have stopped : s.running = false := peaceful.stopping (by rw [phase]; simp)
  have closed : Peaceful (s.closeShard ⟨k, inside⟩) :=
    peaceful.setShard (peaceful.left _) (fun _ => stopped) (peaceful.waited · _)
  exact ⟨closed.left, closed.closed, fun _ => stopped, by simp⟩

theorem Peaceful.next [DecidableEq T] (retries : 0 ≤ s.config.maxRetries) (calm : Calm s label)
    (stepped : s.next topic label = some t) : Peaceful t := by
  cases System.step_of_next stepped with
  | begins | notRunning | allShardsFull | counts => exact peaceful.goto _ _ (by simp [Pc.sending])
  | aims here running => exact peaceful.goto _ _ (fun _ => .inl running)
  | sends here sent | sendsNext here sent => exact peaceful.send (by rw [here]; rfl) sent
  | turnsToNext here => exact peaceful.goto _ _ (fun _ => .inr ⟨_, by rw [here]; rfl⟩)
  | receives choices _ looping => exact peaceful.turns (s.turns_received _ _ _ choices) looping
  | ticks choices looping => exact peaceful.turns (s.turns_flushFilled _ choices) looping
  | stops choices looping closed =>
    obtain ⟨succeeds, drained, silent⟩ := calm
    exact peaceful.shardStops retries succeeds (List.isEmpty_iff.mp drained) silent looping closed
  | isCancelled => exact calm.elim
  | cancels => exact ⟨peaceful.left, peaceful.closed, peaceful.stopping, peaceful.waited⟩
  | beginsStop =>
    refine ⟨fun i ended => ?_, fun _ _ => rfl, fun _ => rfl, by simp⟩
    obtain ⟨chan, buffer, -, silent⟩ := peaceful.left i ended
    exact ⟨chan, buffer, rfl, silent⟩
  | stoppedBefore => exact peaceful
  | closes phase inside => exact peaceful.closes phase inside
  | closedAll phase =>
    exact ⟨peaceful.left, peaceful.closed, fun _ =>
      peaceful.stopping (by rw [phase]; simp), by simp⟩
  | endsStop phase ended =>
    exact ⟨peaceful.left, peaceful.closed, fun _ => peaceful.stopping (by rw [phase]; simp),
      fun _ => ended⟩

end

theorem peaceful_started : Peaceful (started config : System config.numShards T ε M) where
  left _ ended := nomatch ended
  closed _ closed := nomatch closed
  stopping stopping := absurd rfl stopping
  waited returned := nomatch returned

theorem Peaceful.allStored (peaceful : Peaceful s) (placed : Placed config topic s)
    (returned : s.stopping = .returned) : AllStored s where
  __ := placed.callers.sound
  stored i := by
    obtain ⟨chan, buffer, -⟩ := peaceful.left i (peaceful.waited returned i)
    rw [placed.line, System.line, chan, buffer, List.append_nil, List.append_nil]

theorem stores_all_of_calm [DecidableEq T] [Fintype T] {s : System config.numShards T ε M}
    (retries : 0 ≤ config.maxRetries)
    (ran : ((machine topic).restrict Calm).run (started config) labels = some s)
    (returned : s.stopping = .returned) : AllStored s := by
  have both :=
    ((machine topic).restrict Calm).run_invariant (P := fun s => Placed config topic s ∧ Peaceful s)
    (fun s label t before stepped => by
      obtain ⟨placed, peaceful⟩ := before
      obtain ⟨calm, step⟩ := (Machine.restrict_next _).mp stepped
      have used : 0 ≤ s.config.maxRetries := by rw [placed.configured]; exact retries
      exact ⟨placed.next retries step, peaceful.next used calm step⟩)
    ⟨placed_started config topic, peaceful_started⟩ ran
  exact both.2.allStored both.1 returned

end

end

end Portask.Processor.ParallelBatchWriter
