import Mathlib.Data.Fintype.Basic
import Portask.Lib.Intake
import Portask.Lib.Machine
import Portask.Processor.Sharding
import Portask.Processor.Storage

/-! # The parallel batch writer

Each shard has a bounded channel and a goroutine that moves messages from the channel to
its buffer and stores the buffer in batches. `Write` sends to the shard of the topic, or to
the next one if that channel is full, and gives up if both are. `Write` is cut at its loads
and sends. One turn of a shard's loop is one step: nobody else touches the buffer, and what
the shard hands to the storage is recorded for each shard on its own.
-/

namespace Portask.Processor.ParallelBatchWriter

open Function Lib

structure Shard (M : Type) where
  buffer : Buffer M
  bufferChan : List M
  localMsgCnt : Nat
  localBatchCnt : Nat
  stopChClosed : Bool
  /-- `runShard` has not returned. -/
  looping : Bool

inductive WriteError where
  | notRunning
  | allShardsFull
  deriving DecidableEq

def WriteError.message : WriteError → String
  | .notRunning => "parallel batch writer not running"
  | .allShardsFull => "all shards full"

/-- Where a caller of `Write` is: before the running check, before the send to the shard of
    the topic, before the send to the next shard, before the counter. -/
inductive Pc (n : Nat) (M : Type) where
  | idle
  | check (call : Nat) (m : M)
  | send (call : Nat) (m : M) (shard : Fin n)
  | sendNext (call : Nat) (m : M) (shard : Fin n)
  | count (call : Nat) (m : M)

/-- Where the call of `Stop` is that found the writer running. -/
inductive StopCall where
  | pending
  | closing (shard : Nat)
  | waiting
  | returned
  deriving DecidableEq

/-- The intake is not part of the program. The storage is kept apart by the shard that the
    batches come from. -/
structure System (n : Nat) (T ε M : Type) where
  config : ParallelBatchWriterConfig
  shards : Fin n → Shard M
  running : Bool
  messageCount : Nat
  batchCount : Nat
  errorCount : Nat
  cancelled : Bool
  stopping : StopCall
  pc : T → Pc n M
  store : Fin n → Recorder ε M
  intake : Intake (Fin n) WriteError M

inductive Label (n : Nat) (T ε M : Type) where
  | write (t : T) (m : M)
  | step (t : T)
  /-- The four cases of the select statement in `runShard`. -/
  | receive (i : Fin n) (choices : Nat → Option ε)
  | timer (i : Fin n) (choices : Nat → Option ε)
  | shardStops (i : Fin n) (choices : Nat → Option ε)
  | shardCancelled (i : Fin n)
  | cancel
  | stop
  | closeStopCh
  | wait

/-- A new writer on which `Start` has been called. -/
def started {T ε M : Type}
    (config : ParallelBatchWriterConfig) : System config.numShards T ε M where
  config := config
  shards _ := ⟨.make config.batchSize.toNat, [], 0, 0, false, true⟩
  running := true
  messageCount := 0
  batchCount := 0
  errorCount := 0
  cancelled := false
  stopping := .pending
  pc _ := .idle
  store _ := {}
  intake := {}

section

variable {n : Nat} {T ε M : Type} [DecidableEq T]

section

variable (s : System n T ε M)

def System.goto (t : T) (pc : Pc n M) : System n T ε M :=
  { s with pc := update s.pc t pc }

def System.setShard (i : Fin n) (shard : Shard M) : System n T ε M :=
  { s with shards := update s.shards i shard }

/-- `Write` returns. -/
def System.finish (t : T) (call : Nat) (m : M) (err : Option WriteError) : System n T ε M :=
  { s.goto t .idle with intake := s.intake.finish call m err }

/-- The non-blocking send: `none` when the channel is full. -/
def System.send (t : T) (call : Nat) (m : M) (i : Fin n) : Option (System n T ε M) :=
  if (s.shards i).bufferChan.length < s.config.channelSize then
    some { (s.setShard i { s.shards i with bufferChan := (s.shards i).bufferChan ++ [m] }).goto t (.count call m) with
      intake := s.intake.enter call m i }
  else none

end

/-- The next step of a call of `Write`. It does not come if `getShardID` panics. -/
def System.advance (topic : M → GoString) (s : System n T ε M) (t : T) : Pc n M →
    Option (System n T ε M)
  | .idle => none
  | .check call m =>
    if s.running then (shardByRunes n (topic m)).map (fun i => s.goto t (.send call m i))
    else some (s.finish t call m (some .notRunning))
  | .send call m i => some ((s.send t call m i).getD (s.goto t (.sendNext call m (nextShard i))))
  | .sendNext call m i => some ((s.send t call m i).getD (s.finish t call m (some .allShardsFull)))
  | .count call m => some (({ s with messageCount := s.messageCount + 1 }).finish t call m none)

section

variable (s : System n T ε M)

variable (i : Fin n)

/-- `flushShard`, whose error is dropped by its callers. -/
def System.flushShard (choices : Nat → Option ε) : System n T ε M :=
  match recording.flush s.config.maxRetries (s.shards i).buffer choices (s.store i) with
  | .empty => s
  | .failed store _ => { s with store := update s.store i store, errorCount := s.errorCount + 1 }
  | .stored store =>
    { s with
      store := update s.store i store
      batchCount := s.batchCount + 1
      shards := update s.shards i
        { s.shards i with buffer := (s.shards i).buffer.clear, localBatchCnt := (s.shards i).localBatchCnt + 1 } }

/-- The timer case, and what the stop case does before it returns. -/
def System.flushFilled (choices : Nat → Option ε) : System n T ε M :=
  if 0 < (s.shards i).buffer.len then s.flushShard i choices else s

/-- The message `m` is received from the channel and appended to the buffer. -/
def System.append (m : M) (rest : List M) : System n T ε M :=
  s.setShard i
    { s.shards i with
      bufferChan := rest
      buffer := (s.shards i).buffer.append m
      localMsgCnt := (s.shards i).localMsgCnt + 1 }

def System.received (m : M) (rest : List M) (choices : Nat → Option ε) :
    System n T ε M :=
  if s.config.batchSize ≤ ((s.append i m rest).shards i).buffer.len then
    (s.append i m rest).flushShard i choices
  else s.append i m rest

def System.shardReturns : System n T ε M :=
  s.setShard i { s.shards i with looping := false }

def System.closeShard : System n T ε M :=
  s.setShard i { s.shards i with stopChClosed := true }

end

def System.next (topic : M → GoString) (s : System n T ε M) : Label n T ε M →
    Option (System n T ε M)
  | .write t m =>
    match s.pc t with
    | .idle => some { s.goto t (.check s.intake.calls m) with intake := s.intake.begin }
    | _ => none
  | .step t => s.advance topic t (s.pc t)
  | .receive i choices =>
    match (s.shards i).bufferChan with
    | m :: rest => if (s.shards i).looping then some (s.received i m rest choices) else none
    | [] => none
  | .timer i choices => if (s.shards i).looping then some (s.flushFilled i choices) else none
  | .shardStops i choices =>
    if (s.shards i).looping ∧ (s.shards i).stopChClosed then
      some ((s.flushFilled i choices).shardReturns i)
    else none
  | .shardCancelled i =>
    if (s.shards i).looping ∧ s.cancelled then some (s.shardReturns i) else none
  | .cancel => some { s with cancelled := true }
  | .stop => if s.running then some { s with running := false, stopping := .closing 0 } else some s
  | .closeStopCh =>
    match s.stopping with
    | .closing k =>
      if inside : k < n then
        some { s.closeShard ⟨k, inside⟩ with stopping := .closing (k + 1) }
      else some { s with stopping := .waiting }
    | _ => none
  | .wait =>
    match s.stopping with
    | .waiting =>
      if ∀ i, (s.shards i).looping = false then some { s with stopping := .returned } else none
    | _ => none

def machine (topic : M → GoString) : Machine (System n T ε M) (Label n T ε M) := ⟨System.next topic⟩

/-- What a step does, with the branches of the code taken apart. -/
inductive Step (topic : M → GoString) (s : System n T ε M) : Label n T ε M → System n T ε M → Prop
  | begins {x} (m : M) (idle : s.pc x = .idle) :
      Step topic s (.write x m) { s.goto x (.check s.intake.calls m) with intake := s.intake.begin }
  | aims {x call m i} (here : s.pc x = .check call m) (running : s.running = true)
      (shard : shardByRunes n (topic m) = some i) : Step topic s (.step x) (s.goto x (.send call m i))
  | notRunning {x call m} (here : s.pc x = .check call m) (stopped : s.running = false) :
      Step topic s (.step x) (s.finish x call m (some .notRunning))
  | sends {x call m i t} (here : s.pc x = .send call m i)
      (sent : s.send x call m i = some t) : Step topic s (.step x) t
  | turnsToNext {x call m i} (here : s.pc x = .send call m i)
      (full : s.send x call m i = none) :
        Step topic s (.step x) (s.goto x (.sendNext call m (nextShard i)))
  | sendsNext {x call m i t} (here : s.pc x = .sendNext call m i)
      (sent : s.send x call m i = some t) : Step topic s (.step x) t
  | allShardsFull {x call m i} (here : s.pc x = .sendNext call m i)
      (full : s.send x call m i = none) : Step topic s (.step x) (s.finish x call m (some .allShardsFull))
  | counts {x call m} (here : s.pc x = .count call m) :
      Step topic s (.step x) (({ s with messageCount := s.messageCount + 1 }).finish x call m none)
  | receives {i m rest} (choices : Nat → Option ε)
      (queued : (s.shards i).bufferChan = m :: rest) (looping : (s.shards i).looping = true) :
      Step topic s (.receive i choices) (s.received i m rest choices)
  | ticks {i} (choices : Nat → Option ε) (looping : (s.shards i).looping = true) :
      Step topic s (.timer i choices) (s.flushFilled i choices)
  | stops {i} (choices : Nat → Option ε) (looping : (s.shards i).looping = true)
      (closed : (s.shards i).stopChClosed = true) :
      Step topic s (.shardStops i choices) ((s.flushFilled i choices).shardReturns i)
  | isCancelled {i} (looping : (s.shards i).looping = true) (cancelled : s.cancelled = true) :
      Step topic s (.shardCancelled i) (s.shardReturns i)
  | cancels : Step topic s .cancel { s with cancelled := true }
  | beginsStop (running : s.running = true) :
      Step topic s .stop { s with running := false, stopping := .closing 0 }
  | stoppedBefore (stopped : s.running = false) : Step topic s .stop s
  | closes {k} (phase : s.stopping = .closing k) (inside : k < n) :
      Step topic s .closeStopCh { s.closeShard ⟨k, inside⟩ with stopping := .closing (k + 1) }
  | closedAll {k} (phase : s.stopping = .closing k) (outside : ¬ k < n) :
      Step topic s .closeStopCh { s with stopping := .waiting }
  | endsStop (phase : s.stopping = .waiting) (ended : ∀ i, (s.shards i).looping = false) :
      Step topic s .wait { s with stopping := .returned }

variable {topic : M → GoString} {s t : System n T ε M}

-- The cases below are the branches of the functions; those that the last line closes are not enabled.

theorem System.step_of_advance (stepped : s.advance topic x (s.pc x) = some t) :
    Step topic s (.step x) t := by
  generalize here : s.pc x = pc at stepped
  revert stepped
  fun_cases System.advance topic s x pc with
  | case1 => simp
  | case2 call m running =>
    intro stepped
    obtain ⟨i, shard, rfl⟩ := Option.map_eq_some_iff.mp stepped
    exact .aims here running shard
  | case3 call m stopped =>
    rintro ⟨⟩
    exact .notRunning here (by simpa using stopped)
  | case4 call m i =>
    rintro ⟨⟩
    cases sent : s.send x call m i with
    | some sent' => exact .sends here sent
    | none => exact .turnsToNext here sent
  | case5 call m i =>
    rintro ⟨⟩
    cases sent : s.send x call m i with
    | some sent' => exact .sendsNext here sent
    | none => exact .allShardsFull here sent
  | case6 call m =>
    rintro ⟨⟩
    exact .counts here

theorem System.step_of_next (stepped : s.next topic label = some t) : Step topic s label t := by
  revert stepped
  fun_cases System.next topic s label with
  | case1 x m here =>
    rintro ⟨⟩
    exact .begins m here
  | case3 x => exact System.step_of_advance
  | case4 i choices m rest queued looping =>
    rintro ⟨⟩
    exact .receives choices queued looping
  | case7 i choices looping =>
    rintro ⟨⟩
    exact .ticks choices looping
  | case9 i choices both =>
    rintro ⟨⟩
    exact .stops choices both.1 both.2
  | case11 i both =>
    rintro ⟨⟩
    exact .isCancelled both.1 both.2
  | case13 =>
    rintro ⟨⟩
    exact .cancels
  | case14 running =>
    rintro ⟨⟩
    exact .beginsStop running
  | case15 stopped =>
    rintro ⟨⟩
    exact .stoppedBefore (by simpa using stopped)
  | case16 k phase inside =>
    rintro ⟨⟩
    exact .closes phase inside
  | case17 k phase outside =>
    rintro ⟨⟩
    exact .closedAll phase outside
  | case19 phase ended =>
    rintro ⟨⟩
    exact .endsStop phase ended
  | _ => simp

/-- What has gone through a shard's channel, by where it is now. -/
def System.line (s : System n T ε M) (i : Fin n) : List M :=
  (s.store i).stored.flatten ++ (s.shards i).buffer.contents ++ (s.shards i).bufferChan

section

omit [DecidableEq T]

/-- A step of the shard loops, which moves messages along their lines and leaves the
    callers alone. -/
structure System.Moves (s t : System n T ε M) : Prop where
  config : t.config = s.config
  pc : t.pc = s.pc
  intake : t.intake = s.intake
  line : ∀ i, t.line i = s.line i

theorem System.Moves.refl (s : System n T ε M) : s.Moves s := ⟨rfl, rfl, rfl, fun _ => rfl⟩

theorem System.Moves.trans {s t u : System n T ε M} (first : s.Moves t) (later : t.Moves u) :
    s.Moves u :=
  ⟨later.config.trans first.config, later.pc.trans first.pc, later.intake.trans first.intake,
    fun i => (later.line i).trans (first.line i)⟩

variable {s : System n T ε M}

theorem System.moves_setShard
    (same : shard.buffer.contents ++ shard.bufferChan = (s.shards i).buffer.contents ++
      (s.shards i).bufferChan) : s.Moves (s.setShard i shard) := by
  refine ⟨rfl, rfl, rfl, fun j => ?_⟩
  by_cases here : j = i
  · subst here
    simp [System.line, System.setShard, same]
  · simp [System.line, System.setShard, here]

theorem System.moves_flushShard (s : System n T ε M) (retries : 0 ≤ s.config.maxRetries) (i : Fin n)
    (choices : Nat → Option ε) : s.Moves (s.flushShard i choices) := by
  have flushed := recording_flush retries (s.shards i).buffer choices (s.store i)
  rw [System.flushShard]
  cases outcome : recording.flush s.config.maxRetries (s.shards i).buffer choices (s.store i) with
  | empty => exact .refl s
  | failed | stored =>
    rw [outcome, Flush.Ends] at flushed
    refine ⟨rfl, rfl, rfl, fun j => ?_⟩
    by_cases here : j = i
    · subst here
      simp [System.line, flushed]
    · simp [System.line, here]

theorem System.moves_flushFilled (retries : 0 ≤ s.config.maxRetries) (i : Fin n)
    (choices : Nat → Option ε) : s.Moves (s.flushFilled i choices) := by
  rw [System.flushFilled]
  split
  · exact s.moves_flushShard retries i choices
  · exact .refl s

theorem System.moves_received (retries : 0 ≤ s.config.maxRetries)
    (queued : (s.shards i).bufferChan = m :: rest) (choices : Nat → Option ε) :
    s.Moves (s.received i m rest choices) := by
  have appended : s.Moves (s.append i m rest) := System.moves_setShard (by simp [queued])
  rw [System.received]
  split
  · exact appended.trans ((s.append i m rest).moves_flushShard retries i choices)
  · exact appended

theorem System.moves_shardReturns (s : System n T ε M) (i : Fin n) : s.Moves (s.shardReturns i) :=
  System.moves_setShard rfl

end

def Pc.hold : Pc n M → Hold M
  | .idle => .none
  | .check call m | .send call m _ | .sendNext call m _ => .unsent call m
  | .count call m => .sent call m

/-- The shard of the topic, or the one after it. -/
def Lane (topic : M → GoString) (m : M) (i : Fin n) : Prop :=
  ∃ own, shardByRunes n (topic m) = some own ∧ (i = own ∨ i = nextShard own)

def Pc.Aimed (topic : M → GoString) : Pc n M → Prop
  | .send _ m i => shardByRunes n (topic m) = some i
  | .sendNext _ m i => Lane topic m i
  | _ => True

structure Placed (config : ParallelBatchWriterConfig) (topic : M → GoString) (s : System n T ε M) :
    Prop where
  configured : s.config = config
  line : ∀ i, s.intake.lane i = s.line i
  callers : s.intake.Tracked Pc.hold (Pc.Aimed topic) (Lane topic) s.pc

section

variable {config : ParallelBatchWriterConfig} {topic : M → GoString} {s t : System n T ε M}

omit [DecidableEq T] in
theorem Placed.moves (placed : Placed config topic s) (moves : s.Moves t) :
    Placed config topic t where
  configured := moves.config.trans placed.configured
  line i := by rw [moves.intake, moves.line, placed.line]
  callers := by rw [moves.intake, moves.pc]; exact placed.callers

omit [DecidableEq T] in
/-- A caller moves on without entering a channel. -/
theorem Placed.goto (placed : Placed config topic s) {pc : T → Pc n M}
    (lane : intake.lane = s.intake.lane)
    (callers : intake.Tracked Pc.hold (Pc.Aimed topic) (Lane topic) pc) :
    Placed config topic { s with pc := pc, intake := intake } where
  configured := placed.configured
  line i := by
    show intake.lane i = s.line i
    rw [lane]
    exact placed.line i
  callers := callers

theorem Placed.send (placed : Placed config topic s) (held : (s.pc x).hold = .unsent call m)
    (lane : Lane topic m i) (sent : s.send x call m i = some t) : Placed config topic t := by
  rw [System.send, Option.ite_none_right_eq_some] at sent
  obtain ⟨-, sent⟩ := sent
  obtain rfl := Option.some.inj sent
  refine ⟨placed.configured, fun j =>
    ?_, placed.callers.enter (.count call m) held rfl trivial lane⟩
  show (s.intake.enter call m i).lane j = _
  rw [Intake.lane_enter, placed.line]
  by_cases here : i = j
  · subst here
    simp [System.line, System.goto, System.setShard]
  · simp [System.line, System.goto, System.setShard, here, Ne.symm here]

theorem Placed.next (placed : Placed config topic s) (retries : 0 ≤ config.maxRetries)
    {label : Label n T ε M} (stepped : s.next topic label = some t) : Placed config topic t := by
  have callers := placed.callers
  have used : 0 ≤ s.config.maxRetries := by rw [placed.configured]; exact retries
  cases System.step_of_next stepped with
  | begins m idle => exact placed.goto rfl (callers.begin (.check s.intake.calls m) rfl trivial)
  | @aims x call m i here running shard =>
    exact placed.goto rfl (callers.turn (.send call m i) (by rw [here]; rfl) shard)
  | notRunning here | allShardsFull here =>
    exact placed.goto rfl (callers.refuse .idle (by rw [here]; rfl) rfl trivial _)
  | @sends x call m i _ here sent =>
    exact placed.send (by rw [here]; rfl) ⟨i, callers.aimed_of here, .inl rfl⟩ sent
  | @turnsToNext x call m i here full =>
    have lane : Lane topic m (nextShard i) := ⟨i, callers.aimed_of here, .inr rfl⟩
    exact placed.goto rfl (callers.turn (.sendNext call m (nextShard i)) (by rw [here]; rfl) lane)
  | sendsNext here sent => exact placed.send (by rw [here]; rfl) (callers.aimed_of here) sent
  | counts here =>
    have counted : Placed config topic { s with messageCount := s.messageCount + 1 } :=
      placed.moves ⟨rfl, rfl, rfl, fun _ => rfl⟩
    exact counted.goto rfl (callers.accept .idle (by rw [here]; rfl) rfl trivial)
  | receives choices queued => exact placed.moves (System.moves_received used queued choices)
  | ticks choices => exact placed.moves (System.moves_flushFilled used _ choices)
  | stops choices =>
    exact placed.moves
      ((System.moves_flushFilled used _ choices).trans (System.moves_shardReturns _ _))
  | isCancelled => exact placed.moves (System.moves_shardReturns s _)
  | closes phase inside =>
    have closed : s.Moves (s.closeShard ⟨_, inside⟩) := System.moves_setShard rfl
    exact placed.moves ⟨rfl, rfl, rfl, closed.line⟩
  | cancels | beginsStop | closedAll | endsStop => exact placed.moves ⟨rfl, rfl, rfl, fun _ => rfl⟩
  | stoppedBefore => exact placed

omit [DecidableEq T] in
theorem placed_started (config : ParallelBatchWriterConfig) (topic : M → GoString) :
    Placed config topic (started config : System config.numShards T ε M) where
  configured := rfl
  line _ := rfl
  callers := .fresh rfl trivial

theorem placed_run {s : System config.numShards T ε M} (retries : 0 ≤ config.maxRetries)
    (ran : (machine topic).run (started config) labels = some s) : Placed config topic s :=
  (machine topic).run_invariant (fun _ _ _ placed stepped => placed.next retries stepped)
    (placed_started config topic) ran

end

/-- Each accepted message is in exactly one place. Its call has entered one channel, that of
    the shard of its topic or of the next one, and what entered a channel is what the shard
    has stored, followed by its buffer and by the channel, in this order. -/
structure OnePlace (topic : M → GoString) (s : System n T ε M) : Prop where
  accepted : ∀ r ∈ s.intake.returns, r.err.isNone = true →
    ∃ e ∈ s.intake.entries, e.call = r.call ∧ e.message = r.message
  refused : ∀ r ∈ s.intake.returns, r.err.isSome = true → ¬ s.intake.entered r.call
  once : (s.intake.entries.map Entry.call).Nodup
  lanes : ∀ e ∈ s.intake.entries, Lane topic e.message e.lane
  inOrder : ∀ i, s.intake.lane i =
    (s.store i).stored.flatten ++ (s.shards i).buffer.contents ++ (s.shards i).bufferChan

omit [DecidableEq T] in
theorem Placed.onePlace {s : System n T ε M} (placed : Placed config topic s) : OnePlace topic s :=
  ⟨placed.callers.sound.accepted, placed.callers.sound.refused, placed.callers.sound.once,
    placed.callers.lanes, placed.line⟩

end

end Portask.Processor.ParallelBatchWriter
