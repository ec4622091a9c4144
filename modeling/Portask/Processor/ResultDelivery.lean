import Portask.Processor.MessageProcessor

/-! # Which caller gets which result

A caller of `ProcessMessage` that receives a result receives its own: the callback of the
task is the only sender of its channel. Results in the shared queue have no addressee. They
reach the right caller as long as batch calls do not overlap, `handleResults` takes nothing
while one of them waits, and no worker panics on the task of a `ProcessMessage`: then what is
on its way to the queue is, at any time, the one result that is waited for.
-/

namespace Portask.Processor.MessageProcessor

open Lib Call Worker

variable {ε V : Type}

/-- The result of the task goes to the shared queue. -/
def ProcessTask.bound (p : Nat → Bool) (task : ProcessTask) : Nat :=
  match task.type with
  | .single => 0
  | .batch => (p task.call).toNat

open ProcessTask

theorem ProcessTask.bound_single {task : ProcessTask} (single : task.type = .single)
    (p : Nat → Bool) : task.bound p = 0 := by
  rw [bound, single]

theorem ProcessTask.bound_batch {task : ProcessTask} (batch : task.type = .batch) (p : Nat → Bool) :
    task.bound p = (p task.call).toNat := by
  rw [bound, batch]

/-- After a panic the result goes to the shared queue, whatever the task. -/
def Worker.carries (p : Nat → Bool) : Worker ε V → Nat
  | .processing task | .answering task _ => task.bound p
  | .panicking task => (p task.call).toNat
  | .idle | .stopped => 0

def ProcessResult.counts (p : Nat → Bool) (result : ProcessResult ε V) : Nat :=
  (p result.call).toNat

open ProcessResult

@[simp] theorem Worker.carries_idle (p : Nat → Bool) : (idle : Worker ε V).carries p = 0 := rfl

namespace System

variable (s : System ε V)

/-- The results of calls in `p` that are still to be sent to the shared queue. -/
def inFlight (p : Nat → Bool) : Nat :=
  tally (bound p) s.processingQueue.items + tally (carries p) s.workers

/-- Those, and the ones in the queue. -/
def onTheWay (p : Nat → Bool) : Nat := s.inFlight p + tally (counts p) s.resultQueue.items

/-- The call is a batch call that waits for a result. -/
def waits (n : Nat) : Bool := s.calls[n]?.any awaitsBatch

end System

section Flow

variable {s : System ε V} {p : Nat → Bool} {w : Nat} {old : Worker ε V}
  {queue : Chan (ProcessResult ε V)}
  {result : ProcessResult ε V}

theorem inFlight_setWorker (new : Worker ε V) (found : s.workers[w]? = some old) :
    (s.setWorker w new).inFlight p + old.carries p = s.inFlight p + new.carries p := by
  have moved := tally_set (carries p) new found
  simp only [System.inFlight, System.setWorker]
  omega

theorem inFlight_submit {task queue} (sent : s.processingQueue.send task = .sends queue) :
    (s.setProcessing queue).inFlight p = s.inFlight p + task.bound p := by
  obtain ⟨-, rfl⟩ := Chan.of_sends sent
  simp only [System.inFlight, System.setProcessing, tally_append, tally_cons, tally_nil]
  omega

theorem inFlight_take {task queue} (idle : s.workers[w]? = some .idle)
    (received : s.processingQueue.receive = .gives task queue) :
    ((s.setWorker w (.processing task)).setProcessing queue).inFlight p = s.inFlight p := by
  have moved := tally_set (carries p) (.processing task) idle
  simp only [System.inFlight, System.setProcessing, System.setWorker,
    (Chan.of_gives received).1, tally_cons]
  simp only [carries] at moved
  omega

theorem onTheWay_answer
    (found : s.workers[w]? = some old) (sent : s.resultQueue.send result = .sends queue) :
    ((s.setWorker w .idle).setResults queue).onTheWay p + old.carries p =
      s.onTheWay p + result.counts p := by
  obtain ⟨-, rfl⟩ := Chan.of_sends sent
  have moved := inFlight_setWorker (p := p) .idle found
  simp only [System.onTheWay, System.setResults, tally_append, tally_cons, tally_nil]
  rw [carries_idle] at moved
  change (s.setWorker w .idle).inFlight p + _ + _ = _
  omega

theorem onTheWay_receive (received : s.resultQueue.receive = .gives result queue) :
    (s.setResults queue).onTheWay p + result.counts p = s.onTheWay p := by
  simp only [System.onTheWay, System.setResults, (Chan.of_gives received).1, tally_cons]
  change s.inFlight p + _ + _ = _
  omega

end Flow

section Waits

variable {s : System ε V} {n m : Nat} {old new : Call ε V}

theorem waits_of (found : s.calls[n]? = some old) : s.waits n = old.awaitsBatch := by
  simp [System.waits, found]

theorem waits_setCall (found : s.calls[n]? = some old) :
    (s.setCall n new).waits m = if m = n then new.awaitsBatch else s.waits m := by
  have inside : n < s.calls.length := (List.getElem?_eq_some_iff.mp found).1
  simp only [System.waits, System.setCall, List.getElem?_set]
  by_cases here : m = n
  · simp [here, inside]
  · simp [here, Ne.symm here]

theorem waits_begin (type : ProcessType) : (s.begin type).waits m = s.waits m := by
  simp only [System.waits, System.begin, List.getElem?_append]
  split
  · rfl
  · next outside => cases m - s.calls.length <;> simp [List.getElem?_eq_none (Nat.le_of_not_lt outside), awaitsBatch]

theorem exists_of_waits (waits : s.waits n = true) :
    ∃ call, s.calls[n]? = some call ∧ call.awaitsBatch = true := by
  rwa [System.waits, Option.any_eq_true] at waits

end Waits

structure Tagged (s : System ε V) : Prop where
  answers : ∀ {w : Nat} {task : ProcessTask} {result : ProcessResult ε V},
    s.workers[w]? = some (.answering task result) → result.call = task.call
  channels : ∀ {n : Nat} {call : Call ε V}, s.calls[n]? = some call →
    ∀ result ∈ call.resultChan.items, result.call = n
  singles : ∀ {n : Nat} {call : Call ε V} {result : ProcessResult ε V}, s.calls[n]? = some call →
    call.type = .single → call.phase = .returned (.result result) → result.call = n

namespace Tagged

variable {s t : System ε V}

theorem congr (tagged : Tagged s) (calls : t.calls = s.calls) (workers : t.workers = s.workers) :
    Tagged t where
  answers := workers ▸ tagged.answers
  channels := calls ▸ tagged.channels
  singles := calls ▸ tagged.singles

theorem setWorker (tagged : Tagged s) (w : Nat) (worker : Worker ε V)
    (own : ∀ task result, worker = .answering task result → result.call = task.call) :
    Tagged (s.setWorker w worker) where
  answers {v task result} here := by
    obtain ⟨-, changed⟩ | ⟨-, kept⟩ := System.of_setWorker here
    · exact own task result changed.symm
    · exact tagged.answers kept
  __ := tagged

theorem setCall (tagged : Tagged s) (n : Nat) {call}
    (channel : ∀ result ∈ call.resultChan.items, result.call = n)
    (single : ∀ result, call.type = .single → call.phase = .returned (.result result) →
      result.call = n) : Tagged (s.setCall n call) where
  answers := tagged.answers
  channels found := by
    obtain ⟨rfl, rfl⟩ | ⟨-, kept⟩ := System.of_setCall found
    · exact channel
    · exact tagged.channels kept
  singles found := by
    obtain ⟨rfl, rfl⟩ | ⟨-, kept⟩ := System.of_setCall found
    · exact single _
    · exact tagged.singles kept

theorem begins (tagged : Tagged s) (type : ProcessType) : Tagged (s.begin type) where
  answers := tagged.answers
  channels found := by
    obtain kept | ⟨-, rfl⟩ := System.of_begin found
    · exact tagged.channels kept
    · simp [Chan.make]
  singles found := by
    obtain kept | ⟨-, rfl⟩ := System.of_begin found
    · exact tagged.singles kept
    · simp

theorem goto {n call} (tagged : Tagged s) (found : s.calls[n]? = some call) (phase : Phase ε V)
    (single : ∀ result, call.type = .single → phase = .returned (.result result) →
      result.call = n) : Tagged (s.goto n call phase) := by
  have channel := tagged.channels found
  exact tagged.setCall n channel single

theorem step {label} (tagged : Tagged s) (step : Step s label t) : Tagged t := by
  cases step with
  | begins type => exact tagged.begins type
  | clears found here => exact tagged.goto found _ (by simp)
  | leaves found leaves => exact tagged.goto found _ (by simp [leaves.noResult])
  | submits found here sent =>
    have waiting := tagged.goto found .waiting (by simp)
    exact waiting.congr rfl rfl
  | receivesOwn found single here received =>
    have own := tagged.channels found
    rw [(Chan.of_gives received).1] at own
    refine tagged.setCall _ (fun result inside => own result (List.mem_cons_of_mem _ inside)) ?_
    rintro result - ⟨⟩
    exact own _ (List.mem_cons_self ..)
  | @receivesShared n call result queue found awaits received =>
    have returned := tagged.goto found (.returned (.result result)) (by
      simp [(awaitsBatch_iff.mp awaits).1])
    exact returned.congr rfl rfl
  | @takes w task queue idle received =>
    have busy := tagged.setWorker w (.processing task) (by simp)
    exact busy.congr rfl rfl
  | finishes outcome here => exact tagged.setWorker _ _ (by simp)
  | @panics w task here =>
    have panicking := tagged.setWorker w (.panicking task) (by simp)
    exact panicking.congr rfl rfl
  | @callsBack w task result late call chan here single found sent =>
    obtain ⟨-, rfl⟩ := Chan.of_sends sent
    have free := tagged.setWorker w .idle (by simp)
    have before : ∀ result, call.type = .single → call.phase = .returned (.result result) →
        result.call = task.call := fun _ => tagged.singles found
    refine free.setCall _ ?_ before
    intro sent inside
    obtain before | rfl : sent ∈ call.resultChan.items ∨ sent = result := by simpa using inside
    · exact tagged.channels found sent before
    · exact tagged.answers here
  | @answers w task result late queue here batch sent | @sendsPanic w task queue here sent =>
    have free := tagged.setWorker w .idle (by simp)
    exact free.congr rfl rfl
  | callsBackLate | answerPanics | workerEnds => exact tagged.setWorker _ _ (by simp)
  | crashes | handles | handlerEnds | cancels | stops | stopsAgain | closesProcessing
    | closesResults =>
    exact tagged.congr rfl rfl

end Tagged

def panicResult (n : Nat) : ProcessResult ε V := ⟨n, .error .processingPanic⟩

/-- The worker is in its deferred function after a panic on task `n`. -/
def Worker.panicsOn (n : Nat) : Worker ε V → Bool
  | .panicking task => task.call == n
  | _ => false

/-- The error is where the caller of task `n` will receive it, or the caller has received it,
    unless it had given up waiting. -/
def Told (results : List (ProcessResult ε V)) (n : Nat) : Call ε V → Prop
  | ⟨_, .created, _⟩ | ⟨_, .submitting, _⟩ => False
  | ⟨.single, .waiting, chan⟩ => panicResult n ∈ chan.items
  | ⟨.batch, .waiting, _⟩ => panicResult n ∈ results
  | ⟨_, .returned (.result result), _⟩ => result = panicResult n
  | ⟨_, .returned .backpressure, _⟩ | ⟨_, .returned .cancelled, _⟩ | ⟨_, .returned .queueFull, _⟩
  | ⟨_, .returned .timeout, _⟩ => True

instance [DecidableEq ε] [DecidableEq V] (results : List (ProcessResult ε V)) (n : Nat) :
    ∀ call, Decidable (Told results n call)
  | ⟨_, .created, _⟩ | ⟨_, .submitting, _⟩ => .isFalse id
  | ⟨.single, .waiting, chan⟩ => inferInstanceAs (Decidable (panicResult n ∈ chan.items))
  | ⟨.batch, .waiting, _⟩ => inferInstanceAs (Decidable (panicResult n ∈ results))
  | ⟨_, .returned (.result result), _⟩ => inferInstanceAs (Decidable (result = panicResult n))
  | ⟨_, .returned .backpressure, _⟩ | ⟨_, .returned .cancelled, _⟩ | ⟨_, .returned .queueFull, _⟩
  | ⟨_, .returned .timeout, _⟩ => .isTrue trivial

/-- A caller that receives a result receives that of its own task, and one whose task
    panicked is told so once the worker has left its deferred function. -/
structure Correlated (s : System ε V) : Prop where
  own : ∀ {n : Nat} {call : Call ε V} {result : ProcessResult ε V}, s.calls[n]? = some call →
    call.phase = .returned (.result result) → result.call = n
  panics : ∀ n ∈ s.panicked, ∀ call, s.calls[n]? = some call →
    s.workers.any (panicsOn n) = true ∨ Told s.resultQueue.items n call

def NobodyWaits (s : System ε V) : Prop := ∀ call ∈ s.calls, call.awaitsBatch = false

instance (s : System ε V) : Decidable (NobodyWaits s) :=
  inferInstanceAs (Decidable (∀ call ∈ s.calls, _))

variable {s : System ε V}

theorem NobodyWaits.waits (nobody : NobodyWaits s) (n : Nat) : s.waits n = false := by
  by_contra waits
  obtain ⟨call, found, awaits⟩ := exists_of_waits (by simpa using waits)
  rw [nobody call (List.mem_of_getElem? found)] at awaits
  cases awaits

def Worker.onBatch : Worker ε V → Bool
  | .processing task => task.type = .batch
  | _ => true

/-- Batch calls do not overlap, `handleResults` takes nothing from a batch caller, and no
    worker panics on the task of a `ProcessMessage`. -/
def Apart (s : System ε V) : Label ε V → Prop
  | .submit n => (∀ call ∈ s.calls[n]?, call.type = .single) ∨ NobodyWaits s
  | .panics w => ∀ worker ∈ s.workers[w]?, worker.onBatch
  | .handle => NobodyWaits s
  | _ => True

instance (s : System ε V) : ∀ label, Decidable (Apart s label)
  | .submit _ => inferInstanceAs (Decidable (_ ∨ _))
  | .panics w => inferInstanceAs (Decidable (∀ worker ∈ s.workers[w]?, _))
  | .handle => inferInstanceAs (Decidable (NobodyWaits s))
  | .call _ | .check _ | .contextDone _ | .timer _ | .receive _ | .take _ | .finish .. | .answer ..
    | .answerPanic _
  | .workerStops _ | .workerCancelled _ | .handlerStops | .handlerCancelled | .cancel | .stop
    | .closeProcessing
  | .closeResults => .isTrue trivial

/-- At any time one result is on its way for each batch caller that waits, and there is at
    most one. -/
structure Delivers (s : System ε V) : Prop where
  tagged : Tagged s
  awaited : ∀ n, s.onTheWay (· == n) = (s.waits n).toNat
  alone : ∀ {n m : Nat}, s.waits n = true → s.waits m = true → n = m
  batches : ∀ {n : Nat} {call : Call ε V} {result : ProcessResult ε V}, s.calls[n]? = some call →
    call.type = .batch → call.phase = .returned (.result result) → result.call = n
  informed : ∀ n ∈ s.panicked,
    (∃ (w : Nat) (task : ProcessTask), s.workers[w]? = some (.panicking task) ∧ task.call = n) ∨
      panicResult n ∈ s.resultQueue.items ∨
      ∃ call, s.calls[n]? = some call ∧ call.phase = .returned (.result (panicResult n))

namespace Delivers

variable {s t : System ε V} {w n : Nat}

theorem quiet (delivers : Delivers s) (calls : t.calls = s.calls) (workers : t.workers = s.workers)
    (processing : t.processingQueue.items = s.processingQueue.items)
    (results : t.resultQueue.items = s.resultQueue.items) (panicked : t.panicked = s.panicked) :
    Delivers t where
  tagged := delivers.tagged.congr calls workers
  awaited n := by
    have before := delivers.awaited n
    simpa only [System.onTheWay, System.inFlight, System.waits, calls, workers, processing,
      results] using before
  alone := by
    simp only [System.waits, calls]
    exact delivers.alone
  batches := by
    rw [calls]
    exact delivers.batches
  informed := by
    rw [calls, workers, results, panicked]
    exact delivers.informed

variable {task : ProcessTask} {old new : Worker ε V}

/-- A worker stays in its deferred function while another one moves. -/
theorem panicking_setWorker {v : Nat} (found : s.workers[w]? = some old)
    (calm : ∀ task, old ≠ .panicking task) (here : s.workers[v]? = some (.panicking task)) :
    (s.setWorker w new).workers[v]? = some (.panicking task) := by
  have other : v ≠ w := by
    rintro rfl
    exact calm task (Option.some.inj (found.symm.trans here))
  simpa [System.setWorker, List.getElem?_set, Ne.symm other] using here

/-- A worker that is not in its deferred function changes its state and carries what it did. -/
theorem setWorker (delivers : Delivers s) (found : s.workers[w]? = some old)
    (same : ∀ p, new.carries p = old.carries p) (calm : ∀ task, old ≠ .panicking task)
    (tagged : Tagged (s.setWorker w new)) : Delivers (s.setWorker w new) where
  tagged := tagged
  awaited n := by
    have moved := inFlight_setWorker (p := (· == n)) new found
    rw [same] at moved
    have before := delivers.awaited n
    rw [System.onTheWay] at before ⊢
    change _ = (s.waits n).toNat
    have kept : (s.setWorker w new).resultQueue = s.resultQueue := rfl
    rw [kept]
    omega
  __ := delivers
  informed n panicked := by
    obtain ⟨v, task, here, own⟩ | elsewhere := delivers.informed n panicked
    · exact .inl ⟨v, task, panicking_setWorker found calm here, own⟩
    · exact .inr elsewhere

variable {result : ProcessResult ε V}

theorem batches_setCall {new call m} (delivers : Delivers s)
    (batch : ∀ result, new.type = .batch → new.phase = .returned (.result result) → result.call = n)
    (found : (s.setCall n new).calls[m]? = some call) :
    call.type = .batch → call.phase = .returned (.result result) → result.call = m := by
  obtain ⟨rfl, rfl⟩ | ⟨-, kept⟩ := System.of_setCall found
  · exact batch result
  · exact delivers.batches kept

theorem returned_setCall {old new call} {m : Nat} {reply} (found : s.calls[n]? = some old)
    (stays : ∀ reply, old.phase = .returned reply → new.phase = .returned reply)
    (here : s.calls[m]? = some call) (returned : call.phase = .returned reply) :
    ∃ call, (s.setCall n new).calls[m]? = some call ∧ call.phase = .returned reply := by
  exact at_set (P := fun call => call.phase = .returned reply) found (stays reply)
    ⟨call, here, returned⟩

/-- A call changes, but neither begins nor ends a wait for a batch. -/
theorem setCall {old new : Call ε V} (delivers : Delivers s) (found : s.calls[n]? = some old)
    (same : new.awaitsBatch = old.awaitsBatch)
    (batch : ∀ result, new.type = .batch → new.phase = .returned (.result result) → result.call = n)
    (stays : ∀ reply, old.phase = .returned reply → new.phase = .returned reply)
    (tagged : Tagged (s.setCall n new)) : Delivers (s.setCall n new) := by
  have waits : ∀ m, (s.setCall n new).waits m = s.waits m := by
    intro m
    rw [waits_setCall found]
    split
    · next here => rw [here, waits_of found, same]
    · rfl
  refine ⟨tagged, ?_, ?_, delivers.batches_setCall batch, ?_⟩
  · intro m
    rw [waits]
    exact delivers.awaited m
  · intro m k
    rw [waits, waits]
    exact delivers.alone
  · intro m panicked
    obtain panicking | queued | ⟨call, here, returned⟩ := delivers.informed m panicked
    · exact .inl panicking
    · exact .inr (.inl queued)
    · exact .inr (.inr (returned_setCall found stays here returned))

theorem begins (delivers : Delivers s) (type : ProcessType) : Delivers (s.begin type) where
  tagged := delivers.tagged.begins type
  awaited n := by
    rw [waits_begin]
    exact delivers.awaited n
  alone := by
    simp only [waits_begin]
    exact delivers.alone
  batches found := by
    obtain kept | ⟨-, rfl⟩ := System.of_begin found
    · exact delivers.batches kept
    · simp
  informed n panicked := by
    obtain panicking | queued | ⟨call, found, returned⟩ := delivers.informed n panicked
    · exact .inl panicking
    · exact .inr (.inl queued)
    · refine .inr (.inr ⟨call, ?_, returned⟩)
      have inside : n < s.calls.length := (List.getElem?_eq_some_iff.mp found).1
      rw [System.begin, List.getElem?_append_left inside, found]

theorem submits {call queue} (delivers : Delivers s) (found : s.calls[n]? = some call)
    (here : call.phase = .submitting) (sent : s.processingQueue.send ⟨n, call.type⟩ = .sends queue)
    (apart : Apart s (.submit n)) (tagged : Tagged ((s.goto n call .waiting).setProcessing queue)) :
    Delivers ((s.goto n call .waiting).setProcessing queue) := by
  have flow : ∀ p, ((s.goto n call .waiting).setProcessing queue).onTheWay p =
      s.onTheWay p + bound p ⟨n, call.type⟩ := by
    intro p
    have entered := inFlight_submit (p := p) sent
    change (s.setProcessing queue).inFlight p + _ = _
    rw [entered, System.onTheWay, Nat.add_right_comm]
    rfl
  have waits : ∀ m, ((s.goto n call .waiting).setProcessing queue).waits m =
      if m = n then awaitsBatch { call with phase := .waiting }
      else s.waits m := fun m => waits_setCall found
  have notYet : s.waits n = false := (waits_of found).trans (not_awaitsBatch (by simp [here]))
  refine ⟨tagged, ?_, ?_, ?_, ?_⟩
  · intro m
    rw [flow, waits, delivers.awaited]
    split
    · next same =>
        subst same
        rw [notYet]
        cases call.type <;> simp [bound, awaitsBatch]
    · next other => cases call.type <;> simp [bound, Ne.symm other]
  · intro m k
    rw [waits, waits]
    rcases apart with single | nobody
    · have alone := delivers.alone (n := m) (m := k)
      have notBatch : awaitsBatch { call with phase := .waiting } = false := by
        rw [single call found]
        rfl
      by_cases left : m = n <;> by_cases right : k = n <;> simp_all
    · rw [nobody.waits, nobody.waits]
      by_cases left : m = n <;> by_cases right : k = n <;> simp [left, right]
  · exact delivers.batches_setCall (by simp)
  · intro m panicked
    obtain panicking | queued | ⟨call, here, returned⟩ := delivers.informed m panicked
    · exact .inl panicking
    · exact .inr (.inl queued)
    · exact .inr (.inr (returned_setCall found (by simp [*]) here returned))

variable {queue : Chan (ProcessResult ε V)}

/-- The first result in the queue is the one that the batch caller waits for. -/
theorem first_awaited (delivers : Delivers s)
    (received : s.resultQueue.receive = .gives result queue) : s.waits result.call = true := by
  have moved := onTheWay_receive (p := (· == result.call)) received
  rw [delivers.awaited] at moved
  cases waits : s.waits result.call with
  | true => rfl
  | false => simp [waits, counts] at moved

theorem receivesShared {call : Call ε V} (delivers : Delivers s) (found : s.calls[n]? = some call)
    (awaits : call.awaitsBatch = true) (received : s.resultQueue.receive = .gives result queue)
    (tagged : Tagged ((s.goto n call (.returned (.result result))).setResults queue)) :
    Delivers ((s.goto n call (.returned (.result result))).setResults queue) := by
  have here : s.waits n = true := (waits_of found).trans awaits
  have own : result.call = n := delivers.alone (delivers.first_awaited received) here
  have waits : ∀ m, ((s.goto n call (.returned (.result result))).setResults queue).waits m =
      if m = n then awaitsBatch { call with phase := .returned (.result result) } else s.waits m :=
    fun m => waits_setCall found
  rw [not_awaitsBatch (by simp)] at waits
  refine ⟨tagged, ?_, ?_, ?_, ?_⟩
  · intro m
    have moved := onTheWay_receive (p := (· == m)) received
    have before := delivers.awaited m
    rw [waits]
    change (s.setResults queue).onTheWay (· == m) = _
    simp only [counts, own] at moved
    split
    · next same =>
        subst same
        simp only [here, Bool.toNat_true] at before
        simp only [beq_self_eq_true, Bool.toNat_true] at moved
        simp only [Bool.toNat_false]
        omega
    · next other =>
        have elsewhere : (n == m) = false := by simpa using Ne.symm other
        rw [elsewhere, Bool.toNat_false] at moved
        omega
  · intro m k
    rw [waits, waits]
    have alone := delivers.alone (n := m) (m := k)
    by_cases left : m = n <;> by_cases right : k = n <;> simp_all
  · exact delivers.batches_setCall (by simp [own])
  · intro m panicked
    obtain panicking | queued | ⟨call, here, returned⟩ := delivers.informed m panicked
    · exact .inl panicking
    · rw [(Chan.of_gives received).1] at queued
      rcases List.mem_cons.mp queued with first | later
      · subst first
        obtain rfl : m = n := own
        have inside : m < s.calls.length := (List.getElem?_eq_some_iff.mp found).1
        exact .inr (.inr ⟨{ call with phase := .returned (.result (panicResult m)) },
          by simp [System.setResults, System.goto, System.setCall, inside], rfl⟩)
      · exact .inr (.inl later)
    · refine .inr (.inr (returned_setCall found ?_ here returned))
      rw [(awaitsBatch_iff.mp awaits).2]
      simp

theorem takes {queue : Chan ProcessTask} (delivers : Delivers s) (idle : s.workers[w]? = some .idle)
    (received : s.processingQueue.receive = .gives task queue)
    (tagged : Tagged ((s.setWorker w (.processing task)).setProcessing queue)) :
    Delivers ((s.setWorker w (.processing task)).setProcessing queue) where
  tagged := tagged
  awaited n := by
    have moved := inFlight_take (p := (· == n)) idle received
    have before := delivers.awaited n
    rw [System.onTheWay] at before ⊢
    rw [moved]
    exact before
  __ := delivers
  informed n panicked := by
    obtain ⟨v, task, here, own⟩ | elsewhere := delivers.informed n panicked
    · exact .inl ⟨v, task, panicking_setWorker idle (by simp) here, own⟩
    · exact .inr elsewhere

theorem answers (delivers : Delivers s) (found : s.workers[w]? = some old)
    (carried : ∀ p, old.carries p = result.counts p)
    (panic : ∀ task, old = .panicking task → result = panicResult task.call)
    (sent : s.resultQueue.send result = .sends queue)
    (tagged : Tagged ((s.setWorker w .idle).setResults queue)) :
    Delivers ((s.setWorker w .idle).setResults queue) where
  tagged := tagged
  awaited n := by
    have moved := onTheWay_answer (p := (· == n)) found sent
    rw [carried] at moved
    exact (Nat.add_right_cancel moved).trans (delivers.awaited n)
  __ := delivers
  informed n panicked := by
    obtain ⟨-, rfl⟩ := Chan.of_sends sent
    obtain ⟨v, task, here, own⟩ | queued | returned := delivers.informed n panicked
    · by_cases same : v = w
      · subst same
        rw [panic task (Option.some.inj (found.symm.trans here)), own]
        exact .inr (.inl (by simp [System.setResults]))
      · have stays : (s.setWorker w .idle).workers[v]? = some (.panicking task) := by
          simpa [System.setWorker, List.getElem?_set, Ne.symm same] using here
        exact .inl ⟨v, task, stays, own⟩
    · exact .inr (.inl (List.mem_append_left _ queued))
    · exact .inr (.inr returned)

theorem panics (delivers : Delivers s) (here : s.workers[w]? = some (.processing task))
    (batch : task.type = .batch) :
    Delivers { s.setWorker w (.panicking task) with panicked := task.call :: s.panicked } := by
  have moved : Delivers (s.setWorker w (.panicking task)) :=
    delivers.setWorker here (fun p => (bound_batch batch p).symm) (by simp)
      (delivers.tagged.setWorker w _ (by simp))
  refine ⟨moved.tagged.congr rfl rfl, moved.awaited, moved.alone, moved.batches, ?_⟩
  intro n panicked
  rcases List.mem_cons.mp panicked with rfl | before
  · have inside : w < s.workers.length := (List.getElem?_eq_some_iff.mp here).1
    exact .inl ⟨w, task, by simp [System.setWorker, inside], rfl⟩
  · exact moved.informed n before

theorem step {label : Label ε V} (delivers : Delivers s) (apart : Apart s label)
    (step : Step s label t) : Delivers t := by
  have tagged := delivers.tagged.step step
  cases step with
  | begins type => exact delivers.begins type
  | @clears n call found here =>
    refine delivers.setCall found ?_ (by simp) (by simp [here]) tagged
    rw [not_awaitsBatch (by simp), not_awaitsBatch (by simp [here])]
  | @leaves label n call reply found leaves =>
    refine delivers.setCall found ?_ (by simp [leaves.noResult]) ?_ tagged
    · rw [leaves.notAwaiting, not_awaitsBatch (by simp)]
    · intro reply returned
      exact absurd returned (leaves.inside reply)
  | submits found here sent => exact delivers.submits found here sent apart tagged
  | @receivesOwn n call result chan found single here received =>
    obtain ⟨type, phase, chan⟩ := call
    cases single
    cases here
    exact delivers.setCall found rfl (by simp) (by simp) tagged
  | receivesShared found awaits received =>
    exact delivers.receivesShared found awaits received tagged
  | takes idle received => exact delivers.takes idle received tagged
  | finishes outcome here => exact delivers.setWorker here (fun _ => rfl) (by simp) tagged
  | @panics w task here =>
    have batch : task.type = .batch := by simpa [Apart, here, onBatch] using apart
    exact delivers.panics here batch
  | @callsBack w task result late call chan here single found sent =>
    have free : Tagged (s.setWorker w .idle) := delivers.tagged.setWorker w _ (by simp)
    have rested : Delivers (s.setWorker w .idle) :=
      delivers.setWorker here (fun p => (bound_single single p).symm) (by simp) free
    have batches : ∀ result, call.type = .batch → call.phase = .returned (.result result) →
        result.call = task.call := fun _ => delivers.batches found
    exact rested.setCall found (awaitsBatch_resultChan call chan) batches (fun _ => id) tagged
  | callsBackLate here single =>
    exact delivers.setWorker here (fun p => (bound_single single p).symm) (by simp) tagged
  | @answers w task result late queue here batch sent =>
    refine delivers.answers here ?_ (by simp) sent tagged
    intro p
    rw [carries, bound_batch batch, counts, delivers.tagged.answers here]
  | @answerPanics w task result late here batch closed =>
    exact delivers.setWorker here (fun p => (bound_batch batch p).symm) (by simp) tagged
  | sendsPanic here sent =>
    exact delivers.answers here (fun p => rfl) (fun task same => by cases same; rfl) sent tagged
  | workerEnds idle ended => exact delivers.setWorker idle (fun _ => rfl) (by simp) tagged
  | handles received =>
    have waits := delivers.first_awaited received
    rw [NobodyWaits.waits apart] at waits
    cases waits
  | crashes | handlerEnds | cancels | stops | stopsAgain | closesProcessing | closesResults =>
    exact delivers.quiet rfl rfl rfl rfl rfl

theorem waits_of_queued (delivers : Delivers s) (queued : result ∈ s.resultQueue.items) :
    s.waits result.call = true := by
  obtain ⟨i, found⟩ := List.mem_iff_getElem?.mp queued
  have heavy := le_tally (counts (· == result.call)) found
  have before := delivers.awaited result.call
  simp only [counts, beq_self_eq_true, Bool.toNat_true] at heavy
  cases waits : s.waits result.call with
  | true => rfl
  | false =>
    rw [waits, System.onTheWay, Bool.toNat_false] at before
    omega

theorem correlated (delivers : Delivers s) : Correlated s where
  own {n call result} found returned := by
    cases kind : call.type with
    | single => exact delivers.tagged.singles found kind returned
    | batch => exact delivers.batches found kind returned
  panics n panicked call found := by
    obtain ⟨w, task, panicking, rfl⟩ | queued | ⟨other, here, returned⟩ :=
      delivers.informed n panicked
    · exact .inl (List.any_eq_true.mpr ⟨_, List.mem_of_getElem? panicking, by simp [panicsOn]⟩)
    · have waits := (waits_of found).symm.trans (delivers.waits_of_queued queued)
      obtain ⟨type, phase, chan⟩ := call
      obtain ⟨⟨⟩, ⟨⟩⟩ := awaitsBatch_iff.mp waits
      exact .inr queued
    · obtain rfl : call = other := Option.some.inj (found.symm.trans here)
      obtain ⟨type, phase, chan⟩ := call
      cases returned
      exact .inr rfl

end Delivers

section

variable (config : ProcessorConfig)

theorem tagged_started : Tagged (started config : System ε V) where
  answers here := by simp [started, List.getElem?_replicate] at here
  channels found := by simp [started] at found
  singles found := by simp [started] at found

theorem delivers_started : Delivers (started config : System ε V) where
  tagged := tagged_started config
  awaited n := by
    simp [System.onTheWay, System.inFlight, System.waits, started, Chan.make]
  alone waits := by simp [System.waits, started] at waits
  batches found := by simp [started] at found
  informed := by simp [started]

/-- A caller of `ProcessMessage` that receives a result receives its own, in every run. In
    the runs that keep apart what shares the result queue, so does a caller of `ProcessBatch`,
    and a caller whose task panicked is told so. -/
theorem results_correlated :
    (∀ labels (s : System ε V), machine.run (started config) labels = some s →
      ∀ (n : Nat) (call : Call ε V) (result : ProcessResult ε V), s.calls[n]? = some call →
        call.type = .single → call.phase = .returned (.result result) → result.call = n) ∧
    (∀ labels (s : System ε V), (machine.restrict Apart).run (started config) labels = some s →
      Correlated s) := by
  constructor
  · intro labels s ran n call result
    have tagged := machine.run_invariant (P := Tagged)
      (fun _ _ _ before stepped => before.step (step_of_next stepped).2) (tagged_started config) ran
    exact tagged.singles
  · intro labels s ran
    have delivers := (machine.restrict Apart).run_invariant (P := Delivers)
      (fun _ _ _ before stepped => by
        obtain ⟨apart, stepped⟩ := machine.restrict_next.mp stepped
        exact before.step apart (step_of_next stepped).2)
      (delivers_started config) ran
    exact delivers.correlated

end

def small : ProcessorConfig where
  workerCount := 2
  queueSize := 2
  enableBackpressure := true
  exceeds := fun length => 2 ≤ length

/-- The results that callers have received, by call. -/
def System.received (s : System ε V) : List (Option (ProcessResult ε V)) :=
  s.calls.map fun call =>
    match call.phase with
    | .returned (.result result) => some result
    | _ => none

theorem exists_of_received {n : Nat} (received : s.received[n]? = some (some result)) :
    ∃ call, s.calls[n]? = some call ∧ call.phase = .returned (.result result) := by
  rw [System.received, List.getElem?_map, Option.map_eq_some_iff] at received
  obtain ⟨call, found, returned⟩ := received
  refine ⟨call, found, ?_⟩
  split at returned
  · next phase => rw [phase, Option.some.inj returned]
  · cases returned

/-- The worker panics on the batch, and the other task is finished meanwhile. -/
def apartRun : List (Label String Nat) :=
  [.call .batch, .call .single, .check 0, .check 1, .submit 0, .submit 1, .take 0,
    .take 1, .panics 0, .finish 1 (.ok 7), .answer 1 false, .answerPanic 0, .receive 0, .receive 1]

theorem results_correlated_apart :
    ∃ s : System String Nat, (machine.restrict Apart).run (started small) apartRun = some s ∧
      s.received = [some (panicResult 0), some ⟨1, .ok 7⟩] ∧ Correlated s := by
  refine exists_of_view (·.received) [some (panicResult 0), some ⟨1, .ok 7⟩]
    (by decide +kernel) fun s ran received => ?_
  exact ⟨received, (results_correlated small).2 apartRun s ran⟩

/-- Two batches are worked on at once, and the second is finished first. -/
def swappedRun : List (Label String Nat) :=
  [.call .batch, .call .batch, .check 0, .check 1, .submit 0, .submit 1, .take 0, .take 1,
    .finish 0 (.ok 10),
    .finish 1 (.ok 11), .answer 1 false, .answer 0 false, .receive 0, .receive 1]

/-- The worker panics on the task of a `ProcessMessage`. -/
def singlePanicRun : List (Label String Nat) :=
  [.call .single, .check 0, .submit 0, .take 0, .panics 0, .answerPanic 0]

/-- The first caller gets the batch of the second. And the caller whose task panicked waits
    in vain: the error is in a queue that it does not read. -/
theorem not_results_correlated :
    (∃ s : System String Nat, machine.run (started small) swappedRun = some s ∧
      s.received = [some ⟨1, .ok 11⟩, some ⟨0, .ok 10⟩] ∧ ¬ Correlated s) ∧
    (∃ s : System String Nat, machine.run (started small) singlePanicRun = some s ∧
      s.resultQueue.items = [panicResult 0] ∧ ¬ Correlated s) := by
  constructor
  · refine exists_of_view (·.received) [some ⟨1, .ok 11⟩, some ⟨0, .ok 10⟩]
      (by decide +kernel) fun s ran received => ?_
    refine ⟨received, fun correlated => ?_⟩
    obtain ⟨call, found, returned⟩ := exists_of_received (s := s) (n := 0) (by rw [received]; rfl)
    exact absurd (correlated.own found returned) (by decide)
  · refine exists_of_view (fun s => (s.resultQueue.items, s.panicked, s.workers.any (panicsOn 0),
        s.calls[0]?.map fun call => decide (Told s.resultQueue.items 0 call)))
      ([panicResult 0], [0], false, some false) (by decide +kernel) fun s ran seen => ?_
    simp only [Prod.mk.injEq] at seen
    obtain ⟨results, panicked, notPanicking, untold⟩ := seen
    refine ⟨results, fun correlated => ?_⟩
    obtain ⟨call, found, untold⟩ := Option.map_eq_some_iff.mp untold
    rcases correlated.panics 0 (by simp [panicked]) call found with panicking | told
    · rw [notPanicking] at panicking
      cases panicking
    · exact absurd told (of_decide_eq_false untold)

end Portask.Processor.MessageProcessor
