import Portask.Processor.ResultDelivery

/-! # Stopping the message processor

`Stop` closes both queues at once, whoever is about to send to them or to read from them. A
caller that submits a task then panics, a worker that has a batch result left panics twice,
and a caller of `ProcessBatch` reads through a nil pointer. Nothing of this happens if the
queues are closed in quiet moments: the processing queue when every task is submitted and no
call comes after, the result queue when no result is on its way to it or waited for. Then
every caller returns, provided that `handleResults` leaves waiting batch callers their
results and the context of the workers is not cancelled.
-/

namespace Portask.Processor.MessageProcessor

open Lib Chan ProcessTask

variable {ε V : Type}

/-- The task has been given to the workers, or never will be. -/
def Call.submitted : Call ε V → Bool
  | ⟨_, .created, _⟩ | ⟨_, .submitting, _⟩ => false
  | ⟨_, .waiting, _⟩ | ⟨_, .returned _, _⟩ => true

def Call.hasReturned : Call ε V → Bool
  | ⟨_, .returned _, _⟩ => true
  | _ => false

theorem Call.not_submitted {call : Call ε V}
    (here : call.phase = .created ∨ call.phase = .submitting) : call.submitted = false := by
  obtain ⟨type, phase, chan⟩ := call
  rcases here with ⟨⟨⟩⟩ | ⟨⟨⟩⟩
  · rfl
  · rfl

/-- The result queue gets nothing any more, and nobody waits for it. -/
def Drained (s : System ε V) : Prop := NobodyWaits s ∧ s.inFlight (fun _ => true) = 0

instance (s : System ε V) : Decidable (Drained s) := inferInstanceAs (Decidable (_ ∧ _))

/-- `Stop` closes the queues in quiet moments, nothing is submitted and no worker panics
    afterwards, `handleResults` takes nothing from a batch caller, and the workers are not
    cancelled. -/
def Orderly (s : System ε V) : Label ε V → Prop
  | .call _ => s.processingQueue.closed = false
  | .panics _ => s.resultQueue.closed = false
  | .handle => NobodyWaits s
  | .cancel => False
  | .closeProcessing => ∀ call ∈ s.calls, call.submitted = true
  | .closeResults => Drained s
  | _ => True

instance (s : System ε V) : ∀ label, Decidable (Orderly s label)
  | .call _ => inferInstanceAs (Decidable (s.processingQueue.closed = false))
  | .panics _ => inferInstanceAs (Decidable (s.resultQueue.closed = false))
  | .handle => inferInstanceAs (Decidable (NobodyWaits s))
  | .cancel => .isFalse id
  | .closeProcessing => inferInstanceAs (Decidable (∀ call ∈ s.calls, _))
  | .closeResults => inferInstanceAs (Decidable (Drained s))
  | .check _ | .submit _ | .contextDone _ | .timer _ | .receive _ | .take _
  | .finish .. | .answer .. | .answerPanic _
  | .workerStops _ | .workerCancelled _ | .handlerStops | .handlerCancelled | .stop =>
    .isTrue trivial

/-- What goes on without a new call, a cancellation or a call of `Stop`. -/
def Label.internal : Label ε V → Bool
  | .call _ | .cancel | .stop => false
  | _ => true

/-- Left to itself the machine comes to rest, and then every caller has returned. -/
structure Returns (m : Machine (System ε V) (Label ε V)) (s : System ε V) : Prop where
  bounded : ∃ bound, ∀ labels t, (∀ label ∈ labels, label.internal = true) →
    m.run s labels = some t →
    labels.length ≤ bound
  returned : ∀ labels t, (∀ label ∈ labels, label.internal = true) → m.run s labels = some t →
    (∀ label, label.internal = true → m.next t label = none) →
      ∀ call ∈ t.calls, call.hasReturned = true

/-- Nobody has sent on a closed channel or read through nil, and every caller returns. -/
structure Safe (m : Machine (System ε V) (Label ε V)) (s : System ε V) : Prop where
  alive : s.crash = none
  returns : Returns m s

def Phase.weight : Phase ε V → Nat
  | .created => 8
  | .submitting => 7
  | .waiting => 1
  | .returned _ => 0

def Worker.weight : Worker ε V → Nat
  | .idle => 1
  | .processing _ => 5
  | .answering .. => 4
  | .panicking _ => 3
  | .stopped => 0

def Stopping.weight : Stopping → Nat
  | .closeProcessing => 2
  | .closeResults => 1
  | .notCalled | .returned => 0

/-- How many steps are left at most, if nobody calls. -/
def System.weight (s : System ε V) : Nat :=
  tally (fun call => call.phase.weight) s.calls + 5 * s.processingQueue.items.length +
    tally Worker.weight s.workers +
    s.resultQueue.items.length + s.handling.toNat + s.stopping.weight + s.crash.isNone.toNat

section Weight

variable {s : System ε V} {n w : Nat} {queue : Chan (ProcessResult ε V)}
  {result : ProcessResult ε V}

theorem weight_setCall (new : Call ε V) (found : s.calls[n]? = some old) :
    (s.setCall n new).weight + old.phase.weight = s.weight + new.phase.weight := by
  have moved := tally_set (fun call : Call ε V => call.phase.weight) new found
  simp only [System.weight, System.setCall] at moved ⊢
  omega

theorem weight_setWorker (new : Worker ε V) (found : s.workers[w]? = some old) :
    (s.setWorker w new).weight + old.weight = s.weight + new.weight := by
  have moved := tally_set Worker.weight new found
  simp only [System.weight, System.setWorker] at moved ⊢
  omega

theorem weight_setCall_lt (found : s.calls[n]? = some old)
    (less : new.phase.weight < old.phase.weight) : (s.setCall n new).weight < s.weight := by
  have moved := weight_setCall new found
  omega

theorem weight_setWorker_lt (found : s.workers[w]? = some old) (less : new.weight < old.weight) :
    (s.setWorker w new).weight < s.weight := by
  have moved := weight_setWorker new found
  omega

theorem weight_submit {task queue} (sent : s.processingQueue.send task = .sends queue) :
    (s.setProcessing queue).weight = s.weight + 5 := by
  obtain ⟨-, rfl⟩ := of_sends sent
  simp only [System.weight, System.setProcessing, List.length_append, List.length_singleton]
  omega

theorem weight_take {task queue} (received : s.processingQueue.receive = .gives task queue) :
    (s.setProcessing queue).weight + 5 = s.weight := by
  simp only [System.weight, System.setProcessing, (of_gives received).1, List.length_cons]
  omega

theorem weight_answer (sent : s.resultQueue.send result = .sends queue) :
    (s.setResults queue).weight = s.weight + 1 := by
  obtain ⟨-, rfl⟩ := of_sends sent
  simp only [System.weight, System.setResults, List.length_append, List.length_singleton]
  omega

theorem weight_receive (received : s.resultQueue.receive = .gives result queue) :
    (s.setResults queue).weight + 1 = s.weight := by
  simp only [System.weight, System.setResults, (of_gives received).1, List.length_cons]
  omega

end Weight

variable {s t : System ε V}

theorem Step.weight_lt (alive : s.crash = none) (internal : label.internal = true)
    (step : Step s label t) : t.weight < s.weight := by
  cases step with
  | begins | cancels | stops | stopsAgain => cases internal
  | clears found here | receivesOwn found _ here =>
    exact weight_setCall_lt found (by simp [here, Phase.weight])
  | @leaves label n call reply found leaves =>
    refine weight_setCall_lt found ?_
    cases phase : call.phase with
    | returned reply => exact absurd phase (leaves.inside reply)
    | created | submitting | waiting => simp [Phase.weight]
  | @submits n call queue found here sent =>
    have moved := weight_setCall { call with phase := .waiting } found
    have entered := weight_submit (s := s.goto n call .waiting) sent
    simp only [here, Phase.weight] at moved
    rw [System.goto] at entered ⊢
    omega
  | @receivesShared n call result queue found awaits received =>
    have moved := weight_setCall { call with phase := .returned (.result result) } found
    have left := weight_receive (s := s.goto n call (.returned (.result result))) received
    simp only [(Call.awaitsBatch_iff.mp awaits).2, Phase.weight] at moved
    rw [System.goto] at left ⊢
    omega
  | @takes w task queue idle received =>
    have moved := weight_setWorker (.processing task) idle
    have left := weight_take (s := s.setWorker w (.processing task)) received
    simp only [Worker.weight] at moved
    omega
  | finishes _ here | callsBackLate here | answerPanics here | workerEnds here =>
    exact weight_setWorker_lt here (by simp [Worker.weight])
  | @panics w task here =>
    change (s.setWorker w (.panicking task)).weight < _
    exact weight_setWorker_lt here (by simp [Worker.weight])
  | @callsBack w task result late call chan here single found sent =>
    have moved := weight_setWorker .idle here
    have same := weight_setCall (s := s.setWorker w .idle) { call with resultChan := chan } found
    simp only [Worker.weight] at moved same
    omega
  | @answers w task result late queue here batch sent | @sendsPanic w task queue here sent =>
    have moved := weight_setWorker .idle here
    have entered := weight_answer (s := s.setWorker w .idle) sent
    simp only [Worker.weight] at moved
    omega
  | crashes crashes =>
    simp only [System.weight, System.crashed, alive, Option.isNone_none, Option.isNone_some,
      Bool.toNat_true, Bool.toNat_false]
    omega
  | handles received =>
    have left := weight_receive received
    omega
  | handlerEnds running ended =>
    simp only [System.weight, running, Bool.toNat_true, Bool.toNat_false]
    omega
  | closesProcessing here | closesResults here =>
    simp only [System.weight, here, Stopping.weight, close]
    omega

def Call.awaiting (call : Call ε V) : Nat := call.awaitsBatch.toNat

/-- There is a result on its way for every batch caller that waits, and a queue that is
    closed is not needed any more. -/
structure Steady (s : System ε V) : Prop where
  alive : s.crash = none
  uncancelled : s.cancelled = false
  covered : tally Call.awaiting s.calls ≤ s.onTheWay (fun _ => true)
  submitted : s.processingQueue.closed = true → ∀ call ∈ s.calls, call.submitted = true
  drained : s.resultQueue.closed = true → s.processingQueue.closed = true ∧ Drained s
  closing : s.stopping = .closeResults → s.processingQueue.closed = true
  resting : ∀ w : Nat, s.workers[w]? = some .stopped → s.processingQueue.closed = true ∧
    s.processingQueue.items = []
  handling : s.handling = false → s.resultQueue.closed = true
  processingCapacity : 1 ≤ s.processingQueue.capacity
  resultCapacity : 1 ≤ s.resultQueue.capacity

namespace Steady

variable {s t : System ε V} {n w : Nat}

/-- A result queue that is still needed is open. -/
theorem open_of_needed (steady : Steady s)
    (needed : s.processingQueue.closed = true → ¬ Drained s) : s.resultQueue.closed = false := by
  by_contra closed
  obtain ⟨ended, drained⟩ := steady.drained (by simpa using closed)
  exact needed ended drained

theorem nobodyWaits_setCall (found : s.calls[n]? = some old) (nobody : NobodyWaits s)
    (same : new.awaitsBatch = old.awaitsBatch) : NobodyWaits (s.setCall n new) := by
  intro call inside
  obtain ⟨m, here⟩ := List.mem_iff_getElem?.mp inside
  obtain ⟨rfl, rfl⟩ | ⟨-, kept⟩ := System.of_setCall here
  · rw [same]
    exact nobody old (List.mem_of_getElem? found)
  · exact nobody call (List.mem_of_getElem? kept)

variable {call : Call ε V}

/-- While a batch caller waits the result queue is open. -/
theorem open_of_awaits (steady : Steady s) (found : s.calls[n]? = some call)
    (awaits : call.awaitsBatch = true) : s.resultQueue.closed = false := by
  refine steady.open_of_needed fun _ drained => ?_
  rw [drained.1 call (List.mem_of_getElem? found)] at awaits
  cases awaits

variable {worker : Worker ε V}

/-- While a worker carries a result for the queue, the queue is open. -/
theorem open_of_carries (steady : Steady s) (found : s.workers[w]? = some worker)
    (carries : 0 < worker.carries (fun _ => true)) : s.resultQueue.closed = false := by
  refine steady.open_of_needed fun _ drained => ?_
  have heavy := le_tally (Worker.carries (fun _ => true)) found
  have nothing := drained.2
  rw [System.inFlight] at nothing
  omega

/-- A call changes, but neither begins nor ends a wait for a batch. -/
theorem setCall (steady : Steady s) (found : s.calls[n]? = some old)
    (same : new.awaitsBatch = old.awaitsBatch)
    (submitted : s.processingQueue.closed = true → new.submitted = true) :
    Steady (s.setCall n new) where
  __ := steady
  covered := by
    have moved := tally_set Call.awaiting new found
    have before := steady.covered
    have kept : (s.setCall n new).onTheWay (fun _ => true) = s.onTheWay (fun _ => true) := rfl
    simp only [Call.awaiting, same] at moved
    rw [kept]
    simp only [System.setCall]
    omega
  submitted closed call inside := by
    obtain ⟨m, here⟩ := List.mem_iff_getElem?.mp inside
    obtain ⟨-, rfl⟩ | ⟨-, kept⟩ := System.of_setCall here
    · exact submitted closed
    · exact steady.submitted closed call (List.mem_of_getElem? kept)
  drained closed := by
    obtain ⟨ended, nobody, nothing⟩ := steady.drained closed
    exact ⟨ended, nobodyWaits_setCall found nobody same, nothing⟩

/-- A worker changes. It may carry more than before only while the result queue is open. -/
theorem setWorker (steady : Steady s) (found : s.workers[w]? = some old)
    (keeps : old.carries (fun _ => true) ≤ new.carries (fun _ => true))
    (same : s.resultQueue.closed = true → new.carries (fun _ => true) = old.carries (fun _ => true))
    (stops : new = .stopped → s.processingQueue.closed = true ∧ s.processingQueue.items = []) :
    Steady (s.setWorker w new) where
  __ := steady
  covered := by
    have moved := inFlight_setWorker (p := fun _ => true) new found
    have before := steady.covered
    rw [System.onTheWay] at before ⊢
    change tally Call.awaiting s.calls ≤ _ + tally _ s.resultQueue.items
    omega
  drained closed := by
    obtain ⟨ended, nobody, nothing⟩ := steady.drained closed
    have moved := inFlight_setWorker (p := fun _ => true) new found
    rw [same closed, nothing] at moved
    exact ⟨ended, nobody, by omega⟩
  resting v here := by
    obtain ⟨-, changed⟩ | ⟨-, kept⟩ := System.of_setWorker here
    · exact stops changed.symm
    · exact steady.resting v kept

variable {result : ProcessResult ε V}

theorem rests (steady : Steady s) (here : s.workers[w]? = some (.answering task result))
    (single : task.type = .single) : Steady (s.setWorker w .idle) := by
  have nothing : (Worker.answering task result).carries (fun _ => true) = 0 :=
    bound_single single (fun _ => true)
  exact steady.setWorker here (le_of_eq nothing) (fun _ => nothing.symm) (by simp)

theorem begins (steady : Steady s) (type : ProcessType)
    (isOpen : s.processingQueue.closed = false) : Steady (s.begin type) where
  __ := steady
  covered := by
    have before := steady.covered
    have kept : (s.begin type).onTheWay (fun _ => true) = s.onTheWay (fun _ => true) := rfl
    rw [kept]
    simpa [System.begin, Call.awaiting, Call.awaitsBatch] using before
  submitted closed := absurd closed (by simp [System.begin, isOpen])
  drained closed := absurd (steady.drained closed).1 (by simp [isOpen])

theorem submits (steady : Steady s) (found : s.calls[n]? = some call)
    (here : call.phase = .submitting)
    (sent : s.processingQueue.send ⟨n, call.type⟩ = .sends queue) :
    Steady ((s.goto n call .waiting).setProcessing queue) := by
  have entered := inFlight_submit (p := fun _ => true) sent
  obtain ⟨isOpen, rfl⟩ := of_sends sent
  refine ⟨steady.alive, steady.uncancelled, ?_, ?_, ?_, steady.closing, ?_, steady.handling,
    steady.processingCapacity, steady.resultCapacity⟩
  · have moved := tally_set Call.awaiting { call with phase := .waiting } found
    have before := steady.covered
    rw [System.onTheWay] at before ⊢
    change tally Call.awaiting (s.calls.set n _) ≤ (s.setProcessing _).inFlight _ +
      tally _ s.resultQueue.items
    rw [entered]
    rw [Call.awaiting, Call.not_awaitsBatch (by simp [here]), Bool.toNat_false] at moved
    cases kind : call.type with
    | single =>
      simp only [kind, Call.awaiting, Call.awaitsBatch, bound, Bool.toNat_false] at moved ⊢
      omega
    | batch =>
      simp only [kind, Call.awaiting, Call.awaitsBatch, bound, Bool.toNat_true] at moved ⊢
      omega
  · intro closed
    exact absurd closed (by simp [System.setProcessing, isOpen])
  · intro closed
    exact absurd (steady.drained closed).1 (by simp [isOpen])
  · intro w stopped
    exact absurd (steady.resting w stopped).1 (by simp [isOpen])

variable {queue : Chan (ProcessResult ε V)}

theorem receivesShared (steady : Steady s) (found : s.calls[n]? = some call)
    (awaits : call.awaitsBatch = true) (received : s.resultQueue.receive = .gives result queue) :
    Steady ((s.goto n call (.returned (.result result))).setResults queue) := by
  have left := onTheWay_receive (p := fun _ => true) received
  obtain ⟨items, capacity, closed⟩ := of_gives received
  have isOpen := steady.open_of_awaits found awaits
  refine ⟨steady.alive, steady.uncancelled, ?_, ?_, ?_, steady.closing, steady.resting, ?_,
    steady.processingCapacity, ?_⟩
  · have moved := tally_set Call.awaiting { call with phase := .returned (.result result) } found
    have before := steady.covered
    change tally Call.awaiting (s.calls.set n _) ≤ (s.setResults queue).onTheWay _
    rw [Call.awaiting, awaits, Call.awaiting, Call.not_awaitsBatch (by simp)] at moved
    simp only [Bool.toNat_true, Bool.toNat_false, ProcessResult.counts] at moved left
    omega
  · intro ended call inside
    obtain ⟨m, here⟩ := List.mem_iff_getElem?.mp inside
    obtain ⟨-, rfl⟩ | ⟨-, kept⟩ := System.of_setCall here
    · rfl
    · exact steady.submitted ended call (List.mem_of_getElem? kept)
  · intro ended
    exact absurd (closed.symm.trans ended) (by simp [isOpen])
  · intro ended
    exact absurd (steady.handling ended) (by simp [isOpen])
  · exact le_of_le_of_eq steady.resultCapacity capacity.symm

theorem takes {task queue} (steady : Steady s) (idle : s.workers[w]? = some .idle)
    (received : s.processingQueue.receive = .gives task queue) :
    Steady ((s.setWorker w (.processing task)).setProcessing queue) := by
  have moved := inFlight_take (p := fun _ => true) idle received
  obtain ⟨items, capacity, closed⟩ := of_gives received
  refine ⟨steady.alive, steady.uncancelled, ?_, ?_, ?_, ?_, ?_, steady.handling, ?_,
    steady.resultCapacity⟩
  · have before := steady.covered
    rw [System.onTheWay] at before ⊢
    rw [moved]
    exact before
  · intro ended
    exact steady.submitted (closed.symm.trans ended)
  · intro ended
    obtain ⟨processing, nobody, nothing⟩ := steady.drained ended
    exact ⟨closed.trans processing, nobody, moved.trans nothing⟩
  · intro stopping
    exact closed.trans (steady.closing stopping)
  · intro v stopped
    obtain ⟨-, changed⟩ | ⟨-, kept⟩ := System.of_setWorker stopped
    · cases changed
    · have none := (steady.resting v kept).2
      rw [items] at none
      cases none
  · exact le_of_le_of_eq steady.processingCapacity capacity.symm

theorem answers (steady : Steady s) (found : s.workers[w]? = some old)
    (carried : old.carries (fun _ => true) = 1) (sent : s.resultQueue.send result = .sends queue) :
    Steady ((s.setWorker w .idle).setResults queue) := by
  have moved := onTheWay_answer (p := fun _ => true) found sent
  obtain ⟨isOpen, rfl⟩ := of_sends sent
  refine ⟨steady.alive, steady.uncancelled, ?_, steady.submitted, ?_, steady.closing, ?_, ?_,
    steady.processingCapacity, steady.resultCapacity⟩
  · rw [carried] at moved
    exact le_of_le_of_eq steady.covered (Nat.add_right_cancel moved).symm
  · intro ended
    exact absurd ended (by simp [System.setResults, isOpen])
  · intro v stopped
    obtain ⟨-, changed⟩ | ⟨-, kept⟩ := System.of_setWorker stopped
    · cases changed
    · exact steady.resting v kept
  · intro ended
    exact absurd (steady.handling ended) (by simp [isOpen])

/-- Whatever can panic for good finds its queue open. -/
theorem not_crashes {crash : Crash} (steady : Steady s) : ¬ Crashes s crash := by
  intro crashes
  cases crashes with
  | submit found here closed =>
    have submitted := steady.submitted closed _ (List.mem_of_getElem? found)
    rw [Call.not_submitted (.inr here)] at submitted
    cases submitted
  | answerPanic here closed =>
    have isOpen := steady.open_of_carries here (by simp [Worker.carries])
    rw [closed] at isOpen
    cases isOpen
  | nilResult found awaits closed =>
    have isOpen := steady.open_of_awaits found awaits
    rw [closed] at isOpen
    cases isOpen

theorem handles (steady : Steady s) (nobody : NobodyWaits s)
    (received : s.resultQueue.receive = .gives result queue) : Steady (s.setResults queue) := by
  obtain ⟨items, capacity, closed⟩ := of_gives received
  refine ⟨steady.alive, steady.uncancelled, ?_, steady.submitted, ?_, steady.closing,
    steady.resting, ?_, steady.processingCapacity, ?_⟩
  · have none : tally Call.awaiting s.calls = 0 := by
      by_contra some
      obtain ⟨n, call, found, awaiting⟩ := exists_of_tally_pos (Nat.pos_of_ne_zero some)
      rw [Call.awaiting, nobody call (List.mem_of_getElem? found)] at awaiting
      cases awaiting
    exact le_of_eq_of_le none (Nat.zero_le _)
  · intro ended
    exact steady.drained (closed.symm.trans ended)
  · intro ended
    exact closed.trans (steady.handling ended)
  · exact le_of_le_of_eq steady.resultCapacity capacity.symm

theorem step {label : Label ε V} (steady : Steady s) (orderly : Orderly s label)
    (step : Step s label t) : Steady t := by
  cases step with
  | begins type => exact steady.begins type orderly
  | @clears n call found here =>
    refine steady.setCall found ?_ ?_
    · rw [Call.not_awaitsBatch (by simp), Call.not_awaitsBatch (by simp [here])]
    · intro closed
      have submitted := steady.submitted closed call (List.mem_of_getElem? found)
      rw [Call.not_submitted (.inl here)] at submitted
      cases submitted
  | leaves found leaves =>
    refine steady.setCall found ?_ (fun _ => rfl)
    rw [leaves.notAwaiting, Call.not_awaitsBatch (by simp)]
  | submits found here sent => exact steady.submits found here sent
  | @receivesOwn n call result chan found single here received =>
    obtain ⟨type, phase, chan⟩ := call
    cases single
    cases here
    exact steady.setCall found rfl (fun _ => rfl)
  | receivesShared found awaits received => exact steady.receivesShared found awaits received
  | takes idle received => exact steady.takes idle received
  | finishes outcome here => exact steady.setWorker here (Nat.le_refl _) (fun _ => rfl) (by simp)
  | @panics w task here =>
    have moved : Steady (s.setWorker w (.panicking task)) := by
      refine steady.setWorker here ?_ ?_ (by simp)
      · cases kind : task.type <;> simp [Worker.carries, bound, kind]
      · intro closed
        rw [orderly] at closed
        cases closed
    exact ⟨moved.alive, moved.uncancelled, moved.covered, moved.submitted, moved.drained,
      moved.closing, moved.resting, moved.handling, moved.processingCapacity, moved.resultCapacity⟩
  | @callsBack w task result late call chan here single found sent =>
    refine (steady.rests here single).setCall found (Call.awaitsBatch_resultChan call chan) ?_
    intro closed
    have submitted := steady.submitted closed call (List.mem_of_getElem? found)
    obtain ⟨type, phase, old⟩ := call
    cases phase with
    | created | submitting => cases submitted
    | waiting | returned => rfl
  | callsBackLate here single => exact steady.rests here single
  | answers here batch sent => exact steady.answers here (bound_batch batch (fun _ => true)) sent
  | answerPanics here batch closed =>
    have isOpen := steady.open_of_carries here (by simp [Worker.carries, bound_batch batch])
    rw [closed] at isOpen
    cases isOpen
  | sendsPanic here sent => exact steady.answers here (by simp [Worker.carries]) sent
  | crashes crashes => exact absurd crashes steady.not_crashes
  | workerEnds idle ended =>
    refine steady.setWorker idle (Nat.le_refl _) (fun _ => rfl) (fun _ => ?_)
    rcases ended with ended | cancelled
    · exact (of_givesNil ended).symm
    · rw [steady.uncancelled] at cancelled
      cases cancelled
  | handles received => exact steady.handles orderly received
  | handlerEnds running ended =>
    refine { steady with handling := fun _ => ?_ }
    rcases ended with ended | cancelled
    · exact (of_givesNil ended).2
    · rw [steady.uncancelled] at cancelled
      cases cancelled
  | cancels => exact orderly.elim
  | stops notCalled => exact { steady with closing := fun stopping => by cases stopping }
  | stopsAgain => exact steady
  | closesProcessing here =>
    exact { steady with
      submitted := fun _ => orderly
      drained := fun closed => ⟨rfl, (steady.drained closed).2⟩
      closing := fun _ => rfl
      resting := fun w stopped => ⟨rfl, (steady.resting w stopped).2⟩ }
  | closesResults here =>
    exact { steady with
      drained := fun _ => ⟨steady.closing here, orderly⟩
      closing := fun stopping => by cases stopping
      handling := fun _ => rfl }

/-! Whoever has not returned can go on, or somebody else can for it. -/

def Moves (s : System ε V) : Prop :=
  ∃ label t, label.internal = true ∧ (machine.restrict Orderly).next s label = some t

theorem moves (steady : Steady s) (label : Label ε V) (internal : label.internal = true)
    (orderly : Orderly s label) (acts : (s.act label).isSome = true) : Moves s := by
  obtain ⟨t, acts⟩ := Option.isSome_iff_exists.mp acts
  refine ⟨label, t, internal, machine.restrict_next.mpr ⟨orderly, ?_⟩⟩
  simp [machine, System.next, steady.alive, acts]

theorem receives_move (steady : Steady s) (isOpen : s.resultQueue.closed = false)
    (filled : s.resultQueue.items ≠ []) : Moves s := by
  obtain ⟨result, queue, received⟩ := gives_of_ne_nil filled
  by_cases nobody : NobodyWaits s
  · have handling : s.handling = true := by
      by_contra ended
      have closed := steady.handling (by simpa using ended)
      rw [isOpen] at closed
      cases closed
    exact steady.moves .handle rfl nobody (by simp [System.act, received, handling])
  · simp only [NobodyWaits, not_forall, Bool.not_eq_false] at nobody
    obtain ⟨call, inside, awaits⟩ := nobody
    obtain ⟨n, found⟩ := List.mem_iff_getElem?.mp inside
    obtain ⟨type, phase, chan⟩ := call
    obtain ⟨⟨⟩, ⟨⟩⟩ := Call.awaitsBatch_iff.mp awaits
    exact steady.moves (.receive n) rfl trivial
      (by simp [System.act, found, System.receive, received])

/-- A worker that carries a result for the queue can send it, or somebody can receive. -/
theorem sends_move (steady : Steady s) (found : s.workers[w]? = some worker)
    (carries : 0 < worker.carries (fun _ => true)) (result : ProcessResult ε V)
    (sends : ∀ queue, s.resultQueue.send result = .sends queue → Moves s) : Moves s := by
  have isOpen := steady.open_of_carries found carries
  cases sent : s.resultQueue.send result with
  | sends queue => exact sends queue sent
  | blocks => exact steady.receives_move isOpen (of_blocks steady.resultCapacity sent)
  | panics =>
    rw [of_panics sent] at isOpen
    cases isOpen

theorem works_move [Inhabited V] (steady : Steady s) (found : s.workers[w]? = some worker)
    (busy : worker ≠ .idle ∧ worker ≠ .stopped) : Moves s := by
  cases worker with
  | idle => exact absurd rfl busy.1
  | stopped => exact absurd rfl busy.2
  | processing task =>
    exact steady.moves (.finish w (.ok default)) rfl trivial (by simp [System.act, found])
  | answering task result =>
    cases kind : task.type with
    | single =>
      exact steady.moves (.answer w true) rfl trivial
        (by simp [System.act, found, System.answer, kind, System.callback])
    | batch =>
      refine steady.sends_move found (by simp [Worker.carries, bound_batch kind]) result ?_
      intro queue sent
      exact steady.moves (.answer w false) rfl trivial
        (by simp [System.act, found, System.answer, kind, sent])
  | panicking task =>
    refine steady.sends_move found (by simp [Worker.carries]) (panicResult task.call) ?_
    intro queue sent
    rw [panicResult] at sent
    exact steady.moves (.answerPanic w) rfl trivial
      (by simp [System.act, found, System.answerPanic, sent])

theorem queue_moves [Inhabited V] (steady : Steady s) (staffed : s.workers ≠ [])
    (filled : s.processingQueue.items ≠ []) : Moves s := by
  obtain ⟨worker, rest, workers⟩ := List.exists_cons_of_ne_nil staffed
  have found : s.workers[0]? = some worker := by simp [workers]
  by_cases stopped : worker = .stopped
  · subst stopped
    exact absurd (steady.resting 0 found).2 filled
  · by_cases idle : worker = .idle
    · subst idle
      obtain ⟨task, queue, received⟩ := gives_of_ne_nil filled
      exact steady.moves (.take 0) rfl trivial (by simp [System.act, found, received])
    · exact steady.works_move found ⟨idle, stopped⟩

/-- The result of a batch caller that waits is in one of three places. -/
theorem awaited_moves [Inhabited V] (steady : Steady s) (staffed : s.workers ≠ [])
    (found : s.calls[n]? = some call) (awaits : call.awaitsBatch = true) : Moves s := by
  have one := le_tally Call.awaiting found
  have covered := steady.covered
  rw [Call.awaiting, awaits, Bool.toNat_true] at one
  rw [System.onTheWay, System.inFlight] at covered
  by_cases queued : s.processingQueue.items = []
  · by_cases carried : tally (Worker.carries fun _ => true) s.workers = 0
    · refine steady.receives_move (steady.open_of_awaits found awaits) ?_
      intro empty
      rw [queued, carried, empty] at covered
      simp only [tally_nil] at covered
      omega
    · obtain ⟨w, worker, here, carries⟩ := exists_of_tally_pos (Nat.pos_of_ne_zero carried)
      refine steady.works_move here ⟨?_, ?_⟩
      · rintro rfl
        cases carries
      · rintro rfl
        cases carries
  · exact steady.queue_moves staffed queued

theorem progress [Inhabited V] (steady : Steady s) (staffed : s.workers ≠ [])
    (found : s.calls[n]? = some call) (inside : call.hasReturned = false) : Moves s := by
  obtain ⟨type, phase, chan⟩ := call
  cases phase with
  | returned reply => cases inside
  | created => exact steady.moves (.check n) rfl trivial (by simp [System.act, found])
  | submitting =>
    cases type with
    | single => exact steady.moves (.timer n) rfl trivial (by simp [System.act, found])
    | batch =>
      cases sent : s.processingQueue.send ⟨n, .batch⟩ with
      | sends queue =>
        exact steady.moves (.submit n) rfl trivial (by simp [System.act, found, System.submit, sent])
      | blocks => exact steady.queue_moves staffed (of_blocks steady.processingCapacity sent)
      | panics =>
        have submitted := steady.submitted (of_panics sent) _ (List.mem_of_getElem? found)
        cases submitted
  | waiting =>
    cases type with
    | single => exact steady.moves (.timer n) rfl trivial (by simp [System.act, found])
    | batch => exact steady.awaited_moves staffed found rfl

end Steady

theorem steady_started (config : ProcessorConfig) : Steady (started config : System ε V) where
  alive := rfl
  uncancelled := rfl
  covered := by simp [started]
  submitted := by simp [started]
  drained := by simp [started, make]
  closing := by simp [started]
  resting w stopped := by simp [started, List.getElem?_replicate] at stopped
  handling := by simp [started]
  processingCapacity := Nat.le_max_left 1 config.queueSize
  resultCapacity := Nat.le_max_left 1 config.queueSize

theorem Step.workers_length (step : Step s label t) : t.workers.length = s.workers.length := by
  cases step <;>
    simp [System.begin, System.goto, System.setCall, System.setWorker, System.setProcessing,
      System.setResults, System.crashed]

/-- What holds along the runs in which `Stop` is called in quiet moments. -/
structure Runs (config : ProcessorConfig) (s : System ε V) : Prop where
  steady : Steady s
  staff : s.workers.length = config.workerCount

theorem Runs.run (runs : Runs config s) (ran : (machine.restrict Orderly).run s labels = some t) :
    Runs config t :=
  (machine.restrict Orderly).run_invariant (P := Runs config)
    (fun _ _ _ before stepped => by
      obtain ⟨orderly, stepped⟩ := machine.restrict_next.mp stepped
      have step := (step_of_next stepped).2
      exact ⟨before.steady.step orderly step, step.workers_length.trans before.staff⟩)
    runs ran

/-- If `Stop` closes the queues in quiet moments, nobody meets a closed channel or a nil
    result, and every caller returns. -/
theorem safe_of_orderly [Inhabited V] {config : ProcessorConfig} (staffed : 0 < config.workerCount)
    {labels : List (Label ε V)} {s : System ε V}
    (ran : (machine.restrict Orderly).run (started config) labels = some s) :
    Safe (machine.restrict Orderly) s := by
  have runs : Runs config s := Runs.run ⟨steady_started config, by simp [started]⟩ ran
  refine ⟨runs.steady.alive, ⟨s.weight, ?_⟩, ?_⟩
  · intro labels t every ran
    refine (machine.restrict Orderly).run_length_le
      (fun label => label.internal = true) ?_ every ran
    intro s label t internal stepped
    obtain ⟨alive, step⟩ := step_of_next (machine.restrict_next.mp stepped).2
    exact step.weight_lt alive internal
  · intro labels t _ ran rest call inside
    have later := runs.run ran
    have workers : t.workers ≠ [] := List.ne_nil_of_length_pos (later.staff ▸ staffed)
    obtain ⟨n, found⟩ := List.mem_iff_getElem?.mp inside
    by_contra notReturned
    obtain ⟨label, u, internal, stepped⟩ :=
      later.steady.progress workers found (by simpa using notReturned)
    rw [rest label internal] at stepped
    cases stepped

/-- A batch is processed, and then `Stop` is called. -/
def orderlyRun : List (Label String Nat) :=
  [.call .batch, .call .single, .check 0, .check 1, .submit 0, .submit 1, .take 0,
    .finish 0 (.ok 10), .answer 0 false,
    .stop, .closeProcessing, .take 1, .receive 0, .closeResults, .finish 1 (.ok 11),
      .answer 1 false, .handlerStops, .receive 1, .workerStops 0, .workerStops 1]

theorem safe_of_orderly_stopped :
    ∃ s : System String Nat, (machine.restrict Orderly).run (started small) orderlyRun = some s ∧
      s.received = [some ⟨0, .ok 10⟩, some ⟨1, .ok 11⟩] ∧ Safe (machine.restrict Orderly) s := by
  refine exists_of_view (·.received) [some ⟨0, .ok 10⟩, some ⟨1, .ok 11⟩]
    (by decide +kernel) fun s ran received => ?_
  exact ⟨received, safe_of_orderly (by decide) ran⟩

/-- A caller comes after `Stop`. -/
def lateCallRun : List (Label String Nat) :=
  [.stop, .closeProcessing, .closeResults, .call .single, .check 0, .submit 0]

/-- A caller of `ProcessBatch` waits when `Stop` closes the queues. -/
def cutWaitRun : List (Label String Nat) :=
  [.call .batch, .check 0, .submit 0, .stop, .closeProcessing, .closeResults, .receive 0]

/-- A worker has the result of a batch when `Stop` closes the queues. -/
def cutAnswerRun : List (Label String Nat) :=
  [.call .batch, .check 0, .submit 0, .take 0, .finish 0 (.ok 10), .stop, .closeProcessing,
    .closeResults, .answer 0 false, .answerPanic 0]

theorem exists_crash
    (crashes : (machine.run (started small) labels).map System.crash = some (some crash)) :
    ∃ s : System String Nat, machine.run (started small) labels = some s ∧ s.crash = some crash ∧
      ¬ Safe machine s := by
  obtain ⟨s, ran, crashed⟩ := Option.map_eq_some_iff.mp crashes
  refine ⟨s, ran, crashed, ?_⟩
  intro safe
  rw [safe.alive] at crashed
  cases crashed

theorem not_safe_stop :
    (∃ s : System String Nat, machine.run (started small) lateCallRun = some s ∧
      s.crash = some .sendOnClosed ∧ ¬ Safe machine s) ∧
    (∃ s : System String Nat, machine.run (started small) cutWaitRun = some s ∧
      s.crash = some .nilResult ∧ ¬ Safe machine s) ∧
    (∃ s : System String Nat, machine.run (started small) cutAnswerRun = some s ∧
      s.crash = some .sendOnClosed ∧ ¬ Safe machine s) :=
  ⟨exists_crash (by decide +kernel), exists_crash (by decide +kernel),
    exists_crash (by decide +kernel)⟩

end Portask.Processor.MessageProcessor
